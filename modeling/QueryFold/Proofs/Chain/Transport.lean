import QueryFold.Proofs.Chain.Renumbering
import QueryFold.Proofs.Chain.Step

/-!
# Builds carried over to another supply

A computation is carried over to another one if that one, from every state carried over, does what
the first one does from the state: the value or the error, and the state that is left, are those of
the first one, carried over. A compound computation is carried over if its parts are.

A build is carried over to another supply by other identities in its query and its ledger and by
another count of identities drawn. If the other supply hands out the images of the identities and no
node holds identities itself, applying a node is carried over to applying it with that supply
(`Node.carries_applyWith`).
-/

namespace QueryFold

variable {σ τ ε α α' β β' : Type}

/-! ### Computations carried over -/

/-- How states and errors are carried over. -/
structure Transport (σ τ ε : Type) where
  /-- What becomes of a state. -/
  state : σ → τ
  /-- What becomes of an error. -/
  error : ε → ε

namespace Transport

/-- The computation `x` is carried over to `y`: from every state carried over, `y` does what `x`
does from the state. Values are carried over by `val`. -/
def Carries (T : Transport σ τ ε) (val : α → α') (x : ExceptT ε (StateM σ) α)
    (y : ExceptT ε (StateM τ) α') : Prop :=
  ∀ s, execute y (T.state s) = (carry T.error val (execute x s).1, T.state (execute x s).2)

/-- The computation `x` is carried over to `y`, which yields the same value. -/
abbrev Repeats (T : Transport σ τ ε) (x : ExceptT ε (StateM σ) α) (y : ExceptT ε (StateM τ) α) :
    Prop :=
  T.Carries (fun a => a) x y

namespace Carries

variable {T : Transport σ τ ε} {val : α → α'} {val' : β → β'}

theorem pure {a : α} {a' : α'} (h : a' = val a) :
    T.Carries val (Pure.pure a) (Pure.pure a') :=
  fun s => congrArg (fun v => (Except.ok v, T.state s)) h

theorem throw {e e' : ε} (h : e' = T.error e) :
    T.Carries val (throw e) (throw e') :=
  fun s => congrArg (fun e => (Except.error e, T.state s)) h

theorem get : T.Carries T.state get get := fun _ => rfl

theorem modify {f : σ → σ} {g : τ → τ} (h : ∀ s, g (T.state s) = T.state (f s)) :
    T.Repeats (modify f) (modify g) :=
  fun s => congrArg (fun t => (Except.ok PUnit.unit, t)) (h s)

theorem lift {x : Except ε α} {y : Except ε α'} (h : y = carry T.error val x) :
    T.Carries val (liftM x) (liftM y) := by
  intro s
  rw [execute_lift, execute_lift, h]

theorem bind {x : ExceptT ε (StateM σ) α} {y : ExceptT ε (StateM τ) α'}
    {f : α → ExceptT ε (StateM σ) β} {g : α' → ExceptT ε (StateM τ) β'}
    (first : T.Carries val x y) (rest : ∀ a, T.Carries val' (f a) (g (val a))) :
    T.Carries val' (x >>= f) (y >>= g) := by
  intro s
  rw [execute_bind, execute_bind, first s]
  rcases execute x s with ⟨e | a, s'⟩
  · rfl
  · exact rest a s'

/-- A value that says nothing. -/
theorem seq {x : ExceptT ε (StateM σ) PUnit} {y : ExceptT ε (StateM τ) PUnit}
    {f : PUnit → ExceptT ε (StateM σ) β} {g : PUnit → ExceptT ε (StateM τ) β'}
    (first : T.Repeats x y) (rest : T.Carries val' (f ⟨⟩) (g ⟨⟩)) :
    T.Carries val' (x >>= f) (y >>= g) :=
  bind first fun _ => rest

/-- A check that is made in some cases only. -/
theorem check {c : Prop} [Decidable c] {x y : Except ε PUnit}
    {f : PUnit → ExceptT ε (StateM σ) β} {g : PUnit → ExceptT ε (StateM τ) β'}
    (h : y = carry T.error id x) (rest : T.Carries val' (f ⟨⟩) (g ⟨⟩)) :
    T.Carries val' (if c then liftM x >>= f else f ⟨⟩) (if c then liftM y >>= g else g ⟨⟩) := by
  split_ifs
  · exact seq (lift h) rest
  · exact rest

end Carries

end Transport

/-! ### Builds with other identities -/

/-- The build with other identities, after `m` identities more were drawn. -/
def Build.renumber (ρ : SourceId → SourceId) (m : Nat) (b : Build) : Build :=
  ⟨b.query.renumber ρ, b.ledger.renumber ρ, m + b.drawn⟩

/-- Drawing is carried over to a supply with other identities, of which `m` were drawn before. -/
def drawsRenumbered (ρ : SourceId → SourceId) (m : Nat) : Transport Nat Nat BuildError :=
  ⟨(m + ·), BuildError.renumber ρ⟩

/-- Building is carried over to a supply with other identities, of which `m` were drawn before. -/
def buildsRenumbered (ρ : SourceId → SourceId) (m : Nat) : Transport Build Build BuildError :=
  ⟨Build.renumber ρ m, BuildError.renumber ρ⟩

variable {ρ : SourceId → SourceId} {m : Nat}

namespace Build

theorem carries_modifyQuery {f g : Query → Query}
    (h : ∀ q : Query, (f q).renumber ρ = g (q.renumber ρ)) :
    (buildsRenumbered ρ m).Repeats (modifyQuery f) (modifyQuery g) :=
  .modify fun b => congrArg (fun q => (⟨q, _, _⟩ : Build)) (h b.query).symm

theorem carries_modifyLedger {f g : Ledger → Ledger}
    (h : ∀ l : Ledger, (f l).renumber ρ = g (l.renumber ρ)) :
    (buildsRenumbered ρ m).Repeats (modifyLedger f) (modifyLedger g) :=
  .modify fun b => congrArg (fun l => (⟨_, l, _⟩ : Build)) (h b.ledger).symm

theorem carries_addClause (c : Clause) :
    (buildsRenumbered ρ m).Repeats (addClause c) (addClause (c.renumber ρ)) := by
  refine .bind .get fun b => ?_
  refine .seq (carries_modifyQuery fun q => q.addClause_renumber ρ c) ?_
  exact .pure (b.query.next_renumber ρ)

theorem carries_updateQuery {f g : Query → Except QueryError Query}
    (h : ∀ q : Query, g (q.renumber ρ) = carry (QueryError.renumber ρ) (·.renumber ρ) (f q)) :
    (buildsRenumbered ρ m).Repeats (updateQuery f) (updateQuery g) := by
  refine .bind .get fun b => ?_
  exact .bind (.lift (ofQueryResult_renumber (h b.query))) fun q => carries_modifyQuery fun _ => rfl

theorem carries_record (node : NodeId) (r : NodeRecord) :
    (buildsRenumbered ρ m).Repeats (record node r) (record node (r.renumber ρ)) := by
  refine .bind .get fun b => ?_
  refine .bind (.lift (b.ledger.record_renumber ρ node r)) fun l => ?_
  exact carries_modifyLedger fun _ => rfl

theorem carries_openFrom (o : OpenFrom) :
    (buildsRenumbered ρ m).Repeats (openFrom o) (openFrom o) := by
  refine .bind .get fun b => ?_
  have waiting : ((buildsRenumbered ρ m).state b).ledger.openFrom = b.ledger.openFrom := rfl
  rw [waiting]
  cases b.ledger.openFrom with
  | some previous => exact .seq (carries_modifyLedger fun _ => rfl) (.throw rfl)
  | none => exact carries_modifyLedger fun _ => rfl

theorem carries_takeOpenFrom :
    (buildsRenumbered ρ m).Repeats takeOpenFrom takeOpenFrom := by
  refine .bind .get fun b => ?_
  exact .seq (carries_modifyLedger fun _ => rfl) (.pure rfl)

theorem carries_drawing {val : α → α'} {x : DrawM BuildError α} {y : DrawM BuildError α'}
    (h : (drawsRenumbered ρ m).Carries val x y) :
    (buildsRenumbered ρ m).Carries val (drawing x) (drawing y) := by
  intro b
  have drawn : execute y ((buildsRenumbered ρ m).state b).drawn = _ := h b.drawn
  rw [execute_drawing, execute_drawing, drawn]
  rfl

/-- The end of an operation that adds no clause. -/
theorem carries_modifyLedger_record {f g : Ledger → Ledger} (node : NodeId)
    (h : ∀ l : Ledger, (f l).renumber ρ = g (l.renumber ρ)) :
    (buildsRenumbered ρ m).Repeats (do modifyLedger f; record node {})
      (do modifyLedger g; record node {}) :=
  .seq (carries_modifyLedger h) (carries_record node {})

/-- The end of an operation that adds a clause. -/
theorem carries_addClause_record (c : Clause) (node : NodeId) (item : Option ItemRef) :
    (buildsRenumbered ρ m).Repeats
      (do let position ← addClause c; record node ⟨some position, item⟩)
      (do let position ← addClause (c.renumber ρ)
          record node ⟨some position, item.map (·.renumber ρ)⟩) :=
  .bind (carries_addClause c) fun position => carries_record node ⟨some position, item⟩

end Build

/-! ### Operations of a build -/

variable {ids ids' : Nat → SourceId} (supplied : ∀ k, ids' (m + k) = ρ (ids k))

include supplied in
theorem carries_createSource (item : Param) :
    (drawsRenumbered ρ m).Carries (·.renumber ρ) (createSource ids item)
      (createSource ids' item) := by
  intro k
  show execute _ (m + k) = _
  rw [execute_createSource, execute_createSource]
  split_ifs
  · rfl
  · rw [supplied]
    rfl

namespace Node

theorem fromClause_renumber (s : Source) (e : Expr) :
    fromClause (s.renumber ρ) (e.renumber ρ) = (fromClause s e).renumber ρ := by
  cases e <;> rfl

theorem lastOrderBy?_renumber (q : Query) : lastOrderBy? (q.renumber ρ) = lastOrderBy? q := by
  unfold lastOrderBy?
  rw [q.body_renumber, List.getLast?_map, q.last_renumber]
  cases q.body.getLast? with
  | none => rfl
  | some c => cases c <;> rfl

variable {nested nested' : Nested} {chain : Chain}
  (fixed : ∀ n ∈ chain.nodes, ∀ e ∈ n.operation.expressions, e.Fixed ρ) (n : Node)

include fixed in
/-- A lambda is resolved against the node before, and what follows is carried over. -/
theorem carries_resolved {val : α → α'} (b : Build) {lambda : Lambda} (hb : lambda.body.Fixed ρ)
    {f : NodeId → Expr → BuildM α} {g : NodeId → Expr → BuildM α'}
    (rest : ∀ link e, (buildsRenumbered ρ m).Carries val (f link e) (g link (e.renumber ρ))) :
    (buildsRenumbered ρ m).Carries val
      (do
        let link ← n.link
        let e ← chain.resolveLambda b.ledger link lambda
        f link e)
      (do
        let link ← n.link
        let e ← chain.resolveLambda (b.ledger.renumber ρ) link lambda
        g link e) := by
  refine .bind (.lift (link_renumber ρ n)) fun link => ?_
  refine .bind (.lift (chain.resolveLambda_renumber fixed b.ledger link hb)) fun e => ?_
  exact rest link e

include supplied in
theorem carries_applyMainSource {e : Expr} (he : e.Fixed ρ) :
    (buildsRenumbered ρ m).Repeats (n.applyMainSource ids e)
      (n.applyMainSource ids' e) := by
  refine .bind .get fun b => ?_
  refine .seq (.lift (b.ledger.ensureClause_renumber ρ n.callSite)) ?_
  have items := sourceItemType_renumber ρ e
  rw [he] at items
  refine .bind (.lift items) fun type => ?_
  refine .bind (Build.carries_drawing (carries_createSource supplied _)) fun source => ?_
  have added := Build.carries_addClause (ρ := ρ) (m := m)
    (.fromExpr .additional source e none .main)
  rw [Clause.renumber, he] at added
  refine .bind added fun position => ?_
  exact .seq (Build.carries_openFrom _) (Build.carries_record n.id ⟨some position, some source.ref⟩)

theorem carries_nestedItems {l : Ledger}
    (hn : (drawsRenumbered ρ m).Carries (·.renumber ρ) (nested l.settings (l.depth + 1))
      (nested' l.settings (l.depth + 1))) :
    (drawsRenumbered ρ m).Carries (fun x => (x.1.renumber ρ, x.2)) (nestedItems nested l)
      (nestedItems nested' (l.renumber ρ)) := by
  refine .bind hn fun q => ?_
  rw [q.itemType?_renumber, q.render_renumber]
  cases q.itemType? with
  | some t => exact .pure rfl
  | none => exact .throw rfl

include supplied in
theorem carries_applySubQuerySource
    (hn : ∀ settings depth, (drawsRenumbered ρ m).Carries (·.renumber ρ) (nested settings depth)
      (nested' settings depth)) :
    (buildsRenumbered ρ m).Repeats (n.applySubQuerySource ids nested)
      (n.applySubQuerySource ids' nested') := by
  refine .bind .get fun b => ?_
  refine .seq (.lift (b.ledger.ensureClause_renumber ρ n.callSite)) ?_
  refine .bind (Build.carries_drawing (carries_nestedItems (hn _ _))) fun ⟨q, type⟩ => ?_
  refine .bind (Build.carries_drawing (carries_createSource supplied _)) fun source => ?_
  refine .bind (Build.carries_addClause (.fromQuery source q none .main)) fun position => ?_
  have text : (Expr.subQuery (q.renumber ρ)).render = (Expr.subQuery q).render :=
    (Expr.subQuery q).render_renumber ρ
  rw [text]
  exact .seq (Build.carries_openFrom _) (Build.carries_record n.id ⟨some position, some source.ref⟩)

include supplied fixed in
theorem carries_applySelectMany {collection : Lambda} {result : Option Lambda}
    (hc : collection.body.Fixed ρ) (hr : ∀ selector ∈ result, selector.body.Fixed ρ) :
    (buildsRenumbered ρ m).Repeats (n.applySelectMany ids chain collection result)
      (n.applySelectMany ids' chain collection result) := by
  refine .bind .get fun b => ?_
  refine .seq (.lift (b.ledger.ensureClause_renumber ρ n.callSite)) ?_
  refine .check (b.ledger.ensureProjection_renumber ρ n.callSite false) ?_
  refine n.carries_resolved fixed b hc fun link e => ?_
  rw [e.type_renumber, e.render_renumber]
  cases e.type.element? with
  | none => exact .throw rfl
  | some type =>
    refine .bind (.lift (manyItem_renumber ρ n result type)) fun item => ?_
    refine .bind (Build.carries_drawing (carries_createSource supplied item)) fun source => ?_
    rw [fromClause_renumber]
    simp only [Clause.source?_renumber, source?_fromClause, Option.map_some]
    refine .bind .get fun b₁ => ?_
    -- the position of the clause is recorded before the clause is there
    have next : ((buildsRenumbered ρ m).state b₁).query.next = b₁.query.next :=
      b₁.query.next_renumber ρ
    rw [next]
    refine .seq (Build.carries_record n.id ⟨some b₁.query.next, some source.ref⟩) ?_
    cases result with
    | none =>
      refine .bind (Build.carries_addClause _) fun _ => ?_
      exact Build.carries_openFrom _
    | some selector =>
      refine .bind .get fun b₂ => ?_
      have linked : Except.ok () = carry (BuildError.renumber ρ) (fun u => u) (.ok ()) := rfl
      simp only [asking_eq_lift, resolveResult_lift]
      refine .bind (.lift (Lambda.resolveResult_renumber b₂.ledger n (hr selector rfl) linked
        (chain.resolve_renumber fixed b₂.ledger link))) fun projection => ?_
      rw [Clause.withProjection?_renumber, Option.getD_map]
      refine .bind (Build.carries_addClause _) fun _ => ?_
      exact Build.carries_modifyLedger fun l => l.register_renumber ρ (.select projection)

include fixed in
theorem carries_applyFilter {predicate : Lambda} (hp : predicate.body.Fixed ρ) :
    (buildsRenumbered ρ m).Repeats (n.applyFilter chain predicate)
      (n.applyFilter chain predicate) := by
  refine .bind .get fun b => ?_
  refine .seq (.lift (b.ledger.ensureClause_renumber ρ n.callSite)) ?_
  refine n.carries_resolved fixed b hp fun link e => ?_
  exact Build.carries_addClause_record (.filter e .main) n.id none

include supplied fixed in
theorem carries_applyDefine (name : Param) {value : Lambda} (hv : value.body.Fixed ρ) :
    (buildsRenumbered ρ m).Repeats (n.applyDefine ids chain name value)
      (n.applyDefine ids' chain name value) := by
  refine .bind .get fun b => ?_
  refine .seq (.lift (b.ledger.ensureClause_renumber ρ n.callSite)) ?_
  refine n.carries_resolved fixed b hv fun link e => ?_
  refine .bind (Build.carries_drawing (carries_createSource supplied name)) fun source => ?_
  exact Build.carries_addClause_record (.define source e .main) n.id (some source.ref)

include fixed in
theorem carries_applyOrderBy {key : Lambda} (hk : key.body.Fixed ρ) (direction : Direction)
    (thenBy : Bool) :
    (buildsRenumbered ρ m).Repeats (n.applyOrderBy chain key direction thenBy)
      (n.applyOrderBy chain key direction thenBy) := by
  refine .bind .get fun b => ?_
  refine .seq (.lift (b.ledger.ensureClause_renumber ρ n.callSite)) ?_
  refine n.carries_resolved fixed b hk fun link e => ?_
  refine .bind .get fun b' => ?_
  have last : lastOrderBy? ((buildsRenumbered ρ m).state b').query = lastOrderBy? b'.query :=
    lastOrderBy?_renumber b'.query
  dsimp only
  rw [last]
  split
  · refine .seq (Build.carries_updateQuery fun q => q.addKey_renumber ρ _ ⟨e, direction, none⟩) ?_
    exact Build.carries_record n.id _
  · exact Build.carries_addClause_record (.orderBy [⟨e, direction, none⟩] .main) n.id none

include fixed in
theorem carries_applySelect {selector : Lambda} (hs : selector.body.Fixed ρ) :
    (buildsRenumbered ρ m).Repeats (n.applySelect chain selector)
      (n.applySelect chain selector) := by
  refine .bind .get fun b => ?_
  refine .seq (.lift (b.ledger.ensureProjection_renumber ρ n.callSite _)) ?_
  refine n.carries_resolved fixed b hs fun link e => ?_
  refine .bind Build.carries_takeOpenFrom fun waiting => ?_
  have ending : (buildsRenumbered ρ m).Repeats
      (do Build.modifyLedger (·.register (.select e)); Build.record n.id {})
      (do Build.modifyLedger (·.register (.select (e.renumber ρ))); Build.record n.id {}) :=
    Build.carries_modifyLedger_record n.id fun l => l.register_renumber ρ (.select e)
  cases waiting with
  | none => exact ending
  | some waiting =>
    refine .seq (Build.carries_updateQuery fun q => ?_) ending
    exact q.setProjection_renumber ρ waiting.clause e

include fixed in
theorem carries_applyGroupBy {key : Lambda} {element : Option Lambda} (hk : key.body.Fixed ρ)
    (he : ∀ selector ∈ element, selector.body.Fixed ρ) :
    (buildsRenumbered ρ m).Repeats (n.applyGroupBy chain key element)
      (n.applyGroupBy chain key element) := by
  refine .bind .get fun b => ?_
  refine .seq (.lift (b.ledger.ensureClause_renumber ρ n.callSite)) ?_
  refine .seq (.lift (b.ledger.ensureProjection_renumber ρ n.callSite false)) ?_
  refine n.carries_resolved fixed b hk fun link k => ?_
  refine .bind (.lift (groupElement_renumber fixed b.ledger link key he)) fun e => ?_
  have ending : (buildsRenumbered ρ m).Repeats
      (do Build.modifyLedger (·.register (.group k e)); Build.record n.id {})
      (do Build.modifyLedger (·.register (.group (k.renumber ρ) (e.renumber ρ)))
          Build.record n.id {}) :=
    Build.carries_modifyLedger_record n.id fun l => l.register_renumber ρ (.group k e)
  have waiting : ((buildsRenumbered ρ m).state b).ledger.openFrom = b.ledger.openFrom := rfl
  rw [waiting]
  cases b.ledger.openFrom with
  | some _ => exact .throw rfl
  | none => exact ending

theorem carries_applyCast (kind : CastKind) (type : Ty) :
    (buildsRenumbered ρ m).Repeats (n.applyCast kind type) (n.applyCast kind type) := by
  refine .seq (Build.carries_modifyQuery fun q => q.addOperator_renumber ρ (.cast kind type)) ?_
  cases kind with
  | ofType => exact Build.carries_modifyLedger_record n.id fun _ => rfl
  | cast => exact Build.carries_modifyLedger_record n.id fun _ => rfl

include fixed in
theorem carries_applyResultOperator {op : ResultOp} (ho : ∀ e ∈ op.expressions, e.Fixed ρ) :
    (buildsRenumbered ρ m).Repeats (n.applyResultOperator chain op)
      (n.applyResultOperator chain op) := by
  rw [applyResultOperator]
  split_ifs
  · exact .throw rfl
  · refine .bind (.lift (link_renumber ρ n)) fun link => ?_
    refine .bind .get fun b => ?_
    simp only [asking_eq_lift, replaceM_lift]
    refine .bind (.lift (ResultOp.replaceM_renumber fixed b.ledger link ho)) fun resolved => ?_
    refine .seq (Build.carries_modifyQuery fun q => q.addOperator_renumber ρ resolved) ?_
    exact Build.carries_modifyLedger_record n.id fun _ => rfl

section

variable (own : ∀ e ∈ n.operation.expressions, e.Fixed ρ)
  (hn : ∀ settings depth, (drawsRenumbered ρ m).Carries (·.renumber ρ) (nested settings depth)
    (nested' settings depth))

include supplied own hn

include fixed in
/-- **Applying a node** is carried over to another supply, if computing its nested query is. -/
theorem carries_applyWith :
    (buildsRenumbered ρ m).Repeats (n.applyWith ids nested chain)
      (n.applyWith ids' nested' chain) := by
  refine .bind .get fun b => ?_
  have applied : ((buildsRenumbered ρ m).state b).ledger.isApplied n.id =
      b.ledger.isApplied n.id :=
    b.ledger.isApplied_renumber ρ n.id
  rw [applied]
  dsimp only
  split_ifs
  · exact .throw rfl
  · have option : ∀ {first : Expr} {lambda : Option Lambda} {selector : Lambda},
        selector ∈ lambda → selector.body ∈ first :: (lambda.map Lambda.body).toList :=
      fun hs => List.mem_cons_of_mem _ (Option.mem_toList.mpr (Option.mem_map_of_mem _ hs))
    generalize n.operation = operation at own
    cases operation with
    | mainSource e => exact n.carries_applyMainSource supplied (own e (List.mem_singleton_self e))
    | subQuerySource _ => exact n.carries_applySubQuerySource supplied hn
    | selectMany collection result =>
      exact n.carries_applySelectMany supplied fixed (own collection.body List.mem_cons_self)
        fun selector hs => own selector.body (option hs)
    | filter predicate =>
      exact n.carries_applyFilter fixed (own predicate.body (List.mem_singleton_self _))
    | orderBy key direction thenBy =>
      exact n.carries_applyOrderBy fixed (own key.body (List.mem_singleton_self _)) direction thenBy
    | select selector =>
      exact n.carries_applySelect fixed (own selector.body (List.mem_singleton_self _))
    | define name value =>
      exact n.carries_applyDefine supplied fixed name (own value.body (List.mem_singleton_self _))
    | groupBy key element =>
      exact n.carries_applyGroupBy fixed (own key.body List.mem_cons_self)
        fun selector hs => own selector.body (option hs)
    | cast kind type => exact n.carries_applyCast kind type
    | resultOperator op => exact n.carries_applyResultOperator fixed own

theorem carries_startWith (l : Ledger) :
    (drawsRenumbered ρ m).Carries
      (fun x => (x.1.renumber ρ, x.2.1.renumber ρ, x.2.2.renumber ρ))
      (n.startWith ids nested l) (n.startWith ids' nested' (l.renumber ρ)) := by
  rw [startWith.eq_def, startWith.eq_def]
  generalize n.operation = operation at own
  cases operation with
  | mainSource e =>
    have he : e.Fixed ρ := own e (List.mem_singleton_self e)
    have items := sourceItemType_renumber ρ e
    rw [he] at items
    refine .bind (.lift items) fun type => ?_
    refine .bind (carries_createSource supplied _) fun source => ?_
    refine .bind (.lift (l.record_renumber ρ n.id ⟨some .main, some source.ref⟩)) fun l' => ?_
    exact .pure (by rw [he])
  | subQuerySource _ =>
    refine .bind (carries_nestedItems (hn _ _)) fun ⟨q, type⟩ => ?_
    refine .bind (carries_createSource supplied _) fun source => ?_
    refine .bind (.lift (l.record_renumber ρ n.id ⟨some .main, some source.ref⟩)) fun l' => ?_
    exact .pure rfl
  | _ => exact .throw rfl

end

end Node

end QueryFold
