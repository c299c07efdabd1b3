import QueryFold.Proofs.Chain.Coupling
import QueryFold.Proofs.Chain.Sober
import QueryFold.Proofs.Chain.Step

/-!
# Builds under two limits

The limit on nesting is part of the settings that the ledger of a build carries, but no check
and no resolution looks at it. So applying a node under two limits does the same, as long as
computing its nested query does (`Node.couples_applyWith`).
-/

namespace QueryFold

/-! ### Another limit -/

/-- The settings with another limit. -/
def Settings.limited (limit : UInt32) (s : Settings) : Settings := { s with maxDepth := limit }

/-- The ledger of a build with another limit. -/
def Ledger.limited (limit : UInt32) (l : Ledger) : Ledger :=
  { l with settings := l.settings.limited limit }

/-- The build with another limit. -/
def Build.limited (limit : UInt32) (b : Build) : Build :=
  { b with ledger := b.ledger.limited limit }

theorem Build.ledger_limited (limit : UInt32) (b : Build) :
    (b.limited limit).ledger = b.ledger.limited limit :=
  rfl

theorem Build.query_limited (limit : UInt32) (b : Build) : (b.limited limit).query = b.query :=
  rfl

theorem Ledger.openFrom_limited (limit : UInt32) (l : Ledger) :
    (l.limited limit).openFrom = l.openFrom :=
  rfl

theorem Ledger.projection_limited (limit : UInt32) (l : Ledger) :
    (l.limited limit).projection = l.projection :=
  rfl

section

variable (limit : UInt32) (chain : Chain) (l : Ledger) (id : NodeId)

theorem itemType_limited (route : Route) :
    route.itemType (l.limited limit) = route.itemType l := by
  induction route with
  | via node rest ih => simp only [Route.itemType, ih]; rfl
  | _ => rfl

theorem resolve_limited (route : Route) :
    route.resolve (l.limited limit) = route.resolve l := by
  induction route with
  | via node rest ih =>
    funext p e
    simp only [Route.resolve, ih, itemType_limited]
    rfl
  | _ => rfl

theorem chain_resolve_limited : chain.resolve (l.limited limit) id = chain.resolve l id :=
  resolve_limited limit l (chain.route id)

theorem resolveLambda_limited :
    chain.resolveLambda (l.limited limit) id = chain.resolveLambda l id := by
  funext lambda
  show lambda.resolveBy (chain.resolve (l.limited limit) id) = _
  rw [chain_resolve_limited]
  rfl

theorem groupElement_limited :
    Node.groupElement (m := Id) chain (l.limited limit) id = Node.groupElement chain l id := by
  funext key element
  simp only [Node.groupElement.eq_def, Resolver.resolveLambda_id, Resolver.resolve_id,
    resolveLambda_limited, chain_resolve_limited]

theorem resolveArgument_limited :
    Node.resolveArgument (m := Id) chain (l.limited limit) id =
      Node.resolveArgument chain l id := by
  funext e
  simp only [Node.resolveArgument.eq_def, Resolver.resolveLambda_id, resolveLambda_limited]

end

/-- A change of the ledger that has nothing to do with its settings. -/
structure Ledger.Indifferent (f : Ledger → Ledger) : Prop where
  settings : ∀ l, (f l).settings = l.settings
  depth : ∀ l, (f l).depth = l.depth
  limited : ∀ limit l, f (l.limited limit) = (f l).limited limit

namespace Ledger

theorem indifferent_register (p : Projection) : Indifferent (·.register p) := by
  cases p <;> exact ⟨fun _ => rfl, fun _ => rfl, fun _ _ => rfl⟩

theorem indifferent_openFrom (o : Option OpenFrom) :
    Indifferent fun l => { l with openFrom := o } :=
  ⟨fun _ => rfl, fun _ => rfl, fun _ _ => rfl⟩

theorem indifferent_close : Indifferent close := ⟨fun _ => rfl, fun _ => rfl, fun _ _ => rfl⟩

theorem indifferent_noteCast : Indifferent noteCast :=
  ⟨fun _ => rfl, fun _ => rfl, fun _ _ => rfl⟩

end Ledger

/-! ### Runs under two limits -/

/-- Two runs that draw the same identities. They fail alike, but not for the depth, unless the
first one fails for an error that is excused. -/
def drawsAlike (excused : BuildError → Prop) : Coupling Nat Nat BuildError where
  states k k' := k' = k
  shared := BuildError.Sober
  excused := excused

/-- Two builds at the same depth that differ in the limit only. -/
def buildsAlike (settings : Settings) (depth limit : UInt32) (excused : BuildError → Prop) :
    Coupling Build Build BuildError where
  states b b' := b.ledger.settings = settings ∧ b.ledger.depth = depth ∧ b' = b.limited limit
  shared := BuildError.Sober
  excused := excused

namespace Build

variable {settings : Settings} {depth limit : UInt32} {excused : BuildError → Prop}

theorem couples_modifyQuery (f : Query → Query) :
    (buildsAlike settings depth limit excused).Couples Eq (modifyQuery f) (modifyQuery f) :=
  .modify fun b _ ⟨hs, hd, h⟩ => ⟨hs, hd, by rw [h]; rfl⟩

theorem couples_modifyLedger {f : Ledger → Ledger} (hf : Ledger.Indifferent f) :
    (buildsAlike settings depth limit excused).Couples Eq (modifyLedger f) (modifyLedger f) := by
  refine .modify ?_
  rintro b _ ⟨hs, hd, rfl⟩
  exact ⟨(hf.settings _).trans hs, (hf.depth _).trans hd,
    congrArg (fun l => (⟨b.query, l, b.drawn⟩ : Build)) (hf.limited limit b.ledger)⟩

theorem couples_addClause (c : Clause) :
    (buildsAlike settings depth limit excused).Couples Eq (addClause c) (addClause c) := by
  refine .bind .get ?_
  rintro b _ ⟨-, -, rfl⟩
  exact .bind (couples_modifyQuery _) fun _ _ _ => .pure rfl

theorem couples_updateQuery (f : Query → Except QueryError Query) :
    (buildsAlike settings depth limit excused).Couples Eq (updateQuery f) (updateQuery f) := by
  refine .bind .get ?_
  rintro b _ ⟨-, -, rfl⟩
  refine .bind (.lift (sober_ofQueryResult _)) ?_
  rintro q _ rfl
  exact couples_modifyQuery _

theorem couples_record (id : NodeId) (r : NodeRecord) :
    (buildsAlike settings depth limit excused).Couples Eq (record id r) (record id r) := by
  refine .bind .get ?_
  rintro b _ ⟨hs, hd, rfl⟩
  have recorded : (b.ledger.limited limit).record id r =
      (b.ledger.record id r).map (Ledger.limited limit) := by
    unfold Ledger.record
    show (if b.ledger.isApplied id then _ else _) = _
    split_ifs <;> rfl
  show (buildsAlike settings depth limit excused).Couples Eq _
    (liftM ((b.ledger.limited limit).record id r) >>= fun l => modifyLedger fun _ => l)
  rw [recorded]
  cases h : b.ledger.record id r with
  | error e => exact .throw (sober_record b.ledger id r e h)
  | ok l =>
    obtain ⟨-, rfl⟩ := Ledger.record_eq_ok_iff.mp h
    exact .modify fun b' _ ⟨_, _, h'⟩ => ⟨hs, hd, by rw [h']; rfl⟩

theorem couples_openFrom (o : OpenFrom) :
    (buildsAlike settings depth limit excused).Couples Eq (openFrom o) (openFrom o) := by
  refine .bind .get ?_
  rintro b _ ⟨-, -, rfl⟩
  rw [ledger_limited, Ledger.openFrom_limited]
  split
  · exact .bind (couples_modifyLedger (Ledger.indifferent_openFrom none)) fun _ _ _ =>
      .throw (OpenFrom.sober_error _)
  · exact couples_modifyLedger (Ledger.indifferent_openFrom (some o))

theorem couples_takeOpenFrom :
    (buildsAlike settings depth limit excused).Couples Eq takeOpenFrom takeOpenFrom := by
  refine .bind .get ?_
  rintro b _ ⟨-, -, rfl⟩
  exact .bind (couples_modifyLedger (Ledger.indifferent_openFrom none)) fun _ _ _ => .pure rfl

/-- The end of an operation that adds no clause. -/
theorem couples_modifyLedger_record {f : Ledger → Ledger} (hf : Ledger.Indifferent f) (id : NodeId)
    (r : NodeRecord) :
    (buildsAlike settings depth limit excused).Couples Eq (do modifyLedger f; record id r)
      (do modifyLedger f; record id r) :=
  .bind (couples_modifyLedger hf) fun _ _ _ => couples_record id r

/-- The end of an operation that adds a clause. -/
theorem couples_addClause_record (c : Clause) (id : NodeId) (item : Option ItemRef) :
    (buildsAlike settings depth limit excused).Couples Eq
      (do let position ← addClause c; record id ⟨some position, item⟩)
      (do let position ← addClause c; record id ⟨some position, item⟩) := by
  refine .bind (couples_addClause c) ?_
  rintro position _ rfl
  exact couples_record id _

theorem couples_drawing {α : Type} {x y : DrawM BuildError α}
    (h : (drawsAlike excused).Couples Eq x y) :
    (buildsAlike settings depth limit excused).Couples Eq (drawing x) (drawing y) := by
  rintro b _ ⟨hs, hd, rfl⟩
  have ends := h b.drawn b.drawn rfl
  rw [execute_drawing, execute_drawing, show (b.limited limit).drawn = b.drawn from rfl]
  generalize execute x b.drawn = r, execute y b.drawn = r' at ends ⊢
  cases ends with
  | values related states => exact .values related ⟨hs, hd, by rw [states]; rfl⟩
  | failure shared states => exact .failure shared ⟨hs, hd, by rw [states]; rfl⟩
  | excused h => exact .excused h

end Build

theorem couples_createSource {excused : BuildError → Prop} (ids : Nat → SourceId) (item : Param) :
    (drawsAlike excused).Couples Eq (createSource ids item) (createSource ids item) := by
  rintro k _ rfl
  rw [execute_createSource]
  split_ifs
  · exact .failure (BuildError.sober_query _) rfl
  · exact .values rfl rfl

/-! ### Operations under two limits -/

namespace Node

variable {settings : Settings} {depth limit : UInt32} {excused : BuildError → Prop}
  (ids : Nat → SourceId) (chain : Chain) (n : Node)

/-- A lambda is resolved against the node before, and what follows is the same. -/
theorem couples_resolved {α : Type} (b : Build) (lambda : Lambda) {f g : NodeId → Expr → BuildM α}
    (rest : ∀ link e, (buildsAlike settings depth limit excused).Couples Eq (f link e) (g link e)) :
    (buildsAlike settings depth limit excused).Couples Eq
      (do
        let link ← n.link
        let e ← chain.resolveLambda b.ledger link lambda
        f link e)
      (do
        let link ← n.link
        let e ← chain.resolveLambda (b.limited limit).ledger link lambda
        g link e) := by
  refine .bind (.lift (sober_link n)) ?_
  rintro link _ rfl
  rw [Build.ledger_limited, resolveLambda_limited]
  refine .bind (.lift (sober_resolveLambda chain b.ledger link)) ?_
  rintro e _ rfl
  exact rest link e

theorem couples_applyMainSource (e : Expr) :
    (buildsAlike settings depth limit excused).Couples Eq (n.applyMainSource ids e)
      (n.applyMainSource ids e) := by
  refine .bind .get ?_
  rintro b _ ⟨-, -, rfl⟩
  refine .bind (.lift (sober_ensureClause b.ledger n.callSite)) ?_
  rintro _ _ -
  refine .bind (.lift (sober_sourceItemType e)) ?_
  rintro type _ rfl
  refine .bind (Build.couples_drawing (couples_createSource ids _)) ?_
  rintro source _ rfl
  refine .bind (Build.couples_addClause _) ?_
  rintro position _ rfl
  exact .bind (Build.couples_openFrom _) fun _ _ _ => Build.couples_record _ _

theorem couples_nestedItems {nested : Nested} {l : Ledger}
    (hn : (drawsAlike excused).Couples Eq (nested l.settings (l.depth + 1))
      (nested (l.settings.limited limit) (l.depth + 1))) :
    (drawsAlike excused).Couples Eq (nestedItems nested l)
      (nestedItems nested (l.limited limit)) := by
  refine .bind hn ?_
  rintro q _ rfl
  cases q.itemType? with
  | some t => exact .pure rfl
  | none => exact .throw (BuildError.sober_misuse _)

theorem couples_applySubQuerySource {nested : Nested}
    (hn : (drawsAlike excused).Couples Eq (nested settings (depth + 1))
      (nested (settings.limited limit) (depth + 1))) :
    (buildsAlike settings depth limit excused).Couples Eq (n.applySubQuerySource ids nested)
      (n.applySubQuerySource ids nested) := by
  refine .bind .get ?_
  rintro b _ ⟨rfl, rfl, rfl⟩
  refine .bind (.lift (sober_ensureClause b.ledger n.callSite)) ?_
  rintro _ _ -
  refine .bind (Build.couples_drawing (couples_nestedItems hn)) ?_
  rintro ⟨q, type⟩ _ rfl
  refine .bind (Build.couples_drawing (couples_createSource ids _)) ?_
  rintro source _ rfl
  refine .bind (Build.couples_addClause _) ?_
  rintro position _ rfl
  exact .bind (Build.couples_openFrom _) fun _ _ _ => Build.couples_record _ _

theorem couples_applySelectMany (collection : Lambda) (result : Option Lambda) :
    (buildsAlike settings depth limit excused).Couples Eq
      (n.applySelectMany ids chain collection result)
      (n.applySelectMany ids chain collection result) := by
  refine .bind .get ?_
  rintro b _ ⟨-, -, rfl⟩
  refine .bind (.lift (sober_ensureClause b.ledger n.callSite)) ?_
  rintro _ _ -
  refine .check (sober_ensureProjection b.ledger n.callSite false) fun _ => ?_
  refine n.couples_resolved chain b _ fun link e => ?_
  cases e.type.element? with
  | none => exact .throw (BuildError.sober_misuse _)
  | some type =>
    refine .bind (.lift (sober_manyItem n result type)) ?_
    rintro item _ rfl
    refine .bind (Build.couples_drawing (couples_createSource ids item)) ?_
    rintro source _ rfl
    simp only [source?_fromClause]
    refine .bind .get ?_
    rintro b₁ _ ⟨-, -, rfl⟩
    refine .bind (Build.couples_record _ _) ?_
    rintro _ _ -
    cases result with
    | none => exact .bind (Build.couples_addClause _) fun _ _ _ => Build.couples_openFrom _
    | some selector =>
      refine .bind .get ?_
      rintro b₂ _ ⟨-, -, rfl⟩
      rw [Build.ledger_limited, Resolver.resolve_id, chain_resolve_limited]
      simp only [asking_eq_lift, resolveResult_lift]
      refine .bind (.lift (sober_resolveResult b₂.ledger n (sober_ok ())
        fun p e => sober_resolve b₂.ledger (chain.route link) p e)) ?_
      rintro projection _ rfl
      exact .bind (Build.couples_addClause _) fun _ _ _ =>
        Build.couples_modifyLedger (Ledger.indifferent_register (.select projection))

theorem couples_applyFilter (predicate : Lambda) :
    (buildsAlike settings depth limit excused).Couples Eq (n.applyFilter chain predicate)
      (n.applyFilter chain predicate) := by
  refine .bind .get ?_
  rintro b _ ⟨-, -, rfl⟩
  refine .bind (.lift (sober_ensureClause b.ledger n.callSite)) ?_
  rintro _ _ -
  refine n.couples_resolved chain b _ fun link e => ?_
  exact Build.couples_addClause_record _ _ _

theorem couples_applyDefine (name : Param) (value : Lambda) :
    (buildsAlike settings depth limit excused).Couples Eq (n.applyDefine ids chain name value)
      (n.applyDefine ids chain name value) := by
  refine .bind .get ?_
  rintro b _ ⟨-, -, rfl⟩
  refine .bind (.lift (sober_ensureClause b.ledger n.callSite)) ?_
  rintro _ _ -
  refine n.couples_resolved chain b _ fun link e => ?_
  refine .bind (Build.couples_drawing (couples_createSource ids name)) ?_
  rintro source _ rfl
  exact Build.couples_addClause_record _ _ _

theorem couples_applyOrderBy (key : Lambda) (direction : Direction) (thenBy : Bool) :
    (buildsAlike settings depth limit excused).Couples Eq
      (n.applyOrderBy chain key direction thenBy)
      (n.applyOrderBy chain key direction thenBy) := by
  refine .bind .get ?_
  rintro b _ ⟨-, -, rfl⟩
  refine .bind (.lift (sober_ensureClause b.ledger n.callSite)) ?_
  rintro _ _ -
  refine n.couples_resolved chain b _ fun link e => ?_
  refine .bind .get ?_
  rintro b' _ ⟨-, -, rfl⟩
  rw [Build.query_limited]
  dsimp only
  split
  · exact .bind (Build.couples_updateQuery _) fun _ _ _ => Build.couples_record _ _
  · exact Build.couples_addClause_record _ _ _

theorem couples_applySelect (selector : Lambda) :
    (buildsAlike settings depth limit excused).Couples Eq (n.applySelect chain selector)
      (n.applySelect chain selector) := by
  refine .bind .get ?_
  rintro b _ ⟨-, -, rfl⟩
  refine .bind (.lift (sober_ensureProjection b.ledger n.callSite _)) ?_
  rintro _ _ -
  refine n.couples_resolved chain b _ fun link e => ?_
  refine .bind Build.couples_takeOpenFrom ?_
  rintro waiting _ rfl
  have ending : (buildsAlike settings depth limit excused).Couples Eq
      (do Build.modifyLedger (·.register (.select e)); Build.record n.id {})
      (do Build.modifyLedger (·.register (.select e)); Build.record n.id {}) :=
    Build.couples_modifyLedger_record (Ledger.indifferent_register (.select e)) n.id {}
  cases waiting with
  | none => exact ending
  | some waiting => exact .bind (Build.couples_updateQuery _) fun _ _ _ => ending

theorem couples_applyGroupBy (key : Lambda) (element : Option Lambda) :
    (buildsAlike settings depth limit excused).Couples Eq (n.applyGroupBy chain key element)
      (n.applyGroupBy chain key element) := by
  refine .bind .get ?_
  rintro b _ ⟨-, -, rfl⟩
  refine .bind (.lift (sober_ensureClause b.ledger n.callSite)) ?_
  rintro _ _ -
  refine .bind (.lift (sober_ensureProjection b.ledger n.callSite false)) ?_
  rintro _ _ -
  refine n.couples_resolved chain b key fun link k => ?_
  rw [Build.ledger_limited, groupElement_limited]
  refine .bind (.lift (sober_groupElement chain b.ledger link key element)) ?_
  rintro e _ rfl
  rw [Ledger.openFrom_limited]
  split
  · exact .throw (OpenFrom.sober_error _)
  · exact Build.couples_modifyLedger_record (Ledger.indifferent_register (.group k e)) n.id {}

theorem couples_applyCast (kind : CastKind) (type : Ty) :
    (buildsAlike settings depth limit excused).Couples Eq (n.applyCast kind type)
      (n.applyCast kind type) := by
  refine .bind (Build.couples_modifyQuery _) ?_
  rintro _ _ -
  cases kind with
  | ofType => exact Build.couples_modifyLedger_record Ledger.indifferent_close n.id {}
  | cast => exact Build.couples_modifyLedger_record Ledger.indifferent_noteCast n.id {}

theorem couples_applyResultOperator (op : ResultOp) :
    (buildsAlike settings depth limit excused).Couples Eq (n.applyResultOperator chain op)
      (n.applyResultOperator chain op) := by
  rw [applyResultOperator]
  split_ifs
  · exact .throw (BuildError.sober_misuse _)
  · refine .bind (.lift (sober_link n)) ?_
    rintro link _ rfl
    refine .bind .get ?_
    rintro b _ ⟨-, -, rfl⟩
    simp only [Build.ledger_limited, resolveArgument_limited, asking_eq_lift, replaceM_lift]
    refine .bind (.lift (sober_replaceM (sober_resolveArgument chain b.ledger link) op)) ?_
    rintro resolved _ rfl
    refine .bind (Build.couples_modifyQuery _) ?_
    rintro _ _ -
    exact Build.couples_modifyLedger_record Ledger.indifferent_close n.id {}

/-- **Applying a node** does the same under two limits, if computing its nested query does. -/
theorem couples_applyWith {nested : Nested}
    (hn : (drawsAlike excused).Couples Eq (nested settings (depth + 1))
      (nested (settings.limited limit) (depth + 1))) :
    (buildsAlike settings depth limit excused).Couples Eq (n.applyWith ids nested chain)
      (n.applyWith ids nested chain) := by
  refine .bind .get ?_
  rintro b _ ⟨-, -, rfl⟩
  show (buildsAlike settings depth limit excused).Couples Eq
    (if b.ledger.isApplied n.id then throw _ else _)
    (if b.ledger.isApplied n.id then throw _ else _)
  split_ifs
  · exact .throw (BuildError.sober_misuse _)
  · cases n.operation with
    | mainSource e => exact n.couples_applyMainSource ids e
    | subQuerySource _ => exact n.couples_applySubQuerySource ids hn
    | selectMany collection result => exact n.couples_applySelectMany ids chain collection result
    | filter predicate => exact n.couples_applyFilter chain predicate
    | orderBy key direction thenBy => exact n.couples_applyOrderBy chain key direction thenBy
    | select selector => exact n.couples_applySelect chain selector
    | define name value => exact n.couples_applyDefine ids chain name value
    | groupBy key element => exact n.couples_applyGroupBy chain key element
    | cast kind type => exact n.couples_applyCast kind type
    | resultOperator op => exact n.couples_applyResultOperator chain op

theorem couples_startWith {nested : Nested}
    (hn : (drawsAlike excused).Couples Eq (nested settings (depth + 1))
      (nested (settings.limited limit) (depth + 1))) :
    (drawsAlike excused).Couples
      (fun x y => x.2.2.settings = settings ∧ x.2.2.depth = depth ∧
        y = (x.1, x.2.1, x.2.2.limited limit))
      (n.startWith ids nested (.start settings depth))
      (n.startWith ids nested (.start (settings.limited limit) depth)) := by
  rw [startWith.eq_def, startWith.eq_def]
  cases n.operation with
  | mainSource e =>
    refine .bind (.lift (sober_sourceItemType e)) ?_
    rintro type _ rfl
    refine .bind (couples_createSource ids _) ?_
    rintro source _ rfl
    exact .pure ⟨rfl, rfl, rfl⟩
  | subQuerySource _ =>
    refine .bind (couples_nestedItems hn) ?_
    rintro ⟨q, type⟩ _ rfl
    refine .bind (couples_createSource ids _) ?_
    rintro source _ rfl
    exact .pure ⟨rfl, rfl, rfl⟩
  | _ => exact .throw (BuildError.sober_misuse _)

end Node

end QueryFold
