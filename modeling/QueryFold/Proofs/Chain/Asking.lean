import QueryFold.Proofs.Chain.Built
import QueryFold.Proofs.Chain.Recursion

/-!
# Builds that ask

A build is the same in every monad that can be asked to check links and to resolve expressions.
Made in `Calls`, it shows what it asks, whatever the answers are. With the answers of resolution it
is the build in `Id` (`Chain.shows_build`).

It asks about a chain only after the links of that chain were checked. Each operation is taken by
itself: if the links of its chain were checked before, whatever it asks is guarded.
-/

namespace QueryFold

/-- The chain `inner` is the chain itself or is nested in it, however deeply. -/
inductive Chain.Within (inner : Chain) : Chain → Prop where
  /-- The chain itself. -/
  | self : Within inner inner
  /-- In a chain that is the source of a node. -/
  | nested {chain c : Chain} (hn : chain.Nests c) (h : Within inner c) : Within inner chain

variable {σ : Type} {own : Chain → Prop} {checked : List Chain} {ids : Nat → SourceId}
  {chain : Chain}

/-! ### Steps that ask nothing -/

theorem shows_drawing {α : Type} {x : AskingM Nat α} {y : DrawM BuildError α}
    (h : Shows own checked x y) : Shows own checked (drawing x) (drawing y) where
  guarded b := (h.guarded b.drawn).bind fun _ => trivial
  answered b := by
    rw [execute_drawing, ← h.answered]
    exact Calls.answered_bind

theorem shows_createSource (item : Param) :
    Shows own checked (createSource ids item) (createSource ids item) := by
  unfold createSource Source.create
  split_ifs <;> exact ⟨fun _ => trivial, fun _ => rfl⟩

theorem shows_newSource (item : Param) :
    Shows own checked (drawing (createSource ids item)) (drawing (createSource ids item)) :=
  shows_drawing (shows_createSource item)

theorem shows_nestedItems {nested : Nested Calls} {nested' : Nested} {l : Ledger}
    (h : Shows own checked (nested l.settings (l.depth + 1)) (nested' l.settings (l.depth + 1))) :
    Shows own checked (nestedItems nested l) (nestedItems nested' l) := by
  refine .bind h fun q => ?_
  cases q.itemType? with
  | some t => exact .pure _
  | none => exact .throw _

namespace Build

theorem shows_modifyQuery (f : Query → Query) :
    Shows own checked (modifyQuery f) (modifyQuery f) :=
  .modify _

theorem shows_modifyLedger (f : Ledger → Ledger) :
    Shows own checked (modifyLedger f) (modifyLedger f) :=
  .modify _

theorem shows_addClause (c : Clause) : Shows own checked (addClause c) (addClause c) :=
  .bind .get fun _ => .bind (shows_modifyQuery _) fun _ => .pure _

theorem shows_updateQuery (f : Query → Except QueryError Query) :
    Shows own checked (updateQuery f) (updateQuery f) :=
  .bind .get fun _ => .bind (.lift _) fun _ => shows_modifyQuery _

theorem shows_record (id : NodeId) (r : NodeRecord) :
    Shows own checked (record id r) (record id r) :=
  .bind .get fun _ => .bind (.lift _) fun _ => shows_modifyLedger _

theorem shows_openFrom (o : OpenFrom) : Shows own checked (openFrom o) (openFrom o) := by
  refine .bind .get fun b => ?_
  cases b.ledger.openFrom with
  | some previous => exact .bind (shows_modifyLedger _) fun _ => .throw _
  | none => exact shows_modifyLedger _

theorem shows_takeOpenFrom : Shows own checked takeOpenFrom takeOpenFrom :=
  .bind .get fun _ => .bind (shows_modifyLedger _) fun _ => .pure _

end Build

/-! ### Steps that ask -/

section

variable (mem : chain ∈ checked) (l : Ledger) (id : NodeId)

include mem

theorem shows_resolve (p : Param) (e : Expr) :
    Shows own checked (asking (Resolver.resolve chain l id p e) : AskingM σ Expr)
      (asking (Resolver.resolve chain l id p e)) :=
  .asks (.ask mem)

theorem shows_resolveLambda (lambda : Lambda) :
    Shows own checked (asking (Resolver.resolveLambda chain l id lambda) : AskingM σ Expr)
      (asking (Resolver.resolveLambda chain l id lambda)) :=
  .asks (.ask mem)

end

namespace Node

variable (n : Node)

theorem shows_applyMainSource (e : Expr) :
    Shows own checked (n.applyMainSource ids e) (n.applyMainSource ids e) := by
  refine .bind .get fun b => .bind (.lift _) fun _ => .bind (.lift _) fun type => ?_
  refine .bind (shows_newSource _) fun source => .bind (Build.shows_addClause _) fun _ => ?_
  exact .bind (Build.shows_openFrom _) fun _ => Build.shows_record _ _

theorem shows_applySubQuerySource {nested : Nested Calls} {nested' : Nested}
    (h : ∀ settings depth, Shows own checked (nested settings depth) (nested' settings depth)) :
    Shows own checked (n.applySubQuerySource ids nested) (n.applySubQuerySource ids nested') := by
  refine .bind .get fun b => .bind (.lift _) fun _ => ?_
  refine .bind (shows_drawing (shows_nestedItems (h _ _))) ?_
  rintro ⟨q, type⟩
  refine .bind (shows_newSource _) fun source => .bind (Build.shows_addClause _) fun _ => ?_
  exact .bind (Build.shows_openFrom _) fun _ => Build.shows_record _ _

theorem shows_resolveResult (mem : chain ∈ checked) (l : Ledger) (link : NodeId)
    (selector : Lambda) :
    Shows own checked
      (selector.resolveResult l n (pure ()) fun p e =>
        asking (Resolver.resolve chain l link p e) : AskingM σ Expr)
      (selector.resolveResult l n (pure ()) fun p e =>
        asking (Resolver.resolve chain l link p e)) := by
  refine .bind (.lift _) ?_
  rintro ⟨outer, inner⟩
  refine .bind (.lift _) fun item => .bind (.pure ()) fun _ => ?_
  exact .bind (shows_resolve mem l link _ _) fun e => .bind (.lift _) fun _ => .pure _

theorem shows_applySelectMany (mem : chain ∈ checked) (collection : Lambda)
    (result : Option Lambda) :
    Shows own checked (n.applySelectMany ids chain collection result)
      (n.applySelectMany ids chain collection result) := by
  refine .bind .get fun b => .bind (.lift _) fun _ => .check ?_
  refine .bind (.lift _) fun link => ?_
  refine .bind (shows_resolveLambda mem b.ledger link _) fun e => ?_
  cases e.type.element? with
  | none => exact .throw _
  | some element =>
    refine .bind (.lift _) fun item => .bind (shows_newSource item) fun source => ?_
    simp only [source?_fromClause]
    refine .bind .get fun _ => .bind (Build.shows_record _ _) fun _ => ?_
    cases result with
    | none => exact .bind (Build.shows_addClause _) fun _ => Build.shows_openFrom _
    | some selector =>
      refine .bind .get fun b' => ?_
      refine .bind (n.shows_resolveResult mem b'.ledger link selector) fun _ => ?_
      exact .bind (Build.shows_addClause _) fun _ => Build.shows_modifyLedger _

theorem shows_applyFilter (mem : chain ∈ checked) (predicate : Lambda) :
    Shows own checked (n.applyFilter chain predicate) (n.applyFilter chain predicate) := by
  refine .bind .get fun b => .bind (.lift _) fun _ => .bind (.lift _) fun link => ?_
  refine .bind (shows_resolveLambda mem b.ledger link _) fun e => ?_
  exact .bind (Build.shows_addClause _) fun _ => Build.shows_record _ _

theorem shows_applyDefine (mem : chain ∈ checked) (name : Param) (value : Lambda) :
    Shows own checked (n.applyDefine ids chain name value)
      (n.applyDefine ids chain name value) := by
  refine .bind .get fun b => .bind (.lift _) fun _ => .bind (.lift _) fun link => ?_
  refine .bind (shows_resolveLambda mem b.ledger link _) fun e => ?_
  refine .bind (shows_newSource name) fun source => ?_
  exact .bind (Build.shows_addClause _) fun _ => Build.shows_record _ _

theorem shows_applyOrderBy (mem : chain ∈ checked) (key : Lambda) (direction : Direction)
    (thenBy : Bool) :
    Shows own checked (n.applyOrderBy chain key direction thenBy)
      (n.applyOrderBy chain key direction thenBy) := by
  refine .bind .get fun b => .bind (.lift _) fun _ => .bind (.lift _) fun link => ?_
  refine .bind (shows_resolveLambda mem b.ledger link _) fun e => .bind .get fun b' => ?_
  dsimp only
  cases (if thenBy = true then lastOrderBy? b'.query else none) with
  | some position => exact .bind (Build.shows_updateQuery _) fun _ => Build.shows_record _ _
  | none => exact .bind (Build.shows_addClause _) fun _ => Build.shows_record _ _

theorem shows_applySelect (mem : chain ∈ checked) (selector : Lambda) :
    Shows own checked (n.applySelect chain selector) (n.applySelect chain selector) := by
  refine .bind .get fun b => .bind (.lift _) fun _ => .bind (.lift _) fun link => ?_
  refine .bind (shows_resolveLambda mem b.ledger link _) fun e => ?_
  refine .bind Build.shows_takeOpenFrom fun waiting => ?_
  have registers : Shows own checked
      (do Build.modifyLedger (·.register (.select e)); Build.record n.id {})
      (do Build.modifyLedger (·.register (.select e)); Build.record n.id {}) :=
    .bind (Build.shows_modifyLedger _) fun _ => Build.shows_record _ _
  cases waiting with
  | some waiting => exact .bind (Build.shows_updateQuery _) fun _ => registers
  | none => exact registers

theorem shows_groupElement (mem : chain ∈ checked) (l : Ledger) (link : NodeId) (key : Lambda)
    (element : Option Lambda) :
    Shows own checked (asking (groupElement chain l link key element) : AskingM σ Expr)
      (asking (groupElement chain l link key element)) := by
  cases element with
  | some selector => exact shows_resolveLambda mem l link selector
  | none =>
    rw [groupElement.eq_def, groupElement.eq_def]
    cases key.single? with
    | some p => exact shows_resolve mem l link p _
    | none => exact .throw _

theorem shows_applyGroupBy (mem : chain ∈ checked) (key : Lambda) (element : Option Lambda) :
    Shows own checked (n.applyGroupBy chain key element) (n.applyGroupBy chain key element) := by
  refine .bind .get fun b => .bind (.lift _) fun _ => .bind (.lift _) fun _ => ?_
  refine .bind (.lift _) fun link => .bind (shows_resolveLambda mem b.ledger link _) fun k => ?_
  refine .bind (shows_groupElement mem b.ledger link key element) fun e => ?_
  cases b.ledger.openFrom with
  | some waiting => exact .throw _
  | none => exact .bind (Build.shows_modifyLedger _) fun _ => Build.shows_record _ _

theorem shows_applyCast (kind : CastKind) (type : Ty) :
    Shows own checked (n.applyCast kind type) (n.applyCast kind type) := by
  refine .bind (Build.shows_modifyQuery _) fun _ => ?_
  cases kind <;> exact .bind (Build.shows_modifyLedger _) fun _ => Build.shows_record _ _

theorem shows_resolveArgument (mem : chain ∈ checked) (l : Ledger) (link : NodeId) (e : Expr) :
    Shows own checked (asking (resolveArgument chain l link e) : AskingM σ Expr)
      (asking (resolveArgument chain l link e)) := by
  unfold resolveArgument
  split
  · exact shows_resolveLambda mem l link _
  · exact .pure _

theorem shows_replaceM {f : Expr → AskingM σ Expr}
    {g : Expr → ExceptT BuildError (StateM σ) Expr} (h : ∀ e, Shows own checked (f e) (g e))
    (op : ResultOp) : Shows own checked (op.replaceM f) (op.replaceM g) := by
  cases op with
  | argument o e => exact .bind (h e) fun _ => .pure _
  | _ => exact .pure _

theorem shows_applyResultOperator (mem : chain ∈ checked) (op : ResultOp) :
    Shows own checked (n.applyResultOperator chain op) (n.applyResultOperator chain op) := by
  rw [applyResultOperator, applyResultOperator]
  split_ifs
  · exact .throw _
  · refine .bind (.lift _) fun link => .bind .get fun b => ?_
    refine .bind (shows_replaceM (shows_resolveArgument mem b.ledger link) op) ?_
    refine fun _ => .bind (Build.shows_modifyQuery _) fun _ => ?_
    exact .bind (Build.shows_modifyLedger _) fun _ => Build.shows_record _ _

/-- **Applying a node** to a build asks only about the chain of the node, apart from what the nested
query asks. -/
theorem shows_apply (mem : chain ∈ checked) {nested : Nested Calls} {nested' : Nested}
    (h : ∀ settings depth, Shows own checked (nested settings depth) (nested' settings depth)) :
    Shows own checked (n.applyWith ids nested chain) (n.applyWith ids nested' chain) := by
  refine .bind .get fun b => ?_
  split_ifs
  · exact .throw _
  · cases n.operation with
    | mainSource e => exact n.shows_applyMainSource e
    | subQuerySource _ => exact n.shows_applySubQuerySource h
    | selectMany collection result => exact n.shows_applySelectMany mem collection result
    | filter predicate => exact n.shows_applyFilter mem predicate
    | orderBy key direction thenBy => exact n.shows_applyOrderBy mem key direction thenBy
    | select selector => exact n.shows_applySelect mem selector
    | define name value => exact n.shows_applyDefine mem name value
    | groupBy key element => exact n.shows_applyGroupBy mem key element
    | cast kind type => exact n.shows_applyCast kind type
    | resultOperator op => exact n.shows_applyResultOperator mem op

theorem shows_start {nested : Nested Calls} {nested' : Nested}
    (h : ∀ settings depth, Shows own checked (nested settings depth) (nested' settings depth))
    (l : Ledger) : Shows own checked (n.startWith ids nested l) (n.startWith ids nested' l) := by
  rw [startWith, startWith]
  cases n.operation with
  | mainSource e =>
    refine .bind (.lift _) fun type => .bind (shows_createSource _) fun source => ?_
    exact .bind (.lift _) fun _ => .pure _
  | subQuerySource _ =>
    refine .bind (shows_nestedItems (h _ _)) ?_
    rintro ⟨q, type⟩
    exact .bind (shows_createSource _) fun source => .bind (.lift _) fun _ => .pure _
  | _ => exact .throw _

end Node

/-! ### Whole builds -/

theorem Build.shows_complete {x : BuildT Calls Unit} {y : BuildM Unit}
    (h : Shows own checked x y) (q : Query) (l : Ledger) :
    Shows own checked (complete x q l) (complete y q l) where
  guarded drawn := (h.guarded ⟨q, l, drawn⟩).bind fun _ => trivial
  answered drawn := by
    rw [execute_complete, ← h.answered]
    exact Calls.answered_bind

theorem shows_applyNodes (mem : chain ∈ checked) {ns : List Node}
    (h : ∀ n ∈ ns, ∀ settings depth, Shows own checked (n.nested ids settings depth)
      (n.nested ids settings depth)) :
    Shows own checked (applyNodes ids chain ns) (applyNodes ids chain ns) := by
  induction ns with
  | nil => exact .pure _
  | cons n ns ih =>
    rw [List.forall_mem_cons] at h
    exact .bind (n.shows_apply mem h.1) fun _ => ih h.2

/-- **Building a chain** asks about the chain only after its links were checked, and about the
chains nested there only after theirs were. -/
theorem Chain.shows_build (chain : Chain) (settings : Settings) (depth : UInt32)
    (all : ∀ inner : Chain, inner.Within chain → own inner) :
    Shows own checked (chain.build ids settings depth) (chain.build ids settings depth) := by
  induction chain using Chain.induction generalizing checked settings depth with
  | step chain ih =>
    have nested : ∀ checked : List Chain, ∀ n ∈ chain.nodes, ∀ settings depth,
        Shows own checked (n.nested ids settings depth) (n.nested ids settings depth) := by
      rintro checked ⟨_, _, _, _, operation⟩ hn settings depth
      cases operation with
      | subQuerySource inner =>
        have nests : chain.Nests inner := ⟨_, hn, rfl⟩
        refine .bind (ih inner nests settings depth fun c h => ?_) fun _ => .pure _
        exact all c (.nested nests h)
      | _ => exact .throw _
    have mine := all chain .self
    obtain ⟨nodes, resultType⟩ := chain
    rw [Chain.build.eq_def, Chain.build.eq_def]
    split_ifs
    · exact .throw _
    cases nodes with
    | nil => exact .throw _
    | cons first rest =>
      have nested := nested (⟨first :: rest, resultType⟩ :: checked)
      rw [List.forall_mem_cons] at nested
      refine .checking mine ?_
      refine .bind (first.shows_start nested.1 _) ?_
      rintro ⟨source, generator, l⟩
      exact Build.shows_complete (shows_applyNodes List.mem_cons_self nested.2) _ _

end QueryFold
