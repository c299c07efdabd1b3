import QueryFold.Proofs.Chain.Run
import Mathlib.Tactic.SplitIfs

/-!
# What applying a node does

`Node.Step` says for each operation when a node can be applied to a build and what the build
is afterwards; `Node.applyWith_runs_iff` says that this is what applying a node is. The runs
of whole chains follow: `NodeSteps` for several nodes, `Chain.Built` for a chain. Everything
that is shown of builds is shown by cases on these relations.
-/

namespace QueryFold

/-! ### Identities -/

@[simp] theorem runs_draw {ε : Type} {ids : Nat → SourceId} {k k' : Nat} {id : SourceId} :
    Runs (SourceId.draw ids : DrawM ε SourceId) k id k' ↔ id = ids k ∧ k' = k + 1 := by
  simp [SourceId.draw]
  grind

theorem execute_createSource (ids : Nat → SourceId) (item : Param) (k : Nat) :
    execute (createSource ids item) k =
      if item.name = "" then (.error (.query .emptyItemName), k)
      else (.ok ⟨ids k, item⟩, k + 1) := by
  unfold createSource Source.create
  split_ifs <;> rfl

/-- A source is created for every item with a name, and has the next identity. -/
@[simp] theorem runs_createSource {ids : Nat → SourceId} {item : Param} {k k' : Nat} {s : Source} :
    Runs (createSource ids item) k s k' ↔
      item.name ≠ "" ∧ s = ⟨ids k, item⟩ ∧ k' = k + 1 := by
  rw [Runs, execute_createSource]
  split_ifs with h <;> simp [h, eq_comm]

@[simp] theorem sourceItemType_eq_ok_iff {e : Expr} {t : Ty} :
    sourceItemType e = .ok t ↔ e.type.element? = some t := by
  unfold sourceItemType
  cases e.type.element? <;> simp

/-- A nested query has an item type. -/
@[simp] theorem runs_nestedItems {nested : Nested} {l : Ledger} {k k' : Nat} {q : Query} {t : Ty} :
    Runs (nestedItems nested l) k (q, t) k' ↔
      Runs (nested l.settings (l.depth + 1)) k q k' ∧ q.itemType? = some t := by
  simp only [nestedItems, runs_bind]
  constructor
  · rintro ⟨q', k₁, hq, h⟩
    cases ht : q'.itemType? with
    | none => simp [ht] at h
    | some t' =>
      simp only [ht, runs_pure, Prod.mk.injEq] at h
      obtain ⟨⟨rfl, rfl⟩, rfl⟩ := h
      exact ⟨hq, ht⟩
  · rintro ⟨hq, ht⟩
    exact ⟨q, k', hq, by simp [ht]⟩

/-! ### Changes of a build -/

@[simp] theorem ofQueryResult_eq_ok_iff {α : Type} {x : Except QueryError α} {a : α} :
    ofQueryResult x = .ok a ↔ x = .ok a := by
  cases x <;> simp [ofQueryResult]

namespace Ledger

/-- The ledger with a further record. -/
def noted (l : Ledger) (id : NodeId) (r : NodeRecord) : Ledger :=
  { l with records := l.records ++ [(id, r)] }

theorem record_eq_ok_iff {l l' : Ledger} {id : NodeId} {r : NodeRecord} :
    l.record id r = .ok l' ↔ l.record? id = none ∧ l' = l.noted id r := by
  unfold record isApplied noted
  cases l.record? id <;> simp [eq_comm]

end Ledger

namespace Build

/-- The build with a further clause from the node `n`, when `drawn` identities are drawn. -/
def added (b : Build) (n : Node) (c : Clause) (drawn : Nat) : Build :=
  ⟨b.query.addClause c, b.ledger.noted n.id ⟨some b.query.next, c.source?.map Source.ref⟩, drawn⟩

/-- The build in which the from clause `o` waits for its projection. -/
def awaiting (b : Build) (o : OpenFrom) : Build :=
  { b with ledger := { b.ledger with openFrom := some o } }

/-- The build with a projection registered. -/
def registering (b : Build) (p : Projection) : Build := { b with ledger := b.ledger.register p }

theorem added_of_source {b : Build} {n : Node} {c : Clause} {drawn : Nat} {s : Source}
    (h : c.source? = some s) :
    b.added n c drawn =
      ⟨b.query.addClause c, b.ledger.noted n.id ⟨some b.query.next, some s.ref⟩, drawn⟩ := by
  rw [added, h]
  rfl

@[simp] theorem runs_modifyQuery {f : Query → Query} {b b' : Build} {u : Unit} :
    Runs (modifyQuery f) b u b' ↔ b' = { b with query := f b.query } :=
  runs_modify

@[simp] theorem runs_modifyLedger {f : Ledger → Ledger} {b b' : Build} {u : Unit} :
    Runs (modifyLedger f) b u b' ↔ b' = { b with ledger := f b.ledger } :=
  runs_modify

@[simp] theorem runs_addClause {c : Clause} {b b' : Build} {p : Position} :
    Runs (addClause c) b p b' ↔ p = b.query.next ∧ b' = { b with query := b.query.addClause c } := by
  simp [addClause]
  grind

@[simp] theorem runs_updateQuery {f : Query → Except QueryError Query} {b b' : Build} {u : Unit} :
    Runs (updateQuery f) b u b' ↔ ∃ q, f b.query = .ok q ∧ b' = { b with query := q } := by
  simp only [updateQuery, runs_bind, runs_get, runs_lift, runs_modifyQuery,
    ofQueryResult_eq_ok_iff]
  grind

@[simp] theorem runs_record {id : NodeId} {r : NodeRecord} {b b' : Build} {u : Unit} :
    Runs (record id r) b u b' ↔
      b.ledger.record? id = none ∧ b' = { b with ledger := b.ledger.noted id r } := by
  simp only [record, runs_bind, runs_get, runs_lift, runs_modifyLedger, Ledger.record_eq_ok_iff]
  grind

/-- No two from clauses wait at the same time. -/
@[simp] theorem runs_openFrom {o : OpenFrom} {b b' : Build} {u : Unit} :
    Runs (openFrom o) b u b' ↔ b.ledger.openFrom = none ∧ b' = b.awaiting o := by
  simp only [openFrom, runs_bind, runs_get, and_assoc, exists_and_left, exists_eq_left]
  cases ho : b.ledger.openFrom with
  | none => simp [awaiting]
  | some _ => simp

@[simp] theorem runs_takeOpenFrom {o : Option OpenFrom} {b b' : Build} :
    Runs takeOpenFrom b o b' ↔
      o = b.ledger.openFrom ∧ b' = { b with ledger := { b.ledger with openFrom := none } } := by
  simp [takeOpenFrom]
  grind

end Build

/-! ### From clauses -/

namespace Node

@[simp] theorem source?_fromClause (s : Source) (e : Expr) : (fromClause s e).source? = some s := by
  cases e <;> rfl

/-- The clause that iterates over a resolved expression, with its projection. -/
def projectedFrom (s : Source) (e projection : Expr) : Clause :=
  ((fromClause s e).withProjection? projection).getD (fromClause s e)

theorem withProjection?_fromClause (s : Source) (e projection : Expr) :
    (fromClause s e).withProjection? projection = some (projectedFrom s e projection) := by
  cases e <;> rfl

@[simp] theorem source?_projectedFrom (s : Source) (e projection : Expr) :
    (projectedFrom s e projection).source? = some s := by
  cases e <;> rfl

end Node

/-- A subordinate key joins an order by clause at the end of the body. -/
theorem Node.lastOrderBy?_eq_some_iff {q : Query} {position : Position} :
    lastOrderBy? q = some position ↔
      ∃ i, position = .body i ∧ i + 1 = q.body.length ∧
        ∃ keys previous, q.body[i]? = some (.orderBy keys previous) := by
  unfold lastOrderBy?
  rw [List.getLast?_eq_getElem?]
  constructor
  · intro h
    split at h
    · rename_i keys previous hl
      have hlt := (List.getElem?_eq_some_iff.mp hl).1
      refine ⟨q.body.length - 1, ?_, by omega, keys, previous, hl⟩
      rw [Option.some.injEq] at h
      rw [← h, Query.last]
      obtain ⟨m, hm⟩ : ∃ m, q.body.length = m + 1 := ⟨q.body.length - 1, by omega⟩
      rw [hm]
      rfl
    · cases h
  · rintro ⟨i, rfl, hi, keys, previous, hc⟩
    rw [← hi, Nat.add_sub_cancel, hc, Query.last, ← hi]
    rfl

/-! ### Steps -/

/-- The query with the projection of the waiting from clause set, if one is waiting. -/
def Query.fill (q : Query) : Option OpenFrom → Expr → Except QueryError Query
  | none, _ => .ok q
  | some o, e => q.setProjection o.clause e

namespace Node

variable (ids : Nat → SourceId) (nested : Nested) (chain : Chain) (n : Node) (b : Build)

/-- What applying the node `n` makes of the build `b`, by the operation of the node. The node was
not applied before; `nested` computes its nested query. -/
inductive Step : Build → Prop where
  /-- A further sequence is added as a from clause that waits. -/
  | mainSource {e : Expr} {type : Ty} (op : n.operation = .mainSource e)
      (allowed : b.ledger.ensureClause n.callSite = .ok ()) (items : e.type.element? = some type)
      (named : n.identifier ≠ "") (settled : b.ledger.openFrom = none) :
      Step ((b.added n (.fromExpr .additional ⟨ids b.drawn, n.identifier, type⟩ e none .main)
        (b.drawn + 1)).awaiting ⟨n.id, b.query.next, n.identifier, e.render⟩)
  /-- A nested query is added as a from clause that waits. -/
  | subQuerySource {inner : Chain} {q : Query} {type : Ty} {k : Nat}
      (op : n.operation = .subQuerySource inner)
      (allowed : b.ledger.ensureClause n.callSite = .ok ())
      (built : Runs (nested b.ledger.settings (b.ledger.depth + 1)) b.drawn q k)
      (items : q.itemType? = some type) (named : n.identifier ≠ "")
      (settled : b.ledger.openFrom = none) :
      Step ((b.added n (.fromQuery ⟨ids k, n.identifier, type⟩ q none .main)
        (k + 1)).awaiting ⟨n.id, b.query.next, n.identifier, (Expr.subQuery q).render⟩)
  /-- A sequence made from each item is added as a from clause that waits. -/
  | selectMany {collection : Lambda} {link : NodeId} {e : Expr} {type : Ty}
      (op : n.operation = .selectMany collection none)
      (allowed : b.ledger.ensureClause n.callSite = .ok ()) (source : n.source = some link)
      (resolved : chain.resolveLambda b.ledger link collection = .ok e)
      (items : e.type.element? = some type) (named : n.identifier ≠ "")
      (settled : b.ledger.openFrom = none) :
      Step ((b.added n (fromClause ⟨ids b.drawn, n.identifier, type⟩ e)
        (b.drawn + 1)).awaiting ⟨n.id, b.query.next, n.identifier, e.render⟩)
  /-- A sequence made from each item is added as a from clause with its projection. -/
  | selectManyResult {collection selector : Lambda} {link : NodeId} {e projection : Expr} {type : Ty}
      {outer inner : Param} (op : n.operation = .selectMany collection (some selector))
      (allowed : b.ledger.ensureClause n.callSite = .ok ())
      (projects : b.ledger.ensureProjection n.callSite false = .ok ())
      (source : n.source = some link)
      (resolved : chain.resolveLambda b.ledger link collection = .ok e)
      (items : e.type.element? = some type) (params : selector.params = [outer, inner])
      (named : inner.name ≠ "")
      (result : selector.resolveResult
        (b.ledger.noted n.id ⟨some b.query.next, some (Source.ref ⟨ids b.drawn, inner⟩)⟩) n (.ok ())
        (chain.resolve (b.ledger.noted n.id
          ⟨some b.query.next, some (Source.ref ⟨ids b.drawn, inner⟩)⟩) link) = .ok projection) :
      Step ((b.added n (projectedFrom ⟨ids b.drawn, inner⟩ e projection)
        (b.drawn + 1)).registering (.select projection))
  /-- A predicate is added. -/
  | filter {predicate : Lambda} {link : NodeId} {e : Expr} (op : n.operation = .filter predicate)
      (allowed : b.ledger.ensureClause n.callSite = .ok ()) (source : n.source = some link)
      (resolved : chain.resolveLambda b.ledger link predicate = .ok e) :
      Step (b.added n (.filter e .main) b.drawn)
  /-- A value is named. -/
  | define {name : Param} {value : Lambda} {link : NodeId} {e : Expr}
      (op : n.operation = .define name value)
      (allowed : b.ledger.ensureClause n.callSite = .ok ()) (source : n.source = some link)
      (resolved : chain.resolveLambda b.ledger link value = .ok e) (named : name.name ≠ "") :
      Step (b.added n (.define ⟨ids b.drawn, name⟩ e .main) (b.drawn + 1))
  /-- A key opens an order by clause. -/
  | orderBy {key : Lambda} {direction : Direction} {thenBy : Bool} {link : NodeId} {e : Expr}
      (op : n.operation = .orderBy key direction thenBy)
      (allowed : b.ledger.ensureClause n.callSite = .ok ()) (source : n.source = some link)
      (resolved : chain.resolveLambda b.ledger link key = .ok e)
      (opens : thenBy = true → lastOrderBy? b.query = none) :
      Step (b.added n (.orderBy [⟨e, direction, none⟩] .main) b.drawn)
  /-- A subordinate key joins the order by clause at the end. -/
  | thenBy {key : Lambda} {direction : Direction} {link : NodeId} {e : Expr} {position : Position}
      {q : Query} (op : n.operation = .orderBy key direction true)
      (allowed : b.ledger.ensureClause n.callSite = .ok ()) (source : n.source = some link)
      (resolved : chain.resolveLambda b.ledger link key = .ok e)
      (joins : lastOrderBy? b.query = some position)
      (extended : b.query.addKey position ⟨e, direction, none⟩ = .ok q) :
      Step { b with query := q, ledger := b.ledger.noted n.id ⟨some position, none⟩ }
  /-- A projection is registered; the waiting from clause gets it. -/
  | select {selector : Lambda} {link : NodeId} {e : Expr} {q : Query}
      (op : n.operation = .select selector)
      (projects : b.ledger.ensureProjection n.callSite (isIdentity selector) = .ok ())
      (source : n.source = some link)
      (resolved : chain.resolveLambda b.ledger link selector = .ok e)
      (filled : b.query.fill b.ledger.openFrom e = .ok q) :
      Step { b with
        query := q
        ledger := ({ b.ledger with openFrom := none }.register (.select e)).noted n.id {} }
  /-- A grouping is registered. -/
  | groupBy {key : Lambda} {element : Option Lambda} {link : NodeId} {k e : Expr}
      (op : n.operation = .groupBy key element)
      (allowed : b.ledger.ensureClause n.callSite = .ok ())
      (projects : b.ledger.ensureProjection n.callSite false = .ok ())
      (source : n.source = some link)
      (resolved : chain.resolveLambda b.ledger link key = .ok k)
      (grouped : groupElement (m := Id) chain b.ledger link key element = .ok e)
      (settled : b.ledger.openFrom = none) :
      Step { b with ledger := (b.ledger.register (.group k e)).noted n.id {} }
  /-- The items are converted. -/
  | cast {type : Ty} (op : n.operation = .cast .cast type) :
      Step { b with
        query := b.query.addOperator (.cast .cast type)
        ledger := b.ledger.noteCast.noted n.id {} }
  /-- The items of a type are kept. -/
  | ofType {type : Ty} (op : n.operation = .cast .ofType type) :
      Step { b with
        query := b.query.addOperator (.cast .ofType type)
        ledger := b.ledger.close.noted n.id {} }
  /-- An operator is applied to the result. -/
  | resultOperator {o resolved : ResultOp} {link : NodeId} (op : n.operation = .resultOperator o)
      (plain : o.castType? = none) (source : n.source = some link)
      (result : o.replaceM (resolveArgument (m := Id) chain b.ledger link) = .ok resolved) :
      Step { b with
        query := b.query.addOperator resolved
        ledger := b.ledger.close.noted n.id {} }

section

variable {ids nested chain n b} {b' : Build}

/-! ### Parts of a step -/

@[simp] theorem link_eq_ok_iff {id : NodeId} : n.link = .ok id ↔ n.source = some id := by
  unfold Node.link
  cases n.source <;> simp

theorem manyItem_none {element : Ty} :
    n.manyItem none element = .ok ⟨n.identifier, element⟩ :=
  rfl

theorem manyItem_some_eq_ok_iff {selector : Lambda} {element : Ty} {item : Param} :
    n.manyItem (some selector) element = .ok item ↔
      ∃ outer, selector.params = [outer, item] := by
  simp only [manyItem, Lambda.binary]
  rcases selector.params with _ | ⟨_, _ | ⟨_, _ | _⟩⟩ <;>
    simp [pure, Except.pure, bind, Except.bind]

/-! ### What each operation does -/

theorem step_of_mainSource {e : Expr} (op : n.operation = .mainSource e)
    (h : Runs (n.applyMainSource ids e) b () b') : n.Step ids nested chain b b' := by
  simp only [applyMainSource, runs_bind, runs_get, runs_lift, runs_drawing, runs_createSource,
    Build.runs_addClause, Build.runs_record, Build.runs_openFrom, sourceItemType_eq_ok_iff,
    and_assoc, exists_and_left, exists_eq_left, exists_unit] at h
  obtain ⟨allowed, type, items, named, settled, -, rfl⟩ := h
  exact .mainSource op allowed items named settled

theorem step_of_subQuerySource {inner : Chain} (op : n.operation = .subQuerySource inner)
    (h : Runs (n.applySubQuerySource ids nested) b () b') : n.Step ids nested chain b b' := by
  simp only [applySubQuerySource, runs_bind, runs_get, runs_lift, runs_drawing,
    runs_createSource, Build.runs_addClause, Build.runs_record, Build.runs_openFrom, Prod.exists,
    runs_nestedItems, and_assoc, exists_and_left, exists_eq_left, exists_unit] at h
  obtain ⟨allowed, q, type, _, ⟨k, built, items, rfl⟩, named, settled, -, rfl⟩ := h
  exact .subQuerySource op allowed built items named settled

theorem step_of_selectMany {collection : Lambda} (op : n.operation = .selectMany collection none)
    (h : Runs (n.applySelectMany ids chain collection none) b () b') :
    n.Step ids nested chain b b' := by
  simp only [applySelectMany, runs_bind, runs_get, runs_lift, asking_eq_lift, Option.isSome_none,
    Bool.false_eq_true, if_false, link_eq_ok_iff, and_assoc, exists_and_left, exists_eq_left,
    exists_unit] at h
  obtain ⟨allowed, link, source, e, resolved, h⟩ := h
  cases items : e.type.element? with
  | none => simp [items] at h
  | some type =>
    simp only [items, manyItem_none, runs_bind, runs_get, runs_lift, runs_drawing,
      runs_createSource, Build.runs_addClause, Build.runs_record, Build.runs_openFrom,
      source?_fromClause, Except.ok.injEq, and_assoc, exists_and_left, exists_eq_left,
      exists_eq_left', exists_unit] at h
    obtain ⟨named, -, settled, rfl⟩ := h
    rw [← Build.added_of_source (source?_fromClause _ _)]
    exact .selectMany op allowed source resolved items named settled

theorem step_of_selectManyResult {collection selector : Lambda}
    (op : n.operation = .selectMany collection (some selector))
    (h : Runs (n.applySelectMany ids chain collection (some selector)) b () b') :
    n.Step ids nested chain b b' := by
  simp only [applySelectMany, runs_bind, runs_get, runs_lift, asking_eq_lift, Option.isSome_some,
    if_true, link_eq_ok_iff, and_assoc, exists_and_left, exists_eq_left, exists_unit] at h
  obtain ⟨allowed, projects, link, source, e, resolved, h⟩ := h
  cases items : e.type.element? with
  | none => simp [items] at h
  | some type =>
    simp only [items, manyItem_some_eq_ok_iff, runs_bind, runs_get, runs_lift, resolveResult_lift,
      runs_drawing, runs_createSource, Build.runs_addClause, Build.runs_record,
      Build.runs_modifyLedger, source?_fromClause, and_assoc, exists_and_left, exists_eq_left,
      exists_unit] at h
    obtain ⟨inner, ⟨outer, params⟩, named, -, projection, result, rfl⟩ := h
    have step : n.Step ids nested chain b _ :=
      .selectManyResult op allowed projects source resolved items params named result
    rwa [Build.added_of_source (source?_projectedFrom _ _ _)] at step

theorem step_of_filter {predicate : Lambda} (op : n.operation = .filter predicate)
    (h : Runs (n.applyFilter chain predicate) b () b') : n.Step ids nested chain b b' := by
  simp only [applyFilter, runs_bind, runs_get, runs_lift, asking_eq_lift, Build.runs_addClause,
    Build.runs_record, link_eq_ok_iff, and_assoc, exists_and_left, exists_eq_left, exists_unit] at h
  obtain ⟨allowed, link, source, e, resolved, -, rfl⟩ := h
  exact .filter op allowed source resolved

theorem step_of_define {name : Param} {value : Lambda} (op : n.operation = .define name value)
    (h : Runs (n.applyDefine ids chain name value) b () b') : n.Step ids nested chain b b' := by
  simp only [applyDefine, runs_bind, runs_get, runs_lift, asking_eq_lift, runs_drawing,
    runs_createSource, Build.runs_addClause, Build.runs_record, link_eq_ok_iff, and_assoc,
    exists_and_left, exists_eq_left, exists_unit] at h
  obtain ⟨allowed, link, source, e, resolved, named, -, rfl⟩ := h
  exact .define op allowed source resolved named

theorem step_of_orderBy {key : Lambda} {direction : Direction} {thenBy : Bool}
    (op : n.operation = .orderBy key direction thenBy)
    (h : Runs (n.applyOrderBy chain key direction thenBy) b () b') :
    n.Step ids nested chain b b' := by
  simp only [applyOrderBy, runs_bind, runs_get, runs_lift, asking_eq_lift, link_eq_ok_iff,
    and_assoc, exists_and_left, exists_eq_left, exists_unit] at h
  obtain ⟨allowed, link, source, e, resolved, h⟩ := h
  cases joins : (if thenBy = true then lastOrderBy? b.query else none) with
  | none =>
    simp only [joins, runs_bind, Build.runs_addClause, Build.runs_record, and_assoc,
      exists_and_left, exists_eq_left] at h
    obtain ⟨-, rfl⟩ := h
    exact .orderBy op allowed source resolved fun ht => by simpa [ht] using joins
  | some position =>
    simp only [joins, runs_bind, Build.runs_updateQuery, Build.runs_record, exists_unit] at h
    obtain ⟨_, ⟨q, extended, rfl⟩, -, rfl⟩ := h
    cases thenBy with
    | false => simp at joins
    | true => exact .thenBy op allowed source resolved (by simpa using joins) extended

theorem step_of_select {selector : Lambda} (op : n.operation = .select selector)
    (h : Runs (n.applySelect chain selector) b () b') : n.Step ids nested chain b b' := by
  simp only [applySelect, runs_bind, runs_get, runs_lift, asking_eq_lift, link_eq_ok_iff,
    Build.runs_takeOpenFrom, and_assoc, exists_and_left, exists_eq_left, exists_unit] at h
  obtain ⟨projects, link, source, e, resolved, h⟩ := h
  cases waits : b.ledger.openFrom with
  | none =>
    simp only [waits, runs_bind, Build.runs_modifyLedger, Build.runs_record, exists_eq_left,
      exists_unit] at h
    obtain ⟨-, rfl⟩ := h
    exact .select op projects source resolved (by rw [waits]; rfl)
  | some waiting =>
    simp only [waits, runs_bind, Build.runs_updateQuery, Build.runs_modifyLedger,
      Build.runs_record, exists_unit] at h
    obtain ⟨_, ⟨q, filled, rfl⟩, _, rfl, -, rfl⟩ := h
    exact .select op projects source resolved (by rw [waits]; exact filled)

theorem step_of_groupBy {key : Lambda} {element : Option Lambda}
    (op : n.operation = .groupBy key element)
    (h : Runs (n.applyGroupBy chain key element) b () b') : n.Step ids nested chain b b' := by
  simp only [applyGroupBy, runs_bind, runs_get, runs_lift, asking_eq_lift, link_eq_ok_iff,
    and_assoc, exists_and_left, exists_eq_left, exists_unit] at h
  obtain ⟨allowed, projects, link, source, k, resolved, e, grouped, h⟩ := h
  cases waits : b.ledger.openFrom with
  | none =>
    simp only [waits, runs_bind, Build.runs_modifyLedger, Build.runs_record, exists_eq_left,
      exists_unit] at h
    obtain ⟨-, rfl⟩ := h
    exact .groupBy op allowed projects source resolved grouped waits
  | some waiting => simp [waits] at h

theorem step_of_cast {kind : CastKind} {type : Ty} (op : n.operation = .cast kind type)
    (h : Runs (n.applyCast kind type) b () b') : n.Step ids nested chain b b' := by
  cases kind with
  | cast =>
    simp only [applyCast, runs_bind, Build.runs_modifyQuery, Build.runs_modifyLedger,
      Build.runs_record, exists_eq_left, exists_unit] at h
    obtain ⟨-, rfl⟩ := h
    exact .cast op
  | ofType =>
    simp only [applyCast, runs_bind, Build.runs_modifyQuery, Build.runs_modifyLedger,
      Build.runs_record, exists_eq_left, exists_unit] at h
    obtain ⟨-, rfl⟩ := h
    exact .ofType op

theorem step_of_resultOperator {o : ResultOp} (op : n.operation = .resultOperator o)
    (h : Runs (n.applyResultOperator chain o) b () b') : n.Step ids nested chain b b' := by
  simp only [applyResultOperator] at h
  split_ifs at h with hc
  · simp at h
  simp only [runs_bind, runs_get, runs_lift, asking_eq_lift, replaceM_lift, link_eq_ok_iff,
    Build.runs_modifyQuery, Build.runs_modifyLedger, Build.runs_record, and_assoc,
    exists_and_left, exists_eq_left, exists_unit] at h
  obtain ⟨link, source, resolved, result, -, rfl⟩ := h
  exact .resultOperator op (by simpa using hc) source result

theorem Step.runs (h : n.Step ids nested chain b b') (fresh : b.ledger.record? n.id = none) :
    Runs (n.applyWith ids nested chain) b () b' := by
  have applied : ¬ b.ledger.isApplied n.id = true := by simp [Ledger.isApplied, fresh]
  simp only [applyWith, runs_bind, runs_get, and_assoc, exists_and_left, exists_eq_left,
    if_neg applied]
  cases h with
  | mainSource op allowed items named settled =>
    simp only [op, applyMainSource, runs_bind, runs_get, runs_lift, runs_drawing, runs_createSource,
      Build.runs_addClause, Build.runs_record, Build.runs_openFrom, sourceItemType_eq_ok_iff,
      and_assoc, exists_and_left, exists_eq_left, exists_unit]
    exact ⟨allowed, _, items, named, settled, fresh, rfl⟩
  | subQuerySource op allowed built items named settled =>
    simp only [op, applySubQuerySource, runs_bind, runs_get, runs_lift, runs_drawing,
      runs_createSource, Build.runs_addClause, Build.runs_record, Build.runs_openFrom, Prod.exists,
      runs_nestedItems, and_assoc, exists_and_left, exists_eq_left, exists_unit]
    exact ⟨allowed, _, _, _, ⟨_, built, items, rfl⟩, named, settled, fresh, rfl⟩
  | selectMany op allowed source resolved items named settled =>
    simp only [op, applySelectMany, runs_bind, runs_get, runs_lift, asking_eq_lift,
      Option.isSome_none, Bool.false_eq_true, if_false, link_eq_ok_iff, and_assoc, exists_and_left,
      exists_eq_left, exists_unit]
    refine ⟨allowed, _, source, _, resolved, ?_⟩
    simp only [items, manyItem_none, runs_bind, runs_get, runs_lift, runs_drawing,
      runs_createSource, Build.runs_addClause, Build.runs_record, Build.runs_openFrom,
      source?_fromClause, Except.ok.injEq, and_assoc, exists_and_left, exists_eq_left,
      exists_eq_left', exists_unit]
    rw [← Build.added_of_source (source?_fromClause _ _)]
    exact ⟨named, fresh, settled, rfl⟩
  | selectManyResult op allowed projects source resolved items params named result =>
    simp only [op, applySelectMany, runs_bind, runs_get, runs_lift, asking_eq_lift,
      Option.isSome_some, if_true, link_eq_ok_iff, and_assoc, exists_and_left, exists_eq_left,
      exists_unit]
    refine ⟨allowed, projects, _, source, _, resolved, ?_⟩
    simp only [items, manyItem_some_eq_ok_iff, runs_bind, runs_get, runs_lift, resolveResult_lift,
      runs_drawing, runs_createSource, Build.runs_addClause, Build.runs_record,
      Build.runs_modifyLedger, source?_fromClause, and_assoc, exists_and_left, exists_eq_left,
      exists_unit]
    rw [Build.added_of_source (source?_projectedFrom _ _ _)]
    exact ⟨_, ⟨_, params⟩, named, fresh, _, result, rfl⟩
  | filter op allowed source resolved =>
    simp only [op, applyFilter, runs_bind, runs_get, runs_lift, asking_eq_lift,
      Build.runs_addClause, Build.runs_record, link_eq_ok_iff, and_assoc, exists_and_left,
      exists_eq_left, exists_unit]
    exact ⟨allowed, _, source, _, resolved, fresh, rfl⟩
  | define op allowed source resolved named =>
    simp only [op, applyDefine, runs_bind, runs_get, runs_lift, asking_eq_lift, runs_drawing,
      runs_createSource, Build.runs_addClause, Build.runs_record, link_eq_ok_iff, and_assoc,
      exists_and_left, exists_eq_left, exists_unit]
    exact ⟨allowed, _, source, _, resolved, named, fresh, rfl⟩
  | @orderBy key direction thenBy link e op allowed source resolved opens =>
    have joins : (if thenBy = true then lastOrderBy? b.query else none) = none := by
      split_ifs with ht
      · exact opens ht
      · rfl
    simp only [op, applyOrderBy, runs_bind, runs_get, runs_lift, asking_eq_lift, link_eq_ok_iff,
      and_assoc, exists_and_left, exists_eq_left, exists_unit]
    refine ⟨allowed, _, source, _, resolved, ?_⟩
    simp only [joins, runs_bind, Build.runs_addClause, Build.runs_record, and_assoc,
      exists_and_left, exists_eq_left]
    exact ⟨fresh, rfl⟩
  | thenBy op allowed source resolved joins extended =>
    simp only [op, applyOrderBy, runs_bind, runs_get, runs_lift, asking_eq_lift, link_eq_ok_iff,
      and_assoc, exists_and_left, exists_eq_left, exists_unit]
    refine ⟨allowed, _, source, _, resolved, ?_⟩
    simp only [joins, if_true, runs_bind, Build.runs_updateQuery, Build.runs_record, exists_unit]
    exact ⟨_, ⟨_, extended, rfl⟩, fresh, rfl⟩
  | @select selector link e q op projects source resolved filled =>
    simp only [op, applySelect, runs_bind, runs_get, runs_lift, asking_eq_lift, link_eq_ok_iff,
      Build.runs_takeOpenFrom, and_assoc, exists_and_left, exists_eq_left, exists_unit]
    refine ⟨projects, _, source, _, resolved, ?_⟩
    cases waits : b.ledger.openFrom with
    | none =>
      rw [waits, Query.fill, Except.ok.injEq] at filled
      subst filled
      simp only [runs_bind, Build.runs_modifyLedger, Build.runs_record, exists_eq_left,
        exists_unit]
      exact ⟨fresh, trivial⟩
    | some waiting =>
      rw [waits] at filled
      simp only [runs_bind, Build.runs_updateQuery, Build.runs_modifyLedger,
        Build.runs_record, exists_unit]
      exact ⟨_, ⟨q, filled, rfl⟩, _, rfl, fresh, rfl⟩
  | groupBy op allowed projects source resolved grouped settled =>
    simp only [op, applyGroupBy, runs_bind, runs_get, runs_lift, asking_eq_lift, link_eq_ok_iff,
      and_assoc, exists_and_left, exists_eq_left, exists_unit]
    refine ⟨allowed, projects, _, source, _, resolved, _, grouped, ?_⟩
    simp only [settled, runs_bind, Build.runs_modifyLedger, Build.runs_record, exists_eq_left,
      exists_unit]
    exact ⟨fresh, trivial⟩
  | cast op =>
    simp only [op, applyCast, runs_bind, Build.runs_modifyQuery, Build.runs_modifyLedger,
      Build.runs_record, exists_eq_left, exists_unit]
    exact ⟨fresh, trivial⟩
  | ofType op =>
    simp only [op, applyCast, runs_bind, Build.runs_modifyQuery, Build.runs_modifyLedger,
      Build.runs_record, exists_eq_left, exists_unit]
    exact ⟨fresh, trivial⟩
  | resultOperator op plain source result =>
    simp only [op, applyResultOperator, plain, Option.isSome_none, Bool.false_eq_true, if_false,
      runs_bind, runs_get, runs_lift, asking_eq_lift, replaceM_lift, link_eq_ok_iff,
      Build.runs_modifyQuery, Build.runs_modifyLedger, Build.runs_record, and_assoc,
      exists_and_left, exists_eq_left, exists_unit]
    exact ⟨_, source, _, result, fresh, rfl⟩

theorem Step.of_runs (h : Runs (n.applyWith ids nested chain) b () b') :
    b.ledger.record? n.id = none ∧ n.Step ids nested chain b b' := by
  simp only [applyWith, runs_bind, runs_get, and_assoc, exists_and_left, exists_eq_left] at h
  split_ifs at h with applied
  · simp at h
  refine ⟨by simpa [Ledger.isApplied] using applied, ?_⟩
  cases op : n.operation with
  | mainSource e => exact step_of_mainSource op (by simpa only [op] using h)
  | subQuerySource inner => exact step_of_subQuerySource op (by simpa only [op] using h)
  | selectMany collection result =>
    cases result with
    | none => exact step_of_selectMany op (by simpa only [op] using h)
    | some selector => exact step_of_selectManyResult op (by simpa only [op] using h)
  | filter predicate => exact step_of_filter op (by simpa only [op] using h)
  | define name value => exact step_of_define op (by simpa only [op] using h)
  | orderBy key direction thenBy => exact step_of_orderBy op (by simpa only [op] using h)
  | select selector => exact step_of_select op (by simpa only [op] using h)
  | groupBy key element => exact step_of_groupBy op (by simpa only [op] using h)
  | cast kind type => exact step_of_cast op (by simpa only [op] using h)
  | resultOperator o => exact step_of_resultOperator op (by simpa only [op] using h)

/-- **Applying a node** takes a step, unless the node was applied before. -/
theorem applyWith_runs_iff :
    Runs (n.applyWith ids nested chain) b () b' ↔
      b.ledger.record? n.id = none ∧ n.Step ids nested chain b b' :=
  ⟨Step.of_runs, fun h => h.2.runs h.1⟩

theorem Step.settings_eq (h : n.Step ids nested chain b b') :
    b'.ledger.settings = b.ledger.settings := by
  cases h <;> rfl

theorem Step.depth_eq (h : n.Step ids nested chain b b') : b'.ledger.depth = b.ledger.depth := by
  cases h <;> rfl

end

end Node

end QueryFold
