import QueryFold.Proofs.Chain.Nesting

/-!
# What a failing node leaves behind

A node that cannot be applied should leave the build as it was. Most of its checks come before
its changes: `Node.Refuses` lists the errors that they raise, and nothing but the count of the
drawn identities is different then. Some checks come too late. `Node.Halfway` says which ones and
what is left: a from clause that is in the body although another one still waits for its
projection, a node that is recorded although its result selector cannot be resolved, a from
clause that waits no longer although its projection cannot be set.

Every failure is of one of these two kinds (`Node.applyWith_halts`), and which one it is can be
seen on the build before (`apply_unchanged_iff`).
-/

namespace QueryFold

/-! ### Failures of the parts of a step -/

@[simp] theorem halts_createSource {ids : Nat → SourceId} {item : Param} {k k' : Nat}
    {e : BuildError} :
    Halts (createSource ids item) k e k' ↔
      item.name = "" ∧ e = .query .emptyItemName ∧ k' = k := by
  rw [Halts, execute_createSource]
  split_ifs with h <;> simp [h, eq_comm]

theorem ofQueryResult_eq_error_iff {α : Type} {x : Except QueryError α} {e : BuildError} :
    ofQueryResult x = .error e ↔ ∃ cause, x = .error cause ∧ e = .query cause := by
  cases x <;> simp [ofQueryResult, eq_comm]

namespace Build

@[simp] theorem not_halts_modifyQuery {f : Query → Query} {b b' : Build} {e : BuildError} :
    ¬ Halts (modifyQuery f) b e b' :=
  not_halts_modify

@[simp] theorem not_halts_modifyLedger {f : Ledger → Ledger} {b b' : Build} {e : BuildError} :
    ¬ Halts (modifyLedger f) b e b' :=
  not_halts_modify

@[simp] theorem not_halts_addClause {c : Clause} {b b' : Build} {e : BuildError} :
    ¬ Halts (addClause c) b e b' := by
  simp [addClause]

@[simp] theorem not_halts_takeOpenFrom {b b' : Build} {e : BuildError} :
    ¬ Halts takeOpenFrom b e b' := by
  simp [takeOpenFrom]

@[simp] theorem halts_updateQuery {f : Query → Except QueryError Query} {b b' : Build}
    {e : BuildError} :
    Halts (updateQuery f) b e b' ↔
      ∃ cause, f b.query = .error cause ∧ e = .query cause ∧ b' = b := by
  simp only [updateQuery, halts_bind, not_halts_get, runs_get, halts_lift, runs_lift,
    ofQueryResult_eq_error_iff, not_halts_modifyQuery, false_or, and_assoc, exists_and_left,
    exists_eq_left, and_false, exists_false, or_false]
  grind

/-- Only what is recorded already cannot be recorded. -/
theorem halts_record {id : NodeId} {r : NodeRecord} {b b' : Build} {e : BuildError} :
    Halts (record id r) b e b' ↔
      b.ledger.record? id ≠ none ∧ e = .misuse (.recordedTwice id) ∧ b' = b := by
  have refused : b.ledger.record id r = .error e ↔
      b.ledger.record? id ≠ none ∧ e = .misuse (.recordedTwice id) := by
    unfold Ledger.record Ledger.isApplied
    cases b.ledger.record? id <;> simp [eq_comm]
  simp [record, refused, and_assoc]

@[simp] theorem not_halts_record {id : NodeId} {r : NodeRecord} {b b' : Build} {e : BuildError}
    (fresh : b.ledger.record? id = none) : ¬ Halts (record id r) b e b' := by
  simp [halts_record, fresh]

/-- A from clause that waits gets an error when another one comes, and waits no longer. -/
@[simp] theorem halts_openFrom {o : OpenFrom} {b b' : Build} {e : BuildError} :
    Halts (openFrom o) b e b' ↔ ∃ waiting, b.ledger.openFrom = some waiting ∧
      e = waiting.error ∧ b' = { b with ledger := { b.ledger with openFrom := none } } := by
  simp only [openFrom, halts_bind, not_halts_get, runs_get, and_assoc, exists_and_left,
    exists_eq_left, false_or]
  cases b.ledger.openFrom with
  | none => simp
  | some waiting => simp

end Build

/-! ### Refusals -/

namespace Node

section

variable (ids : Nat → SourceId) (nested : Nested) (chain : Chain) (n : Node) (b : Build)

/-- A check of the node refuses to apply it to the build `b`. The constructors say which checks
there are and from where their errors come. -/
inductive Refuses : BuildError → Prop where
  /-- The node was applied before. -/
  | applied (h : b.ledger.record? n.id ≠ none) : Refuses (.misuse (.appliedTwice n.describe))
  /-- No clause may follow. -/
  | clause {e : BuildError} (h : b.ledger.ensureClause n.callSite = .error e) : Refuses e
  /-- The projection may not be set. -/
  | projection {identity : Bool} {e : BuildError}
      (h : b.ledger.ensureProjection n.callSite identity = .error e) : Refuses e
  /-- The node has no link. -/
  | unlinked {e : BuildError} (h : n.link = .error e) : Refuses e
  /-- What the node iterates over is no sequence. -/
  | sequence {x : Expr} {e : BuildError} (op : n.operation = .mainSource x)
      (h : sourceItemType x = .error e) : Refuses e
  /-- The nested query cannot be built. -/
  | nested {inner : Chain} {e : BuildError} {k : Nat} (op : n.operation = .subQuerySource inner)
      (h : Halts (nestedItems nested b.ledger) b.drawn e k) : Refuses e
  /-- The items have no name. -/
  | unnamed : Refuses (.query .emptyItemName)
  /-- A lambda cannot be resolved. -/
  | lambda {link : NodeId} {l : Lambda} {e : BuildError} (source : n.source = some link)
      (h : chain.resolveLambda b.ledger link l = .error e) : Refuses e
  /-- What a collection selector yields is no sequence. -/
  | collection (x : Expr) : Refuses (.misuse (.collectionNotSequence x.render x.type))
  /-- A result selector does not have two parameters. -/
  | selector {l : Lambda} {e : BuildError} (h : l.binary = .error e) : Refuses e
  /-- The element of a grouping cannot be resolved. -/
  | element {link : NodeId} {key : Lambda} {l : Option Lambda} {e : BuildError}
      (source : n.source = some link)
      (h : groupElement (m := Id) chain b.ledger link key l = .error e) : Refuses e
  /-- A from clause waits for its projection, which a grouping does not give. -/
  | waiting {o : OpenFrom} (waits : b.ledger.openFrom = some o) : Refuses o.error
  /-- An operator changes the item type. -/
  | converts (op : ResultOp) : Refuses (.misuse (.castAsOperator op.name))
  /-- The argument of an operator cannot be resolved. -/
  | argument {link : NodeId} {op : ResultOp} {e : BuildError} (source : n.source = some link)
      (h : op.replaceM (resolveArgument (m := Id) chain b.ledger link) = .error e) : Refuses e

/-! ### Late failures -/

/-- The node, which was not applied before, has changed the build `b` when it fails. It leaves
another build behind. -/
inductive Halfway : BuildError → Build → Prop where
  /-- A further sequence is in the body; the from clause that waited before waits no longer. -/
  | mainSource {e : Expr} {type : Ty} {o : OpenFrom} (op : n.operation = .mainSource e)
      (allowed : b.ledger.ensureClause n.callSite = .ok ()) (items : e.type.element? = some type)
      (named : n.identifier ≠ "") (waits : b.ledger.openFrom = some o) :
      Halfway o.error
        ⟨b.query.addClause (.fromExpr .additional ⟨ids b.drawn, n.identifier, type⟩ e none .main),
          { b.ledger with openFrom := none }, b.drawn + 1⟩
  /-- So it is with a nested query, -/
  | subQuerySource {inner : Chain} {q : Query} {type : Ty} {k : Nat} {o : OpenFrom}
      (op : n.operation = .subQuerySource inner)
      (allowed : b.ledger.ensureClause n.callSite = .ok ())
      (built : Runs (nested b.ledger.settings (b.ledger.depth + 1)) b.drawn q k)
      (items : q.itemType? = some type) (named : n.identifier ≠ "")
      (waits : b.ledger.openFrom = some o) :
      Halfway o.error
        ⟨b.query.addClause (.fromQuery ⟨ids k, n.identifier, type⟩ q none .main),
          { b.ledger with openFrom := none }, k + 1⟩
  /-- and with a sequence made from each item, where the node is recorded as well. -/
  | selectMany {collection : Lambda} {link : NodeId} {e : Expr} {type : Ty} {o : OpenFrom}
      (op : n.operation = .selectMany collection none)
      (allowed : b.ledger.ensureClause n.callSite = .ok ()) (source : n.source = some link)
      (resolved : chain.resolveLambda b.ledger link collection = .ok e)
      (items : e.type.element? = some type) (named : n.identifier ≠ "")
      (waits : b.ledger.openFrom = some o) :
      Halfway o.error
        ⟨b.query.addClause (fromClause ⟨ids b.drawn, n.identifier, type⟩ e),
          { b.ledger.noted n.id
              ⟨some b.query.next, some (Source.ref ⟨ids b.drawn, n.identifier, type⟩)⟩ with
            openFrom := none }, b.drawn + 1⟩
  /-- The node is recorded, but its result selector cannot be resolved. -/
  | selectManyResult {collection selector : Lambda} {link : NodeId} {e : Expr} {type : Ty}
      {outer inner : Param} {err : BuildError}
      (op : n.operation = .selectMany collection (some selector))
      (allowed : b.ledger.ensureClause n.callSite = .ok ())
      (projects : b.ledger.ensureProjection n.callSite false = .ok ())
      (source : n.source = some link)
      (resolved : chain.resolveLambda b.ledger link collection = .ok e)
      (items : e.type.element? = some type) (params : selector.params = [outer, inner])
      (named : inner.name ≠ "")
      (failed : selector.resolveResult
        (b.ledger.noted n.id ⟨some b.query.next, some (Source.ref ⟨ids b.drawn, inner⟩)⟩) n (.ok ())
        (chain.resolve (b.ledger.noted n.id
          ⟨some b.query.next, some (Source.ref ⟨ids b.drawn, inner⟩)⟩) link) = .error err) :
      Halfway err
        ⟨b.query, b.ledger.noted n.id
          ⟨some b.query.next, some (Source.ref ⟨ids b.drawn, inner⟩)⟩, b.drawn + 1⟩
  /-- The from clause that waited cannot get the projection and waits no longer. -/
  | select {selector : Lambda} {link : NodeId} {e : Expr} {o : OpenFrom} {cause : QueryError}
      (op : n.operation = .select selector)
      (projects : b.ledger.ensureProjection n.callSite (isIdentity selector) = .ok ())
      (source : n.source = some link)
      (resolved : chain.resolveLambda b.ledger link selector = .ok e)
      (waits : b.ledger.openFrom = some o)
      (failed : b.query.setProjection o.clause e = .error cause) :
      Halfway (.query cause) { b with ledger := { b.ledger with openFrom := none } }

end

variable {ids : Nat → SourceId} {nested : Nested} {chain : Chain} {n : Node} {b b' : Build}
  {e : BuildError}

/-- What is left behind is not the build as it was. -/
theorem Halfway.changed (h : n.Halfway ids nested chain b e b') :
    ¬ (b'.query = b.query ∧ b'.ledger = b.ledger) := by
  rintro ⟨query, ledger⟩
  cases h with
  | mainSource | subQuerySource | selectMany =>
    have := congrArg (fun q : Query => q.body.length) query
    simp [Query.addClause] at this
  | selectManyResult =>
    have := congrArg (fun l : Ledger => l.records.length) ledger
    simp [Ledger.noted] at this
  | select _ _ _ _ waits _ =>
    have := congrArg Ledger.openFrom ledger
    simp [waits] at this

/-! ### Failures of the operations -/

/-- The failure is a refusal, which draws identities at most, or it comes late. -/
def Fares (ids : Nat → SourceId) (nested : Nested) (chain : Chain) (n : Node) (b : Build)
    (e : BuildError) (b' : Build) : Prop :=
  (n.Refuses nested chain b e ∧ ∃ k, b' = { b with drawn := k }) ∨
    b.ledger.record? n.id = none ∧ n.Halfway ids nested chain b e b'

theorem manyItem_some_eq_error_iff {selector : Lambda} {element : Ty} :
    n.manyItem (some selector) element = .error e ↔ selector.binary = .error e := by
  rw [manyItem]
  cases selector.binary <;> simp [bind, Except.bind, pure, Except.pure]

theorem Refuses.fares (h : n.Refuses nested chain b e) : n.Fares ids nested chain b e b :=
  .inl ⟨h, b.drawn, rfl⟩

theorem fares_mainSource {x : Expr} (op : n.operation = .mainSource x)
    (fresh : b.ledger.record? n.id = none) (h : Halts (n.applyMainSource ids x) b e b') :
    n.Fares ids nested chain b e b' := by
  simp only [applyMainSource, halts_bind, not_halts_get, halts_lift, halts_drawing,
    halts_createSource, Build.not_halts_addClause, Build.halts_openFrom, runs_get, runs_lift,
    runs_drawing, runs_createSource, Build.runs_addClause, Build.runs_openFrom,
    sourceItemType_eq_ok_iff, and_assoc, exists_and_left, exists_eq_left, exists_unit,
    false_or] at h
  rcases h with ⟨refused, rfl⟩ | ⟨allowed, ⟨refused, rfl⟩ | ⟨type, items,
    ⟨-, rfl, rfl⟩ | ⟨named, ⟨o, waits, rfl, rfl⟩ | ⟨-, h⟩⟩⟩⟩
  · exact (Refuses.clause refused).fares
  · exact (Refuses.sequence op refused).fares
  · exact Refuses.unnamed.fares
  · exact .inr ⟨fresh, .mainSource op allowed items named waits⟩
  · exact absurd h (Build.not_halts_record fresh)

theorem fares_subQuerySource {inner : Chain} (op : n.operation = .subQuerySource inner)
    (fresh : b.ledger.record? n.id = none) (h : Halts (n.applySubQuerySource ids nested) b e b') :
    n.Fares ids nested chain b e b' := by
  simp only [applySubQuerySource, halts_bind, not_halts_get, halts_lift, halts_drawing,
    halts_createSource, Build.not_halts_addClause, Build.halts_openFrom, runs_get, runs_lift,
    runs_drawing, runs_createSource, Build.runs_addClause, Build.runs_openFrom, Prod.exists,
    runs_nestedItems, and_assoc, exists_and_left, exists_eq_left, exists_unit, false_or] at h
  rcases h with ⟨refused, rfl⟩ | ⟨allowed, ⟨k, refused, rfl⟩ | ⟨q, type, _, ⟨k, built, items, rfl⟩,
    ⟨-, rfl, rfl⟩ | ⟨named, ⟨o, waits, rfl, rfl⟩ | ⟨-, h⟩⟩⟩⟩
  · exact (Refuses.clause refused).fares
  · exact .inl ⟨.nested op refused, k, rfl⟩
  · exact .inl ⟨.unnamed, k, rfl⟩
  · exact .inr ⟨fresh, .subQuerySource op allowed built items named waits⟩
  · exact absurd h (Build.not_halts_record fresh)

theorem fares_selectMany {collection : Lambda} (op : n.operation = .selectMany collection none)
    (fresh : b.ledger.record? n.id = none)
    (h : Halts (n.applySelectMany ids chain collection none) b e b') :
    n.Fares ids nested chain b e b' := by
  simp only [applySelectMany, halts_bind, not_halts_get, halts_lift, runs_get, runs_lift,
    asking_eq_lift, Option.isSome_none, Bool.false_eq_true, if_false, link_eq_ok_iff, and_assoc,
    exists_and_left, exists_eq_left, exists_unit, false_or] at h
  rcases h with ⟨refused, rfl⟩ | ⟨allowed, ⟨refused, rfl⟩ | ⟨link, source, ⟨refused, rfl⟩ |
    ⟨x, resolved, h⟩⟩⟩
  · exact (Refuses.clause refused).fares
  · exact (Refuses.unlinked refused).fares
  · exact (Refuses.lambda source refused).fares
  cases items : x.type.element? with
  | none =>
    simp only [items, halts_throw] at h
    obtain ⟨rfl, rfl⟩ := h
    exact (Refuses.collection x).fares
  | some type =>
    simp only [items, manyItem_none, halts_bind, halts_lift, halts_drawing, halts_createSource,
      not_halts_get, Build.not_halts_addClause, Build.halts_openFrom, runs_get, runs_lift,
      runs_drawing, runs_createSource, Build.runs_addClause, Build.runs_record,
      source?_fromClause, Except.ok.injEq, reduceCtorEq, and_assoc, exists_and_left,
      exists_eq_left, exists_eq_left', exists_unit, false_and, false_or] at h
    rcases h with ⟨-, rfl, rfl⟩ | ⟨named, h | ⟨-, o, waits, rfl, rfl⟩⟩
    · exact Refuses.unnamed.fares
    · exact absurd h (Build.not_halts_record fresh)
    · exact .inr ⟨fresh, .selectMany op allowed source resolved items named waits⟩

theorem fares_selectManyResult {collection selector : Lambda}
    (op : n.operation = .selectMany collection (some selector))
    (fresh : b.ledger.record? n.id = none)
    (h : Halts (n.applySelectMany ids chain collection (some selector)) b e b') :
    n.Fares ids nested chain b e b' := by
  simp only [applySelectMany, halts_bind, not_halts_get, halts_lift, runs_get, runs_lift,
    asking_eq_lift, Option.isSome_some, if_true, link_eq_ok_iff, and_assoc, exists_and_left,
    exists_eq_left, exists_unit, false_or] at h
  rcases h with ⟨refused, rfl⟩ | ⟨allowed, ⟨refused, rfl⟩ | ⟨projects, ⟨refused, rfl⟩ |
    ⟨link, source, ⟨refused, rfl⟩ | ⟨x, resolved, h⟩⟩⟩⟩
  · exact (Refuses.clause refused).fares
  · exact (Refuses.projection refused).fares
  · exact (Refuses.unlinked refused).fares
  · exact (Refuses.lambda source refused).fares
  cases items : x.type.element? with
  | none =>
    simp only [items, halts_throw] at h
    obtain ⟨rfl, rfl⟩ := h
    exact (Refuses.collection x).fares
  | some type =>
    simp only [items, manyItem_some_eq_ok_iff, halts_bind, halts_lift, halts_drawing,
      halts_createSource, not_halts_get, Build.not_halts_addClause, Build.not_halts_modifyLedger,
      runs_get, runs_lift, resolveResult_lift, runs_drawing, runs_createSource,
      Build.runs_addClause, Build.runs_record, source?_fromClause, and_assoc, exists_and_left,
      exists_eq_left, exists_unit, false_or, or_false, and_false, exists_false] at h
    rcases h with ⟨refused, rfl⟩ | ⟨inner, ⟨outer, params⟩, ⟨-, rfl, rfl⟩ |
      ⟨named, h | ⟨-, failed, rfl⟩⟩⟩
    · exact (Refuses.selector (manyItem_some_eq_error_iff.mp refused)).fares
    · exact Refuses.unnamed.fares
    · exact absurd h (Build.not_halts_record fresh)
    · exact .inr ⟨fresh,
        .selectManyResult op allowed projects source resolved items params named failed⟩

theorem fares_filter {predicate : Lambda} (fresh : b.ledger.record? n.id = none)
    (h : Halts (n.applyFilter chain predicate) b e b') : n.Fares ids nested chain b e b' := by
  simp only [applyFilter, halts_bind, not_halts_get, halts_lift, Build.not_halts_addClause,
    runs_get, runs_lift, asking_eq_lift, Build.runs_addClause, link_eq_ok_iff, and_assoc,
    exists_and_left, exists_eq_left, exists_unit, false_or] at h
  rcases h with ⟨refused, rfl⟩ | ⟨allowed, ⟨refused, rfl⟩ | ⟨link, source, ⟨refused, rfl⟩ |
    ⟨x, resolved, h⟩⟩⟩
  · exact (Refuses.clause refused).fares
  · exact (Refuses.unlinked refused).fares
  · exact (Refuses.lambda source refused).fares
  · exact absurd h (Build.not_halts_record fresh)

theorem fares_define {name : Param} {value : Lambda} (fresh : b.ledger.record? n.id = none)
    (h : Halts (n.applyDefine ids chain name value) b e b') : n.Fares ids nested chain b e b' := by
  simp only [applyDefine, halts_bind, not_halts_get, halts_lift, halts_drawing, halts_createSource,
    Build.not_halts_addClause, runs_get, runs_lift, asking_eq_lift, runs_drawing, runs_createSource,
    Build.runs_addClause, link_eq_ok_iff, and_assoc, exists_and_left, exists_eq_left, exists_unit,
    false_or] at h
  rcases h with ⟨refused, rfl⟩ | ⟨allowed, ⟨refused, rfl⟩ | ⟨link, source, ⟨refused, rfl⟩ |
    ⟨x, resolved, ⟨-, rfl, rfl⟩ | ⟨named, h⟩⟩⟩⟩
  · exact (Refuses.clause refused).fares
  · exact (Refuses.unlinked refused).fares
  · exact (Refuses.lambda source refused).fares
  · exact Refuses.unnamed.fares
  · exact absurd h (Build.not_halts_record fresh)

theorem fares_orderBy {key : Lambda} {direction : Direction} {thenBy : Bool}
    (fresh : b.ledger.record? n.id = none)
    (h : Halts (n.applyOrderBy chain key direction thenBy) b e b') :
    n.Fares ids nested chain b e b' := by
  simp only [applyOrderBy, halts_bind, not_halts_get, halts_lift, runs_get, runs_lift,
    asking_eq_lift, link_eq_ok_iff, and_assoc, exists_and_left, exists_eq_left, exists_unit,
    false_or] at h
  rcases h with ⟨refused, rfl⟩ | ⟨allowed, ⟨refused, rfl⟩ | ⟨link, source, ⟨refused, rfl⟩ |
    ⟨x, resolved, h⟩⟩⟩
  · exact (Refuses.clause refused).fares
  · exact (Refuses.unlinked refused).fares
  · exact (Refuses.lambda source refused).fares
  cases joins : (if thenBy = true then lastOrderBy? b.query else none) with
  | none =>
    simp only [joins, halts_bind, Build.not_halts_addClause, Build.runs_addClause, and_assoc,
      exists_and_left, exists_eq_left, false_or] at h
    exact absurd h (Build.not_halts_record fresh)
  | some position =>
    simp only [joins, halts_bind, Build.halts_updateQuery, Build.runs_updateQuery,
      exists_unit] at h
    rcases h with ⟨cause, failed, -, -⟩ | ⟨_, ⟨q, -, rfl⟩, h⟩
    · -- An order by clause is at the position that the key joins.
      have at_end : lastOrderBy? b.query = some position := by
        cases thenBy <;> simp_all
      obtain ⟨i, rfl, -, keys, previous, hc⟩ := lastOrderBy?_eq_some_iff.mp at_end
      simp [Query.addKey, Query.modifyClause, hc, Clause.withKey?] at failed
    · exact absurd h (Build.not_halts_record fresh)

theorem fares_select {selector : Lambda} (op : n.operation = .select selector)
    (fresh : b.ledger.record? n.id = none) (h : Halts (n.applySelect chain selector) b e b') :
    n.Fares ids nested chain b e b' := by
  simp only [applySelect, halts_bind, not_halts_get, halts_lift, runs_get, runs_lift,
    asking_eq_lift, link_eq_ok_iff, Build.not_halts_takeOpenFrom, Build.runs_takeOpenFrom,
    and_assoc, exists_and_left, exists_eq_left, exists_unit, false_or] at h
  rcases h with ⟨refused, rfl⟩ | ⟨projects, ⟨refused, rfl⟩ | ⟨link, source, ⟨refused, rfl⟩ |
    ⟨x, resolved, h⟩⟩⟩
  · exact (Refuses.projection refused).fares
  · exact (Refuses.unlinked refused).fares
  · exact (Refuses.lambda source refused).fares
  cases waits : b.ledger.openFrom with
  | none =>
    simp only [waits, halts_bind, Build.not_halts_modifyLedger, Build.runs_modifyLedger,
      exists_eq_left, exists_unit, false_or] at h
    exact absurd h (Build.not_halts_record fresh)
  | some o =>
    simp only [waits, halts_bind, Build.halts_updateQuery, Build.not_halts_modifyLedger,
      Build.runs_updateQuery, Build.runs_modifyLedger, exists_unit, false_or] at h
    rcases h with ⟨cause, failed, rfl, rfl⟩ | ⟨_, ⟨q, -, rfl⟩, _, rfl, h⟩
    · exact .inr ⟨fresh, .select op projects source resolved waits failed⟩
    · exact absurd h (Build.not_halts_record fresh)

theorem fares_groupBy {key : Lambda} {element : Option Lambda}
    (fresh : b.ledger.record? n.id = none) (h : Halts (n.applyGroupBy chain key element) b e b') :
    n.Fares ids nested chain b e b' := by
  simp only [applyGroupBy, halts_bind, not_halts_get, halts_lift, runs_get, runs_lift,
    asking_eq_lift, link_eq_ok_iff, and_assoc, exists_and_left, exists_eq_left, exists_unit,
    false_or] at h
  rcases h with ⟨refused, rfl⟩ | ⟨allowed, ⟨refused, rfl⟩ | ⟨projects, ⟨refused, rfl⟩ |
    ⟨link, source, ⟨refused, rfl⟩ | ⟨k, resolved, ⟨refused, rfl⟩ | ⟨x, grouped, h⟩⟩⟩⟩⟩
  · exact (Refuses.clause refused).fares
  · exact (Refuses.projection refused).fares
  · exact (Refuses.unlinked refused).fares
  · exact (Refuses.lambda source refused).fares
  · exact (Refuses.element source refused).fares
  cases waits : b.ledger.openFrom with
  | none =>
    simp only [waits, halts_bind, Build.not_halts_modifyLedger, Build.runs_modifyLedger,
      exists_eq_left, exists_unit, false_or] at h
    exact absurd h (Build.not_halts_record fresh)
  | some o =>
    simp only [waits, halts_bind, halts_throw, runs_throw, false_and, exists_false, or_false] at h
    obtain ⟨rfl, rfl⟩ := h
    exact (Refuses.waiting waits).fares

theorem fares_cast {kind : CastKind} {type : Ty} (fresh : b.ledger.record? n.id = none)
    (h : Halts (n.applyCast kind type) b e b') : n.Fares ids nested chain b e b' := by
  cases kind <;>
  · simp only [applyCast, halts_bind, Build.not_halts_modifyQuery, Build.not_halts_modifyLedger,
      Build.runs_modifyQuery, Build.runs_modifyLedger, exists_eq_left, exists_unit, false_or] at h
    exact absurd h (Build.not_halts_record fresh)

theorem fares_resultOperator {o : ResultOp} (fresh : b.ledger.record? n.id = none)
    (h : Halts (n.applyResultOperator chain o) b e b') : n.Fares ids nested chain b e b' := by
  simp only [applyResultOperator] at h
  split_ifs at h with hc
  · simp only [halts_bind, halts_throw, runs_throw, false_and, exists_false, or_false] at h
    obtain ⟨rfl, rfl⟩ := h
    exact (Refuses.converts o).fares
  simp only [halts_bind, not_halts_get, halts_lift, runs_get, runs_lift, asking_eq_lift,
    replaceM_lift, link_eq_ok_iff, Build.not_halts_modifyQuery, Build.not_halts_modifyLedger,
    Build.runs_modifyQuery, Build.runs_modifyLedger, and_assoc, exists_and_left, exists_eq_left,
    exists_unit, false_or] at h
  rcases h with ⟨refused, rfl⟩ | ⟨link, source, ⟨refused, rfl⟩ | ⟨resolved, result, h⟩⟩
  · exact (Refuses.unlinked refused).fares
  · exact (Refuses.argument source refused).fares
  · exact absurd h (Build.not_halts_record fresh)

/-- A node that fails is refused before it has changed the build, or fails halfway. -/
theorem applyWith_halts (h : Halts (n.applyWith ids nested chain) b e b') :
    n.Fares ids nested chain b e b' := by
  simp only [applyWith, halts_bind, not_halts_get, runs_get, and_assoc, exists_and_left,
    exists_eq_left, false_or] at h
  split_ifs at h with applied
  · simp only [halts_bind, halts_throw, runs_throw, false_and, exists_false, or_false] at h
    obtain ⟨rfl, rfl⟩ := h
    refine (Refuses.applied fun fresh => ?_).fares
    simp [Ledger.isApplied, fresh] at applied
  have fresh : b.ledger.record? n.id = none := by simpa [Ledger.isApplied] using applied
  cases op : n.operation with
  | mainSource x => exact fares_mainSource op fresh (by simpa only [op] using h)
  | subQuerySource inner => exact fares_subQuerySource op fresh (by simpa only [op] using h)
  | selectMany collection result =>
    cases result with
    | none => exact fares_selectMany op fresh (by simpa only [op] using h)
    | some selector => exact fares_selectManyResult op fresh (by simpa only [op] using h)
  | filter predicate => exact fares_filter fresh (by simpa only [op] using h)
  | define name value => exact fares_define fresh (by simpa only [op] using h)
  | orderBy key direction thenBy => exact fares_orderBy fresh (by simpa only [op] using h)
  | select selector => exact fares_select op fresh (by simpa only [op] using h)
  | groupBy key element => exact fares_groupBy fresh (by simpa only [op] using h)
  | cast kind type => exact fares_cast fresh (by simpa only [op] using h)
  | resultOperator o => exact fares_resultOperator fresh (by simpa only [op] using h)

/-- A node that was not applied before fails halfway where a late check fails. -/
theorem Halfway.halts (h : n.Halfway ids nested chain b e b')
    (fresh : b.ledger.record? n.id = none) : Halts (n.applyWith ids nested chain) b e b' := by
  have applied : ¬ b.ledger.isApplied n.id = true := by simp [Ledger.isApplied, fresh]
  simp only [applyWith, halts_bind, not_halts_get, runs_get, and_assoc, exists_and_left,
    exists_eq_left, false_or, if_neg applied]
  cases h with
  | mainSource op allowed items named waits =>
    simp only [op, applyMainSource, halts_bind, not_halts_get, halts_lift, halts_drawing,
      halts_createSource, Build.not_halts_addClause, Build.halts_openFrom, runs_get, runs_lift,
      runs_drawing, runs_createSource, Build.runs_addClause, sourceItemType_eq_ok_iff,
      and_assoc, exists_and_left, exists_eq_left, exists_unit, false_or]
    exact .inr ⟨allowed, .inr ⟨_, items, .inr ⟨named, .inl ⟨_, waits, rfl, rfl⟩⟩⟩⟩
  | subQuerySource op allowed built items named waits =>
    simp only [op, applySubQuerySource, halts_bind, not_halts_get, halts_lift, halts_drawing,
      halts_createSource, Build.not_halts_addClause, Build.halts_openFrom, runs_get, runs_lift,
      runs_drawing, runs_createSource, Build.runs_addClause, Prod.exists, runs_nestedItems,
      and_assoc, exists_and_left, exists_eq_left, exists_unit, false_or]
    exact .inr ⟨allowed, .inr ⟨_, _, _, ⟨_, built, items, rfl⟩,
      .inr ⟨named, .inl ⟨_, waits, rfl, rfl⟩⟩⟩⟩
  | selectMany op allowed source resolved items named waits =>
    simp only [op, applySelectMany, halts_bind, not_halts_get, halts_lift, runs_get, runs_lift,
      asking_eq_lift, Option.isSome_none, Bool.false_eq_true, if_false, link_eq_ok_iff, and_assoc,
      exists_and_left, exists_eq_left, exists_unit, false_or]
    refine .inr ⟨allowed, .inr ⟨_, source, .inr ⟨_, resolved, ?_⟩⟩⟩
    simp only [items, manyItem_none, halts_bind, halts_lift, halts_drawing, halts_createSource,
      not_halts_get, Build.not_halts_addClause, Build.halts_openFrom, runs_get, runs_lift,
      runs_drawing, runs_createSource, Build.runs_addClause, Build.runs_record,
      source?_fromClause, Except.ok.injEq, reduceCtorEq, and_assoc, exists_and_left,
      exists_eq_left, exists_eq_left', exists_unit, false_and, false_or]
    exact .inr ⟨named, .inr ⟨fresh, _, waits, rfl, trivial⟩⟩
  | selectManyResult op allowed projects source resolved items params named failed =>
    simp only [op, applySelectMany, halts_bind, not_halts_get, halts_lift, runs_get, runs_lift,
      asking_eq_lift, Option.isSome_some, if_true, link_eq_ok_iff, and_assoc, exists_and_left,
      exists_eq_left, exists_unit, false_or]
    refine .inr ⟨allowed, .inr ⟨projects, .inr ⟨_, source, .inr ⟨_, resolved, ?_⟩⟩⟩⟩
    simp only [items, manyItem_some_eq_ok_iff, halts_bind, halts_lift, halts_drawing,
      halts_createSource, not_halts_get, Build.not_halts_addClause, Build.not_halts_modifyLedger,
      runs_get, runs_lift, resolveResult_lift, runs_drawing, runs_createSource,
      Build.runs_addClause, Build.runs_record, source?_fromClause, and_assoc, exists_and_left,
      exists_eq_left, exists_unit, false_or, or_false, and_false, exists_false]
    exact .inr ⟨_, ⟨_, params⟩, .inr ⟨named, .inr ⟨fresh, failed, rfl⟩⟩⟩
  | @select selector link x o cause op projects source resolved waits failed =>
    simp only [op, applySelect, halts_bind, not_halts_get, halts_lift, runs_get, runs_lift,
      asking_eq_lift, link_eq_ok_iff, Build.not_halts_takeOpenFrom, Build.runs_takeOpenFrom,
      and_assoc, exists_and_left, exists_eq_left, exists_unit, false_or]
    refine .inr ⟨projects, .inr ⟨_, source, .inr ⟨_, resolved, ?_⟩⟩⟩
    simp only [waits, halts_bind, Build.halts_updateQuery, Build.not_halts_modifyLedger,
      Build.runs_updateQuery, Build.runs_modifyLedger, exists_unit, false_or]
    exact .inl ⟨cause, failed, rfl, trivial⟩

/-- A check of the node fails after the build was changed. -/
def Overreaches (ids : Nat → SourceId) (nested : Nested) (chain : Chain) (n : Node) (b : Build) :
    Prop :=
  b.ledger.record? n.id = none ∧ ∃ e b', n.Halfway ids nested chain b e b'

end Node

/-- **Failing without a trace.** A node that cannot be applied leaves the query and the ledger as
they were exactly if it does not overreach: if it is no source that meets a from clause which still
waits, no select-many whose result selector fails alone, and no selection for which the from clause
that waits has no place. -/
theorem apply_unchanged_iff {ids : Nat → SourceId} {chain : Chain} {n : Node} {b b' : Build}
    {e : BuildError} (h : Halts (n.apply ids chain) b e b') :
    (b'.query = b.query ∧ b'.ledger = b.ledger) ↔
      ¬ n.Overreaches ids (n.nested ids) chain b := by
  constructor
  · rintro unchanged ⟨fresh, e₁, b₁, halfway⟩
    have same := h.symm.trans (halfway.halts fresh)
    obtain rfl := (Prod.mk.inj same).2
    exact halfway.changed unchanged
  · intro careful
    rcases Node.applyWith_halts h with ⟨-, k, rfl⟩ | ⟨fresh, halfway⟩
    · exact ⟨rfl, rfl⟩
    · exact absurd ⟨fresh, e, b', halfway⟩ careful

namespace Sample

/-- The first of two sequences. -/
def leading : Node := ⟨⟨0⟩, none, "s", "MainSource", .mainSource cooks⟩

/-- The second of two sequences. -/
def trailing : Node := ⟨⟨1⟩, some ⟨0⟩, "c", "MainSource", .mainSource cooks⟩

/-- Two sequences, and a node behind them. -/
def lineup (last : Node) : Chain where
  nodes := [leading, trailing, last]
  resultType := Ty.queryable (Ty.plain "Cook")

/-- The build that the first sequence starts. -/
def lineupStart : Build :=
  ⟨.start ⟨⟨1⟩, "s", Ty.plain "Cook"⟩ cooks (Ty.queryable (Ty.plain "Cook")),
    (Ledger.start {} 0).noted ⟨0⟩ ⟨some .main, some ⟨⟨1⟩, "s", Ty.plain "Cook"⟩⟩, 1⟩

/-- The build in which the second sequence waits for its projection. -/
def lineupWaiting : Build :=
  (lineupStart.added trailing
    (.fromExpr .additional ⟨⟨2⟩, "c", Ty.plain "Cook"⟩ cooks none .main) 2).awaiting
      ⟨⟨1⟩, .body 0, "c", "value(Cook[])"⟩

theorem lineup_runs (last : Node) :
    leading.Start SourceId.countUp (leading.nested SourceId.countUp) {} 0 (lineup last).resultType 0
        lineupStart ∧
      Runs (trailing.apply SourceId.countUp (lineup last)) lineupStart () lineupWaiting :=
  ⟨.mainSource rfl (by decide) (by decide), rfl⟩

/-- A grouping. -/
def grouping : Node := ⟨⟨2⟩, some ⟨1⟩, "c", "GroupBy", .groupBy ⟨[cook], .param cook⟩ none⟩

/-- A third sequence. -/
def third : Node := ⟨⟨2⟩, some ⟨1⟩, "m", "MainSource", .mainSource cooks⟩

end Sample

/-- Behind two sequences a grouping is refused, and leaves no trace: it does not overreach, and the
query and the ledger are what they were. -/
theorem lineup_unchanged_iff : ∃ b',
    Halts (Sample.grouping.apply SourceId.countUp (Sample.lineup Sample.grouping))
      Sample.lineupWaiting (.missingProjection "c" "value(Cook[])") b' ∧
    ((b'.query = Sample.lineupWaiting.query ∧ b'.ledger = Sample.lineupWaiting.ledger) ↔
      ¬ Sample.grouping.Overreaches SourceId.countUp (Sample.grouping.nested SourceId.countUp)
        (Sample.lineup Sample.grouping) Sample.lineupWaiting) ∧
    (b'.query = Sample.lineupWaiting.query ∧ b'.ledger = Sample.lineupWaiting.ledger) ∧
    ¬ Sample.grouping.Overreaches SourceId.countUp (Sample.grouping.nested SourceId.countUp)
      (Sample.lineup Sample.grouping) Sample.lineupWaiting := by
  have refused : Halts (Sample.grouping.apply SourceId.countUp (Sample.lineup Sample.grouping))
      Sample.lineupWaiting (.missingProjection "c" "value(Cook[])") Sample.lineupWaiting := by
    with_unfolding_all rfl
  refine ⟨_, refused, apply_unchanged_iff refused, ⟨rfl, rfl⟩, ?_⟩
  -- No late failure is one of a grouping.
  rintro ⟨-, e, b', halfway⟩
  cases halfway <;> simp [Sample.grouping] at *

/-- A third sequence is refused for the same reason, but then it is in the body, and the second one
waits no longer. -/
theorem lineup_spoiled : ∃ b',
    Sample.leading.Start SourceId.countUp (Sample.leading.nested SourceId.countUp) {} 0
      (Sample.lineup Sample.third).resultType 0 Sample.lineupStart ∧
    Runs (Sample.trailing.apply SourceId.countUp (Sample.lineup Sample.third)) Sample.lineupStart ()
      Sample.lineupWaiting ∧
    Halts (Sample.third.apply SourceId.countUp (Sample.lineup Sample.third)) Sample.lineupWaiting
      (.missingProjection "c" "value(Cook[])") b' ∧
    b'.query.body.length = Sample.lineupWaiting.query.body.length + 1 ∧
    b'.ledger.openFrom ≠ Sample.lineupWaiting.ledger.openFrom ∧
    ¬ (b'.query = Sample.lineupWaiting.query ∧ b'.ledger = Sample.lineupWaiting.ledger) := by
  obtain ⟨start, runs⟩ := Sample.lineup_runs Sample.third
  refine ⟨_, start, runs, rfl, rfl, by decide, fun h => ?_⟩
  exact absurd (congrArg (fun q : Query => q.body.length) h.1) (by decide)

end QueryFold
