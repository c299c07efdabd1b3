import QueryFold.Outline
import QueryFold.Proofs.Chain.Acceptance

/-!
# Comprehensions

A comprehension iterates over a sequence, filters, names, sorts and iterates further, and yields the
values of a selector. It can be written as a chain of operations, whose lambdas then ignore their
parameter, and as an outline. The two ways to build its query have nothing in common: one resolves
every expression against the nodes before and hands projections from node to node, the other takes
the expressions as they are.

`Part.extend` says what a part of a comprehension adds to a query. The outline does this by
definition (`addEntries_eq_foldlM`), and applying the node of the part follows it (`Part.follows`).
So both ways give the same query, or the same error, and draw the same identities:
`toQuery_chain_eq_outline`.
-/

namespace QueryFold

/-- A part of a comprehension. -/
inductive Part where
  /-- Keep the items that satisfy a predicate. -/
  | filter (predicate : Expr)
  /-- Name a value. -/
  | define (item : Param) (value : Expr)
  /-- Sort by a key; `first` starts a new sorting. -/
  | order (first : Bool) (direction : Direction) (key : Expr)
  /-- Iterate over a further sequence, with a projection. -/
  | source (item : Param) (sequence projection : Expr)

/-- Iterate over a sequence and yield the values of a selector. -/
structure Comprehension where
  /-- The name of the items. -/
  name : String
  /-- The sequence. -/
  sequence : Expr
  /-- What stands between the sequence and the selector. -/
  parts : List Part
  /-- The selector. -/
  selector : Expr
  /-- Whether equal items of the result are dropped. -/
  distinct : Bool

namespace Part

/-- The operation of a part, with `p` as the parameter of its lambdas. -/
def operation (p : Param) : Part → Operation
  | filter predicate => .filter ⟨[p], predicate⟩
  | define item value => .define item ⟨[p], value⟩
  | order first direction key => .orderBy ⟨[p], key⟩ direction !first
  | source item sequence projection =>
    .selectMany ⟨[p], sequence⟩ (some ⟨[p, item], projection⟩)

/-- The entry of a part. -/
def entry : Part → OutlineEntry
  | filter predicate => .filter predicate
  | define item value => .define item value
  | order first direction key => .order first direction key
  | source item sequence _ => .source item sequence

/-- The projection of a part. -/
def projection? : Part → Option Expr
  | source _ _ projection => some projection
  | _ => none

/-- No parameter is free in the part, and what it iterates over is a sequence. -/
def WellFormed : Part → Prop
  | filter e | define _ e | order _ _ e => e.Closed
  | source _ e projection => e.Closed ∧ (∃ t, e.type.element? = some t) ∧ projection.Closed

/-- The query with what the part adds to it. -/
def extend (ids : Nat → SourceId) (q : Query) : Part → DrawM BuildError Query
  | filter predicate => return q.addClause (.filter predicate .main)
  | define item value => do
    let source ← createSource ids item
    return q.addClause (.define source value .main)
  | order first direction key =>
    match if first then none else Node.lastOrderBy? q with
    | some position => ofQueryResult (q.addKey position ⟨key, direction, none⟩)
    | none => return q.addClause (.orderBy [⟨key, direction, none⟩] .main)
  | source item sequence projection => do
    let source ← createSource ids item
    return q.addClause (Node.projectedFrom source sequence projection)

end Part

namespace Comprehension

variable (c : Comprehension)

/-- The operations of the comprehension, with `p` as the parameter of their lambdas. -/
def operations (p : Param) : List Operation :=
  .mainSource c.sequence :: (c.parts.map (Part.operation p) ++ .select ⟨[p], c.selector⟩ ::
    if c.distinct then [.resultOperator (.plain .distinct)] else [])

/-- The outline of the comprehension, whose items have the given type. -/
def outline (root : Expr) (type : Ty) : Outline where
  root := some root
  entries := .source ⟨c.name, type⟩ c.sequence :: c.parts.map Part.entry
  projections := c.parts.filterMap Part.projection? ++ [c.selector]
  distinct := c.distinct

/-- The query with the selector and the operator at its end. -/
def close (settings : Settings) (q : Query) : Except BuildError Query := do
  let q ← ofQueryResult (q.setTerminal (.select c.selector .main))
  let q := if c.distinct then q.addOperator (.plain .distinct) else q
  if settings.validate then ofQueryResult q.validate
  return q

end Comprehension

/-! ### The outline -/

section

variable {q q' : Query}

@[simp] theorem Node.lastOrderBy?_addClause (q : Query) (c : Clause) :
    lastOrderBy? (q.addClause c) = match c with
      | .orderBy _ _ => some q.next
      | _ => none := by
  cases c <;> simp [lastOrderBy?, Query.addClause, Clause.attach, Query.last, Query.next,
    Position.before]

/-- A key does not change where subordinate keys go. -/
theorem Node.lastOrderBy?_addKey {position : Position} {k : SortKey}
    (h : q.addKey position k = .ok q') (last : lastOrderBy? q = some position) :
    lastOrderBy? q' = some position := by
  obtain ⟨i, rfl, hi, -⟩ := lastOrderBy?_eq_some_iff.mp last
  obtain ⟨_, c, c', hp, hc, hc', rfl⟩ := Query.modifyClause_eq_ok_iff.mp h
  cases hp
  refine lastOrderBy?_eq_some_iff.mpr ⟨i, rfl, by simpa using hi, ?_⟩
  cases c with
  | orderBy keys previous =>
    cases hc'
    exact ⟨_, _, List.getElem?_set_self (List.getElem?_eq_some_iff.mp hc).1⟩
  | _ => cases hc'

theorem Outline.fromClause_eq_projectedFrom {s : Source} {e projection : Expr}
    (h : ∃ t, e.type.element? = some t) :
    fromClause s e projection = Node.projectedFrom s e projection := by
  cases e with
  | lambda ps body =>
    obtain ⟨t, ht⟩ := h
    simp [Expr.type, Ty.function, Ty.element?, Ty.sequenceNames] at ht
    split at ht <;> simp_all
  | _ => rfl

/-- The outline adds the parts to the query, one after the other. -/
theorem Outline.addEntries_eq_foldlM (ids : Nat → SourceId) {parts : List Part}
    (wf : ∀ part ∈ parts, part.WellFormed) (q : Query) (rest : List Expr) :
    addEntries ids q (parts.filterMap Part.projection? ++ rest) (Node.lastOrderBy? q)
      (parts.map Part.entry) = parts.foldlM (Part.extend ids) q := by
  induction parts generalizing q with
  | nil => rfl
  | cons part parts ih =>
    obtain ⟨here, others⟩ := List.forall_mem_cons.mp wf
    have next : ∀ (c : Clause) (sorting : Option Position),
        Node.lastOrderBy? (q.addClause c) = sorting →
        addEntries ids (q.addClause c) (parts.filterMap Part.projection? ++ rest) sorting
          (parts.map Part.entry) = parts.foldlM (Part.extend ids) (q.addClause c) := by
      rintro c _ rfl
      exact ih others _
    rw [List.foldlM_cons]
    cases part with
    | filter predicate =>
      simp only [Part.extend, Part.entry, Part.projection?, addEntries, List.map_cons,
        List.filterMap_cons, pure_bind]
      exact next _ none (by simp)
    | define item value =>
      simp only [Part.extend, Part.entry, Part.projection?, addEntries, List.map_cons,
        List.filterMap_cons, bind_assoc, pure_bind]
      congr 1
      funext s
      exact next _ none (by simp)
    | source item e projection =>
      simp only [Part.extend, Part.entry, Part.projection?, addEntries, List.map_cons,
        List.filterMap_cons, List.cons_append, bind_assoc, pure_bind]
      congr 1
      funext s
      rw [fromClause_eq_projectedFrom here.2.1]
      exact next _ none (by cases e <;> simp [Node.projectedFrom, Node.fromClause,
        Clause.withProjection?])
    | order first direction key =>
      simp only [Part.extend, Part.entry, Part.projection?, addEntries, List.map_cons,
        List.filterMap_cons]
      cases joins : (if first then none else Node.lastOrderBy? q) with
      | none =>
        simp only [pure_bind]
        exact next _ (some q.next) (by simp)
      | some position =>
        have last : Node.lastOrderBy? q = some position := by
          cases first <;> simp_all
        obtain ⟨q', extended⟩ := Query.exists_addKey last ⟨key, direction, none⟩
        simp only [extended, ofQueryResult]
        have := ih others q'
        rwa [Node.lastOrderBy?_addKey extended last] at this

end

/-! ### Steps that follow -/

/-- From the build `b` the step does to the query and to the count of identities what `y` does, and
leads to a build with the property, or both fail with the same error and the same count. -/
def Follows (step : BuildM Unit) (b : Build) (y : DrawM BuildError Query) (P : Build → Prop) :
    Prop :=
  (∃ b', Runs step b () b' ∧ Runs y b.drawn b'.query b'.drawn ∧ P b') ∨
    ∃ e b', execute step b = (.error e, b') ∧ execute y b.drawn = (.error e, b'.drawn)

section

variable {step step' : BuildM Unit} {b : Build} {y : DrawM BuildError Query}
  {f : Query → DrawM BuildError Query} {P Q : Build → Prop}

theorem Follows.bind (h : Follows step b y P)
    (rest : ∀ b', P b' → Follows step' b' (f b'.query) Q) :
    Follows (do step; step') b (y >>= f) Q := by
  rcases h with ⟨b', hx, hy, hb'⟩ | ⟨e, b', hx, hy⟩
  · rcases rest b' hb' with ⟨b'', hx', hy', hb''⟩ | ⟨e, b'', hx', hy'⟩
    · exact .inl ⟨b'', runs_bind.mpr ⟨(), b', hx, hx'⟩, runs_bind.mpr ⟨_, _, hy, hy'⟩, hb''⟩
    · refine .inr ⟨e, b'', ?_, ?_⟩
      · rw [execute_bind, hx]
        exact hx'
      · rw [execute_bind, hy]
        exact hy'
  · refine .inr ⟨e, b', ?_, ?_⟩
    · rw [execute_bind, hx]
    · rw [execute_bind, hy]

end

/-! ### The chain -/

/-- Nothing that was applied restricts what may follow. -/
structure Stage.Free (s : Stage) : Prop where
  unsealed : s.sealed = false
  unconverted : s.converted = false
  settled : s.waits = false

theorem Part.free_after {s : Stage} (h : s.Free) (part : Part) (p : Param) :
    (s.after (part.operation p)).Free := by
  obtain ⟨unsealed, unconverted, settled⟩ := h
  cases part <;>
    exact ⟨by simp [Stage.after, operation, Operation.seals, unsealed],
      by simp [Stage.after, operation, Operation.converts, unconverted],
      by simp [Stage.after, operation, Operation.bindsItem, settled]⟩

theorem Chain.resolveLambda_of_closed {c : Chain} {l : Ledger} {link : NodeId} {e : Expr}
    (settled : (c.route link).Settled l) (closed : e.Closed) (p : Param) :
    c.resolveLambda l link ⟨[p], e⟩ = .ok e :=
  resolveLambda_eq_ok_iff.mpr ⟨p, rfl, settled.resolves_closed p closed, closed⟩

theorem Chain.resolveResult_of_closed {c : Chain} {l l' : Ledger} {link : NodeId} {n : Node}
    {r : ItemRef} {e : Expr} (settled : (c.route link).Settled l) (ext : l.Extends l')
    (recorded : l'.item n.id = .ok r) (closed : e.Closed) (p item : Param) :
    Lambda.resolveResult ⟨[p, item], e⟩ l' n (.ok ()) (c.resolve l' link) = .ok e := by
  refine Lambda.resolveResult_eq_ok_iff.mpr ⟨p, item, r, rfl, recorded, rfl, ?_, closed⟩
  rw [closed.substituteParam]
  exact Route.resolve_eq_ok_iff.mpr ((settled.resolves_closed p closed).extends ext)

section

variable {ids : Nat → SourceId} {settings : Settings} {depth : UInt32} {chain : Chain}
  {first n : Node} {done ns : List Node} {b : Build} {p : Param}

/-- A value without a name makes no clause. -/
theorem Node.execute_applyWith_define {nested : Nested} {link : NodeId} {item : Param} {e : Expr}
    (op : n.operation = .define item ⟨[p], e⟩) (fresh : b.ledger.record? n.id = none)
    (allowed : b.ledger.ensureClause n.callSite = .ok ()) (source : n.source = some link)
    (resolved : chain.resolveLambda b.ledger link ⟨[p], e⟩ = .ok e) (unnamed : item.name = "") :
    execute (n.applyWith ids nested chain) b = (.error (.query .emptyItemName), b) := by
  have applied : ¬ b.ledger.isApplied n.id = true := by simp [Ledger.isApplied, fresh]
  simp only [applyWith, op, applyDefine, execute_bind, execute_get, if_neg applied, execute_lift,
    allowed, link_eq_ok_iff.mpr source, asking_eq_lift, Resolver.resolveLambda_id, resolved,
    execute_drawing, execute_createSource, unnamed, if_true]

/-- A sequence whose items have no name makes no clause. -/
theorem Node.execute_applyWith_selectMany {nested : Nested} {link : NodeId} {item : Param}
    {e projection : Expr} {type : Ty}
    (op : n.operation = .selectMany ⟨[p], e⟩ (some ⟨[p, item], projection⟩))
    (fresh : b.ledger.record? n.id = none) (allowed : b.ledger.ensureClause n.callSite = .ok ())
    (projects : b.ledger.ensureProjection n.callSite false = .ok ()) (source : n.source = some link)
    (resolved : chain.resolveLambda b.ledger link ⟨[p], e⟩ = .ok e)
    (items : e.type.element? = some type) (unnamed : item.name = "") :
    execute (n.applyWith ids nested chain) b = (.error (.query .emptyItemName), b) := by
  have applied : ¬ b.ledger.isApplied n.id = true := by simp [Ledger.isApplied, fresh]
  have many : n.manyItem (some ⟨[p, item], projection⟩) type = .ok item :=
    manyItem_some_eq_ok_iff.mpr ⟨p, rfl⟩
  simp only [applyWith, op, applySelectMany, execute_bind, execute_get, if_neg applied,
    execute_lift, allowed, Option.isSome_some, if_true, projects, link_eq_ok_iff.mpr source,
    asking_eq_lift, Resolver.resolveLambda_id, resolved, items, many, execute_drawing,
    execute_createSource, unnamed]

/-- **Applying the node of a part** adds to the query what the part does. -/
theorem Part.follows (hb : b.Underway ids settings depth chain first done)
    (free : b.ledger.stage.Free) (pushed : chain.Pushed)
    (nodes : chain.nodes = first :: done ++ n :: ns) (begins : first.operation.isSource = true)
    {part : Part} (op : n.operation = part.operation p) (wf : part.WellFormed) :
    Follows (n.applyWith ids (n.nested ids) chain) b (part.extend ids b.query) fun b' =>
      b'.Underway ids settings depth chain first (done ++ [n]) ∧ b'.ledger.stage.Free := by
  have fresh := hb.fresh pushed nodes
  have source := Build.Underway.source pushed nodes
  have settled := hb.settled_route pushed nodes begins free.unsealed
  have allowed : b.ledger.ensureClause n.callSite = .ok () :=
    ensureClause_eq_ok_iff.mpr free.unsealed
  have step : ∀ {b'}, n.Step ids (n.nested ids) chain b b' →
      Runs (part.extend ids b.query) b.drawn b'.query b'.drawn →
      Follows (n.applyWith ids (n.nested ids) chain) b (part.extend ids b.query) fun b' =>
        b'.Underway ids settings depth chain first (done ++ [n]) ∧ b'.ledger.stage.Free :=
    fun h hy => .inl ⟨_, h.runs fresh, hy, h.underway hb fresh,
      h.stage.2 ▸ op ▸ part.free_after free p⟩
  cases part with
  | filter e =>
    have resolved := Chain.resolveLambda_of_closed settled wf p
    exact step (.filter op allowed source resolved) (runs_pure.mpr ⟨rfl, rfl⟩)
  | define item e =>
    have resolved := Chain.resolveLambda_of_closed settled wf p
    by_cases unnamed : item.name = ""
    · refine .inr ⟨_, _, Node.execute_applyWith_define op fresh allowed source resolved unnamed, ?_⟩
      simp only [extend, execute_bind, execute_createSource, unnamed, if_true]
    · refine step (.define op allowed source resolved unnamed) ?_
      simp [extend, Build.added, unnamed]
  | order starts direction e =>
    have resolved := Chain.resolveLambda_of_closed settled wf p
    cases joins : (if starts then none else Node.lastOrderBy? b.query) with
    | none =>
      refine step (.orderBy op allowed source resolved fun ht => ?_) ?_
      · cases starts <;> simp_all
      · simp [extend, joins, Build.added]
    | some position =>
      obtain ⟨rfl, last⟩ : starts = false ∧ Node.lastOrderBy? b.query = some position := by
        cases starts <;> simp_all
      obtain ⟨q, extended⟩ := Query.exists_addKey last ⟨e, direction, none⟩
      refine step (.thenBy op allowed source resolved last extended) ?_
      simp [extend, last, extended]
  | source item e projection =>
    obtain ⟨closed, ⟨t, items⟩, projected⟩ := wf
    have resolved := Chain.resolveLambda_of_closed settled closed p
    have projects : b.ledger.ensureProjection n.callSite false = .ok () :=
      ensureProjection_eq_ok_iff.mpr ⟨free.unsealed, by simp [free.unconverted]⟩
    by_cases unnamed : item.name = ""
    · refine .inr ⟨_, _, Node.execute_applyWith_selectMany op fresh allowed projects source resolved
        items unnamed, ?_⟩
      simp only [extend, execute_bind, execute_createSource, unnamed, if_true]
    · have recorded := Ledger.item_noted_self fresh (some b.query.next)
        (Source.ref ⟨ids b.drawn, item⟩)
      have result := Chain.resolveResult_of_closed settled (Ledger.extends_of_records rfl) recorded
        projected p item
      refine step
        (.selectManyResult op allowed projects source resolved items rfl unnamed result) ?_
      simp [extend, Build.added, Build.registering, unnamed]

/-- Applying the nodes of several parts adds to the query what the parts do. -/
theorem Part.follows_foldlM {parts : List Part} {rest : List Node}
    (hb : b.Underway ids settings depth chain first done) (free : b.ledger.stage.Free)
    (pushed : chain.Pushed) (nodes : chain.nodes = first :: done ++ (ns ++ rest))
    (begins : first.operation.isSource = true)
    (ops : ns.map Node.operation = parts.map (Part.operation p))
    (wf : ∀ part ∈ parts, part.WellFormed) :
    Follows (applyNodes ids chain ns) b (parts.foldlM (Part.extend ids) b.query) fun b' =>
      b'.Underway ids settings depth chain first (done ++ ns) ∧ b'.ledger.stage.Free := by
  induction parts generalizing ns done b with
  | nil =>
    obtain rfl := List.map_eq_nil_iff.mp ops
    exact .inl ⟨b, applyNodes_runs_iff.mpr .nil, runs_pure.mpr ⟨rfl, rfl⟩,
      by rwa [List.append_nil], free⟩
  | cons part parts ih =>
    obtain ⟨n, ns, rfl, op, ops⟩ := List.map_eq_cons_iff.mp ops
    obtain ⟨here, others⟩ := List.forall_mem_cons.mp wf
    rw [applyNodes, List.foldlM_cons]
    refine (Part.follows hb free pushed nodes begins op here).bind ?_
    rintro b' ⟨hb', free'⟩
    have := ih hb' free' (by simp [nodes]) ops others
    simpa using this

/-- A build that registered a selector ends its query by it. -/
theorem Build.finish_of_select {selector : Expr}
    (projects : b.ledger.projection = some (.select selector))
    (settled : b.ledger.openFrom = none) :
    Prod.fst <$> b.finish = (do
      let q ← ofQueryResult (b.query.setTerminal (.select selector .main))
      if b.ledger.settings.validate then ofQueryResult q.validate
      return q) := by
  simp only [finish, projects, settled, Projection.terminal, map_bind]
  congr 1
  funext q
  split_ifs <;> simp

/-- An operator may be added before the query is ended or afterwards. -/
theorem Query.setTerminal_addOperator (q : Query) (o : ResultOp) (t : Terminal) :
    ofQueryResult ((q.addOperator o).setTerminal t) =
      (·.addOperator o) <$> ofQueryResult (q.setTerminal t) := by
  rw [setTerminal, setTerminal]
  cases h : q.terminal <;> simp [addOperator, h, ofQueryResult, last]

/-- A closed selector is registered as it is. -/
theorem Node.Step.exists_select (hb : b.Underway ids settings depth chain first done)
    (free : b.ledger.stage.Free) (pushed : chain.Pushed)
    (nodes : chain.nodes = first :: done ++ n :: ns) (begins : first.operation.isSource = true)
    {selector : Expr} (op : n.operation = .select ⟨[p], selector⟩) (closed : selector.Closed) :
    ∃ b', n.Step ids (n.nested ids) chain b b' ∧ b'.query = b.query ∧ b'.drawn = b.drawn ∧
      b'.ledger.projection = some (.select selector) ∧ b'.ledger.openFrom = none := by
  have settled := hb.settled_route pushed nodes begins free.unsealed
  have filled : b.query.fill b.ledger.openFrom selector = .ok b.query := by
    rw [stage_waits_eq_false_iff.mp free.settled]
    rfl
  exact ⟨_, .select op (ensureProjection_eq_ok_iff.mpr ⟨free.unsealed, by simp [free.unconverted]⟩)
    (Build.Underway.source pushed nodes) (Chain.resolveLambda_of_closed settled closed p) filled,
    rfl, rfl, rfl, rfl⟩

/-- An operator without an argument is added as it is. -/
theorem Node.Step.exists_plain {nested : Nested} {link : NodeId} {o : PlainOp}
    (op : n.operation = .resultOperator (.plain o)) (source : n.source = some link) (b : Build) :
    ∃ b', n.Step ids nested chain b b' ∧ b'.query = b.query.addOperator (.plain o) ∧
      b'.drawn = b.drawn ∧ b'.ledger.projection = b.ledger.projection ∧
      b'.ledger.openFrom = b.ledger.openFrom :=
  ⟨_, .resultOperator op rfl source rfl, rfl, rfl, rfl, rfl⟩

/-- The nodes behind the parts end the build as the comprehension is closed. -/
theorem Comprehension.exists_finish (c : Comprehension)
    (hb : b.Underway ids settings depth chain first done) (free : b.ledger.stage.Free)
    (pushed : chain.Pushed) (nodes : chain.nodes = first :: done ++ ns)
    (begins : first.operation.isSource = true) (closed : c.selector.Closed)
    (ops : ns.map Node.operation = .select ⟨[p], c.selector⟩ ::
      if c.distinct then [.resultOperator (.plain .distinct)] else []) :
    ∃ b', NodeSteps ids chain ns b b' ∧ b'.drawn = b.drawn ∧
      Prod.fst <$> b'.finish = c.close settings b.query := by
  obtain ⟨n, ns, rfl, op, ops⟩ := List.map_eq_cons_iff.mp ops
  obtain ⟨b₁, select, query, drawn, projects, settled⟩ :=
    Node.Step.exists_select hb free pushed nodes begins op closed
  have fresh := hb.fresh pushed nodes
  have hb₁ := select.underway hb fresh
  cases distinct : c.distinct with
  | false =>
    obtain rfl : ns = [] := by simpa [distinct] using ops
    refine ⟨b₁, .cons fresh select .nil, drawn, (Build.finish_of_select projects settled).trans ?_⟩
    simp [close, distinct, hb₁.imaged.settings_eq, query]
  | true =>
    obtain ⟨m, rfl, op'⟩ : ∃ m, ns = [m] ∧ m.operation = .resultOperator (.plain .distinct) := by
      simpa [distinct, List.map_eq_singleton_iff] using ops
    have nodes' : chain.nodes = first :: (done ++ [n]) ++ m :: [] := by simp [nodes]
    obtain ⟨b₂, operator, query', drawn', projects', settled'⟩ :=
      Node.Step.exists_plain op' (Build.Underway.source pushed nodes') b₁
    have fresh' := hb₁.fresh pushed nodes'
    have hb₂ := operator.underway hb₁ fresh'
    refine ⟨b₂, .cons fresh select (.cons fresh' operator .nil), drawn'.trans drawn,
      (Build.finish_of_select (projects'.trans projects) (settled'.trans settled)).trans ?_⟩
    simp [close, distinct, hb₂.imaged.settings_eq, query', query, Query.setTerminal_addOperator]

end

/-! ### Both ways -/

/-- The outline of a comprehension is built from its parts. -/
theorem Comprehension.toQuery_outline (ids : Nat → SourceId) (settings : Settings)
    {c : Comprehension} (wf : ∀ part ∈ c.parts, part.WellFormed) (root : Expr) (type : Ty) :
    (c.outline root type).toQuery ids settings root = (do
      let source ← createSource ids ⟨c.name, type⟩
      let q ← c.parts.foldlM (Part.extend ids) (.start source c.sequence root.type)
      c.close settings q) := by
  have entries : ∀ q : Query, q.body = [] →
      Outline.addEntries ids q (c.parts.filterMap Part.projection? ++ [c.selector]) none
        (c.parts.map Part.entry) = c.parts.foldlM (Part.extend ids) q := by
    intro q hq
    rw [← Outline.addEntries_eq_foldlM ids wf q [c.selector], Node.lastOrderBy?, hq]
    rfl
  simp only [Outline.toQuery, outline]
  congr 1
  funext source
  rw [entries _ rfl]
  congr 1
  funext q
  simp only [List.getLast?_concat, close, liftM_bind]
  congr 1
  funext q
  cases settings.validate with
  | false => rfl
  | true =>
    simp only [if_true, liftM_bind, liftM_pure]
    rfl

/-- The nodes behind the first one build what the outline does with the parts. -/
theorem Comprehension.execute_complete {ids : Nat → SourceId} {settings : Settings} {depth : UInt32}
    {chain : Chain} {first : Node} {ns ms : List Node} {b : Build} {p : Param} (c : Comprehension)
    (hb : b.Underway ids settings depth chain first []) (free : b.ledger.stage.Free)
    (pushed : chain.Pushed) (nodes : chain.nodes = first :: (ns ++ ms))
    (begins : first.operation.isSource = true) (wf : ∀ part ∈ c.parts, part.WellFormed)
    (closed : c.selector.Closed)
    (ops : ns.map Node.operation = c.parts.map (Part.operation p))
    (last : ms.map Node.operation = .select ⟨[p], c.selector⟩ ::
      if c.distinct then [.resultOperator (.plain .distinct)] else []) :
    execute (Prod.fst <$> Build.complete (applyNodes ids chain (ns ++ ms)) b.query b.ledger)
        b.drawn =
      execute (do
        let q ← c.parts.foldlM (Part.extend ids) b.query
        c.close settings q : DrawM BuildError Query) b.drawn := by
  rw [execute_map, Build.execute_complete, applyNodes_append]
  rcases Part.follows_foldlM hb free pushed nodes begins ops wf with
    ⟨b₁, hx, hy, hb₁, free₁⟩ | ⟨e, b₁, hx, hy⟩
  · obtain ⟨b₂, steps, drawn, ends⟩ :=
      c.exists_finish hb₁ free₁ pushed (by simp [nodes]) begins closed last
    have run : Runs (do applyNodes ids chain ns; applyNodes ids chain ms) b () b₂ :=
      runs_bind.mpr ⟨(), b₁, hx, applyNodes_runs_iff.mpr steps⟩
    rw [Runs] at run hy
    rw [run, execute_bind, hy]
    simp only [execute_lift]
    exact Prod.ext ends drawn
  · rw [execute_bind, hx, execute_bind, hy]
    rfl

/-- **Both ways to build give the same**: the chain and the outline of a comprehension whose parts
are well formed give the same query or the same error, and leave the same count of identities. -/
theorem toQuery_chain_eq_outline {ids : Nat → SourceId} {settings : Settings} {c : Comprehension}
    {type : Ty} (items : c.sequence.type.element? = some type)
    (wf : ∀ part ∈ c.parts, part.WellFormed) (closed : c.selector.Closed) {p : Param}
    {chain : Chain} (pushed : chain.Pushed) (ops : chain.nodes.map Node.operation = c.operations p)
    (name : chain.nodes.head?.map Node.identifier = some c.name) {root : Expr}
    (result : root.type = chain.resultType) (k : Nat) :
    execute (Prod.fst <$> chain.toQuery ids settings) k =
      execute ((c.outline root type).toQuery ids settings root) k := by
  obtain ⟨first, rest, nodes, op, ops⟩ := List.map_eq_cons_iff.mp ops
  obtain ⟨ns, ms, rfl, ops, last⟩ := List.map_eq_append_iff.mp ops
  replace name : first.identifier = c.name := by simpa [nodes] using name
  have linked := Chain.checkLinks_eq_ok_iff.mpr pushed.linked
  rw [execute_map, Chain.toQuery, Chain.execute_build UInt32.zero_le nodes linked,
    Comprehension.toQuery_outline ids settings wf]
  by_cases named : c.name = ""
  · simp [Node.startWith, op, execute_bind, sourceItemType_eq_ok_iff.mpr items,
      execute_createSource, name, named]
  have start : first.Start ids (first.nested ids) settings 0 chain.resultType k _ :=
    .mainSource op items (name ▸ named)
  have started := (Node.startWith_runs_iff chain.resultType).mpr start
  have begins : first.operation.isSource = true := by rw [op]; rfl
  have free : (Stage.start).Free := ⟨rfl, rfl, rfl⟩
  have rest := c.execute_complete start.underway (start.stage ▸ free) pushed nodes begins wf closed
    ops last
  rw [execute_map] at rest
  rw [started, execute_bind, execute_createSource, if_neg named, result]
  simpa only [name] using rest

namespace Sample

/-- Numbers for each cook and each chef, sorted by two keys, without repetition. -/
def rota : Comprehension where
  name := "c"
  sequence := cooks
  parts := [.filter (.external "open" Ty.bool),
    .source chef (.external "Chef[]" (Ty.array chef.type)) (.ofInt 1),
    .order true .ascending (.ofInt 2), .order false .descending (.ofInt 3),
    .define ⟨"n", Ty.int⟩ (.ofInt 4)]
  selector := .ofInt 5
  distinct := true

/-- The expression that the rota stands for. -/
def rotaRoot : Expr := .external "rota" (Ty.queryable Ty.int)

/-- The rota as a chain. -/
def rotaChain : Chain :=
  (rota.operations cook).foldl (fun c op => c.push "c" op) (Chain.empty (Ty.queryable Ty.int))

end Sample

theorem toQuery_chain_eq_outline_rota :
    execute (Prod.fst <$> Sample.rotaChain.toQuery SourceId.countUp {}) 0 =
      execute ((Sample.rota.outline Sample.rotaRoot Sample.cook.type).toQuery SourceId.countUp {}
        Sample.rotaRoot) 0 := by
  have pushed : Sample.rotaChain.Pushed :=
    .push (.push (.push (.push (.push (.push (.push (.push (.empty _) _ _) _ _) _ _) _ _) _ _) _ _)
      _ _) _ _
  have closed : ∀ e : Expr, e.freeParams = [] → e.Closed := fun e h =>
    ensureResolved_eq_ok_iff.mp (by rw [Expr.ensureResolved, h])
  have wf : ∀ part ∈ Sample.rota.parts, part.WellFormed := by
    simp only [Sample.rota, List.forall_mem_cons, List.not_mem_nil, false_imp_iff, implies_true,
      and_true]
    exact ⟨closed _ rfl, ⟨closed _ rfl, ⟨_, rfl⟩, closed _ rfl⟩, closed _ rfl, closed _ rfl,
      closed _ rfl⟩
  exact toQuery_chain_eq_outline rfl wf (closed _ rfl) pushed rfl rfl rfl 0

end QueryFold
