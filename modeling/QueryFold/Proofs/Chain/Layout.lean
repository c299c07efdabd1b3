import QueryFold.Proofs.Chain.Soundness
import Mathlib.Data.List.Forall2

/-!
# What the nodes of a chain make

The clauses of a body come from groups of nodes: one node opens the clause, and subordinate
sort keys behind it may join. `layout` divides the nodes of a chain into these groups by what
their operations are, and `Group.Makes` says which clause a group makes. It speaks of one
ledger only, that of the finished build, though the clause grew while the ledger did: that is
sound because resolution is stable (`Route.Resolves.extends`).

A from clause without a projection of its own gets that of the first selection behind it, so a
group keeps that node too.
-/

namespace QueryFold

/-! ### Operations -/

namespace Operation

/-- Whether an operation makes a clause of the body or a key of one. -/
def inBody : Operation → Bool
  | select _ | groupBy _ _ | cast _ _ | resultOperator _ => false
  | _ => true

/-- Whether an operation sorts. -/
def sorts : Operation → Bool
  | orderBy _ _ _ => true
  | _ => false

/-- Whether an operation says what the query yields. -/
def projects : Operation → Bool
  | select _ | groupBy _ _ | selectMany _ (some _) => true
  | _ => false

/-- Whether an operation applies to the result. -/
def onResult : Operation → Bool
  | cast _ _ | resultOperator _ => true
  | _ => false

end Operation

/-! ### Groups -/

/-- The nodes that make one clause of a body. -/
structure Group where
  /-- The node that opens the clause. -/
  head : Node
  /-- The nodes whose keys join it. -/
  joined : List Node
  /-- The first selection behind the node that opens the clause. -/
  selection : Option Node

namespace Group

/-- The group of a node that opens a clause. -/
def opened (n : Node) : Group := ⟨n, [], none⟩

/-- The nodes of a group that have a place in its clause. -/
def nodes (g : Group) : List Node := g.head :: g.joined

/-- The group with a further node whose key joins the clause. -/
def join (g : Group) (n : Node) : Group := { g with joined := g.joined ++ [n] }

/-- The group with a further selection behind it. -/
def select (g : Group) (n : Node) : Group := { g with selection := g.selection.or (some n) }

/-- The groups with a further node. A subordinate key joins the last group if that one sorts. -/
def place (gs : List Group) (n : Node) : List Group :=
  match n.operation with
  | .select _ => gs.map fun g => g.select n
  | .groupBy _ _ | .cast _ _ | .resultOperator _ => gs
  | .orderBy _ _ true =>
    match gs.getLast? with
    | some g =>
      if g.head.operation.sorts then gs.set (gs.length - 1) (g.join n) else gs ++ [opened n]
    | none => gs ++ [opened n]
  | _ => gs ++ [opened n]

end Group

/-- The groups of nodes that are applied one after the other. -/
def layout (ns : List Node) : List Group := ns.foldl Group.place []

theorem layout_append (ns : List Node) (n : Node) :
    layout (ns ++ [n]) = Group.place (layout ns) n := by
  rw [layout, List.foldl_append]
  rfl

theorem Group.place_nodes (gs : List Group) (n : Node) :
    (place gs n).flatMap nodes = gs.flatMap nodes ++ [n].filter fun n => n.operation.inBody := by
  have opens : (gs ++ [opened n]).flatMap nodes = gs.flatMap nodes ++ [n] := by
    simp [opened, nodes]
  cases op : n.operation with
  | select _ =>
    simp only [place, op, Operation.inBody, List.flatMap_map, List.filter_singleton]
    exact (List.append_nil _).symm
  | groupBy _ _ | cast _ _ | resultOperator _ => simp [place, op, Operation.inBody]
  | orderBy key direction thenBy =>
    simp only [place, op, Operation.inBody, List.filter_singleton]
    cases thenBy with
    | false => exact opens
    | true =>
      cases last : gs.getLast? with
      | none => exact opens
      | some g =>
        simp only
        split_ifs
        · obtain ⟨gs, rfl⟩ := List.getLast?_eq_some_iff.mp last
          simp [join, nodes]
        · exact opens
  | mainSource _ | subQuerySource _ | selectMany _ _ | filter _ | define _ _ =>
    simpa [place, op, Operation.inBody] using opens

/-- Every node that makes a clause or a key has its place in one group, and these are all. -/
theorem layout_nodes (ns : List Node) :
    (layout ns).flatMap Group.nodes = ns.filter fun n => n.operation.inBody := by
  have : ∀ gs : List Group, (ns.foldl Group.place gs).flatMap Group.nodes =
      gs.flatMap Group.nodes ++ ns.filter fun n => n.operation.inBody := by
    induction ns with
    | nil => simp
    | cons n ns ih =>
      intro gs
      rw [List.foldl_cons, ih, Group.place_nodes, List.append_assoc, ← List.filter_append]
      rfl
  exact this []

/-! ### From clauses -/

/-- The source ranges over the expression in the clause, whose kind is decided by the expression. -/
inductive Source.RangesOver (s : Source) (projection : Option Expr) (previous : Position) :
    Expr → Clause → Prop where
  /-- A nested query. -/
  | subQuery {q : Query} :
      RangesOver s projection previous (.subQuery q) (.fromQuery s q projection previous)
  /-- A member. -/
  | member {object : Expr} {name : String} {t : Ty} :
      RangesOver s projection previous (.member object name t)
        (.fromExpr .member s (.member object name t) projection previous)
  /-- Any other sequence. -/
  | additional {e : Expr} (noQuery : ∀ q, e ≠ .subQuery q)
      (noMember : ∀ object name t, e ≠ .member object name t) :
      RangesOver s projection previous e (.fromExpr .additional s e projection previous)

/-! ### Records -/

/-- What is recorded for a node of the clause at the index `i`: the position of the clause, and a
reference to its source if it has one. -/
inductive Clause.Recorded (i : Nat) : Clause → NodeRecord → Prop where
  /-- The source of a from clause. -/
  | fromExpr {kind : FromKind} {s : Source} {e : Expr} {projection : Option Expr}
      {previous : Position} : Recorded i (.fromExpr kind s e projection previous)
        ⟨some (.body i), some ⟨s.id, s.item.name, s.item.type⟩⟩
  /-- The source of a from clause over a nested query. -/
  | fromQuery {s : Source} {q : Query} {projection : Option Expr} {previous : Position} :
      Recorded i (.fromQuery s q projection previous)
        ⟨some (.body i), some ⟨s.id, s.item.name, s.item.type⟩⟩
  /-- A predicate has no source. -/
  | filter {e : Expr} {previous : Position} : Recorded i (.filter e previous) ⟨some (.body i), none⟩
  /-- The name of a value. -/
  | define {s : Source} {e : Expr} {previous : Position} :
      Recorded i (.define s e previous) ⟨some (.body i), some ⟨s.id, s.item.name, s.item.type⟩⟩
  /-- Sort keys have no source. -/
  | orderBy {keys : List SortKey} {previous : Position} :
      Recorded i (.orderBy keys previous) ⟨some (.body i), none⟩

theorem Clause.recorded_iff {i : Nat} {c : Clause} {r : NodeRecord} :
    c.Recorded i r ↔ r = ⟨some (.body i), c.source?.map Source.ref⟩ := by
  constructor
  · rintro (_ | _ | _ | _ | _) <;> rfl
  · rintro rfl
    cases c <;> constructor

/-! ### Resolved lambdas -/

section

variable (chain : Chain) (l : Ledger)

/-- A lambda of the node is resolved to `e` against the node before. -/
def Node.Resolved (n : Node) (lambda : Lambda) (e : Expr) : Prop :=
  ∃ link, n.source = some link ∧ chain.resolveLambda l link lambda = .ok e

/-- A result selector of the node is resolved to `e`: its second parameter stands for the item of
the node itself, its first one for the item of the node before. -/
inductive Node.ResolvedResult (n : Node) (selector : Lambda) (e : Expr) : Prop where
  /-- The body, with both items put in. -/
  | intro {link : NodeId} {outer inner : Param} {item : ItemRef} (source : n.source = some link)
      (params : selector.params = [outer, inner]) (own : l.item n.id = .ok item)
      (resolved :
        chain.resolve l link outer (selector.body.substituteParam inner (.item item)) = .ok e)
      (closed : e.Closed) : ResolvedResult n selector e

/-- What a grouping collects under its key is resolved to `e` against the node before. -/
inductive Node.ResolvedElement (n : Node) (key : Lambda) : Option Lambda → Expr → Prop where
  /-- The value of a selector. -/
  | selector {selector : Lambda} {e : Expr} (resolved : n.Resolved chain l selector e) :
      ResolvedElement n key (some selector) e
  /-- The item itself, for which the parameter of the key stands. -/
  | item {p : Param} {link : NodeId} {e : Expr} (params : key.params = [p])
      (source : n.source = some link) (resolved : chain.resolve l link p (.param p) = .ok e) :
      ResolvedElement n key none e

/-- The argument of an operator is resolved to `e` against the node before. -/
inductive Node.ResolvedArgument (n : Node) : Expr → Expr → Prop where
  /-- A lambda with one parameter. -/
  | lambda {p : Param} {body e : Expr} (resolved : n.Resolved chain l ⟨[p], body⟩ e) :
      ResolvedArgument n (.lambda [p] body) e
  /-- Any other argument stands for itself. -/
  | plain {e : Expr} (plain : ∀ p body, e ≠ .lambda [p] body) : ResolvedArgument n e e

/-! ### Clauses -/

/-- The selection `n` yields `e`. -/
inductive Node.Selects (n : Node) : Expr → Prop where
  /-- The resolved selector. -/
  | intro {selector : Lambda} {e : Expr} (op : n.operation = .select selector)
      (resolved : n.Resolved chain l selector e) : Selects n e

/-- The node makes a key of the order by clause at the index `i`. -/
inductive Node.Sorts (i : Nat) (n : Node) : SortKey → Prop where
  /-- The resolved key. -/
  | intro {key : Lambda} {direction : Direction} {thenBy : Bool} {e : Expr}
      (op : n.operation = .orderBy key direction thenBy) (resolved : n.Resolved chain l key e) :
      Sorts i n ⟨e, direction, some (.body i)⟩

/-- The node makes a clause behind `previous` that needs nothing from other nodes. -/
inductive Node.Adds (n : Node) (previous : Position) : Clause → Prop where
  /-- An iteration over a sequence made from each item, with its projection. -/
  | selectMany {collection selector : Lambda} {e projection : Expr} {outer inner : Param}
      {id : SourceId} {c : Clause} (op : n.operation = .selectMany collection (some selector))
      (params : selector.params = [outer, inner]) (resolved : n.Resolved chain l collection e)
      (result : n.ResolvedResult chain l selector projection)
      (ranges : Source.RangesOver ⟨id, inner⟩ (some projection) previous e c) : Adds n previous c
  /-- A predicate. -/
  | filter {predicate : Lambda} {e : Expr} (op : n.operation = .filter predicate)
      (resolved : n.Resolved chain l predicate e) : Adds n previous (.filter e previous)
  /-- A named value. -/
  | define {name : Param} {value : Lambda} {e : Expr} {id : SourceId}
      (op : n.operation = .define name value) (resolved : n.Resolved chain l value e) :
      Adds n previous (.define ⟨id, name⟩ e previous)

variable (ids : Nat → SourceId) (settings : Settings) (depth : UInt32)

/-- The node makes a from clause behind `previous`, whose projection comes from elsewhere, in a
build at a depth. -/
inductive Node.Iterates (n : Node) (projection : Option Expr) (previous : Position) :
    Clause → Prop where
  /-- An iteration over a sequence. -/
  | mainSource {e : Expr} {type : Ty} {id : SourceId} (op : n.operation = .mainSource e)
      (items : e.type.element? = some type) :
      Iterates n projection previous
        (.fromExpr .additional ⟨id, n.identifier, type⟩ e projection previous)
  /-- An iteration over what the nested chain is built to. -/
  | subQuerySource {inner : Chain} {q : Query} {type : Ty} {id : SourceId} {l' : Ledger}
      {k k' : Nat} (op : n.operation = .subQuerySource inner)
      (built : Runs (inner.build ids settings (depth + 1)) k (q, l') k')
      (items : q.itemType? = some type) :
      Iterates n projection previous
        (.fromQuery ⟨id, n.identifier, type⟩ q projection previous)
  /-- An iteration over a sequence made from each item. -/
  | selectMany {collection : Lambda} {e : Expr} {type : Ty} {id : SourceId} {c : Clause}
      (op : n.operation = .selectMany collection none)
      (resolved : n.Resolved chain l collection e) (items : e.type.element? = some type)
      (ranges : Source.RangesOver ⟨id, n.identifier, type⟩ projection previous e c) :
      Iterates n projection previous c

/-- The group makes a clause, which stands at the index `i`. -/
inductive Group.Makes (i : Nat) (g : Group) : Clause → Prop where
  /-- A from clause, whose projection is what the first selection behind it yields. -/
  | iterates {c : Clause} {n : Node} {e : Expr}
      (head : g.head.Iterates chain l ids settings depth (some e) (.before i) c)
      (alone : g.joined = []) (first : g.selection = some n) (selects : n.Selects chain l e) :
      Makes i g c
  /-- A clause that one node makes. -/
  | adds {c : Clause} (head : g.head.Adds chain l (.before i) c) (alone : g.joined = []) :
      Makes i g c
  /-- An order by clause, one key for each node. -/
  | sorts {keys : List SortKey} (made : List.Forall₂ (Node.Sorts chain l i) g.nodes keys) :
      Makes i g (.orderBy keys (.before i))

/-- The group makes a from clause at the index `i` which still waits for a selection. -/
structure Group.Awaits (i : Nat) (g : Group) (c : Clause) : Prop where
  head : g.head.Iterates chain l ids settings depth none (.before i) c
  alone : g.joined = []
  first : g.selection = none

/-! ### Ends of queries -/

/-- The node makes the main from clause over the expression, with the source. -/
inductive Node.Begins (n : Node) : Source → Expr → Prop where
  /-- An iteration over a sequence. -/
  | mainSource {e : Expr} {type : Ty} {id : SourceId} (op : n.operation = .mainSource e)
      (items : e.type.element? = some type) : Begins n ⟨id, n.identifier, type⟩ e
  /-- An iteration over what the nested chain is built to. -/
  | subQuerySource {inner : Chain} {q : Query} {type : Ty} {id : SourceId} {l' : Ledger}
      {k k' : Nat} (op : n.operation = .subQuerySource inner)
      (built : Runs (inner.build ids settings (depth + 1)) k (q, l') k')
      (items : q.itemType? = some type) : Begins n ⟨id, n.identifier, type⟩ (.subQuery q)

/-- The node says what the query yields. -/
inductive Node.Projects (n : Node) : Projection → Prop where
  /-- The resolved selector. -/
  | select {selector : Lambda} {e : Expr} (op : n.operation = .select selector)
      (resolved : n.Resolved chain l selector e) : Projects n (.select e)
  /-- The resolved result selector. -/
  | selectMany {collection selector : Lambda} {e : Expr}
      (op : n.operation = .selectMany collection (some selector))
      (result : n.ResolvedResult chain l selector e) : Projects n (.select e)
  /-- The resolved key and element. -/
  | groupBy {key : Lambda} {element : Option Lambda} {k e : Expr}
      (op : n.operation = .groupBy key element) (resolved : n.Resolved chain l key k)
      (grouped : n.ResolvedElement chain l key element e) : Projects n (.group k e)

/-- The query ends with the projection, behind `previous`. -/
inductive Projection.Ends (previous : Position) : Projection → Terminal → Prop where
  /-- A selector. -/
  | select {e : Expr} : Ends previous (.select e) (.select e previous)
  /-- A key and what is collected under it. -/
  | group {k e : Expr} : Ends previous (.group k e) (.group k e previous)

/-- The node makes an operator on the result. -/
inductive Node.Operates (n : Node) : ResultOp → Prop where
  /-- A change of the item type. -/
  | cast {kind : CastKind} {type : Ty} (op : n.operation = .cast kind type) :
      Operates n (.cast kind type)
  /-- An operator that takes nothing else. -/
  | plain {o : PlainOp} (op : n.operation = .resultOperator (.plain o)) : Operates n (.plain o)
  /-- One item of the result. -/
  | pick {o : PickOp} {orDefault : Bool}
      (op : n.operation = .resultOperator (.pick o orDefault)) : Operates n (.pick o orDefault)
  /-- An operator with its argument resolved. -/
  | argument {o : ArgumentOp} {arg e : Expr} (op : n.operation = .resultOperator (.argument o arg))
      (resolved : n.ResolvedArgument chain l arg e) : Operates n (.argument o e)

end

/-! ### What is resolved -/

section

variable {chain : Chain} {l : Ledger} {n : Node} {link : NodeId} {e : Expr}

theorem Node.resolvedResult_iff {selector : Lambda} :
    n.ResolvedResult chain l selector e ↔ ∃ link, n.source = some link ∧
      selector.resolveResult l n (.ok ()) (chain.resolve l link) = .ok e := by
  constructor
  · rintro ⟨source, params, own, resolved, closed⟩
    exact ⟨_, source, Lambda.resolveResult_eq_ok_iff.mpr
      ⟨_, _, _, params, own, rfl, resolved, closed⟩⟩
  · rintro ⟨link, source, h⟩
    obtain ⟨outer, inner, item, params, own, -, resolved, closed⟩ :=
      Lambda.resolveResult_eq_ok_iff.mp h
    exact ⟨source, params, own, resolved, closed⟩

theorem Node.ResolvedElement.of_groupElement {key : Lambda} {element : Option Lambda}
    (source : n.source = some link) (h : groupElement (m := Id) chain l link key element = .ok e) :
    n.ResolvedElement chain l key element e := by
  cases element with
  | some selector => exact .selector ⟨link, source, h⟩
  | none =>
    rw [groupElement.eq_def] at h
    cases hs : key.single? with
    | none => simp [hs] at h
    | some p =>
      rw [hs] at h
      exact .item (Lambda.single?_eq_some_iff.mp hs) source h

theorem Node.ResolvedArgument.of_resolveArgument {arg : Expr} (source : n.source = some link)
    (h : resolveArgument (m := Id) chain l link arg = .ok e) :
    n.ResolvedArgument chain l arg e := by
  unfold resolveArgument at h
  split at h
  · exact .lambda ⟨link, source, h⟩
  · rename_i other
    cases h
    exact .plain fun p body heq => other p body heq

theorem Node.Operates.of_replaceM {o o' : ResultOp} (op : n.operation = .resultOperator o)
    (plain : o.castType? = none) (source : n.source = some link)
    (h : o.replaceM (resolveArgument (m := Id) chain l link) = .ok o') :
    n.Operates chain l o' := by
  rcases ResultOp.replaceM_eq_ok_iff.mp h with ⟨kind, arg, e, rfl, he, rfl⟩ | ⟨none, rfl⟩
  · exact .argument op (.of_resolveArgument source he)
  · cases o' with
    | cast _ _ => cases plain
    | plain _ => exact .plain op
    | pick _ _ => exact .pick op
    | argument _ _ => cases none

end

/-! ### Clauses that range over an expression -/

namespace Source.RangesOver

variable {s : Source} {projection : Option Expr} {previous : Position} {e : Expr} {c : Clause}

theorem fromClause : s.RangesOver none .main e (Node.fromClause s e) := by
  cases e with
  | subQuery _ => exact .subQuery
  | member _ _ _ => exact .member
  | _ => exact .additional nofun nofun

theorem attach (h : s.RangesOver projection previous e c) (position previous' : Position) :
    s.RangesOver projection previous' e (c.attach position previous') := by
  cases h with
  | subQuery => exact .subQuery
  | member => exact .member
  | additional noQuery noMember => exact .additional noQuery noMember

theorem withProjection? (h : s.RangesOver projection previous e c) {e' : Expr} {c' : Clause}
    (projected : c.withProjection? e' = some c') : s.RangesOver (some e') previous e c' := by
  cases h with
  | subQuery =>
    cases projected
    exact .subQuery
  | member =>
    cases projected
    exact .member
  | additional noQuery noMember =>
    cases projected
    exact .additional noQuery noMember

theorem projectedFrom (projection : Expr) :
    s.RangesOver (some projection) .main e (Node.projectedFrom s e projection) :=
  fromClause.withProjection? (Node.withProjection?_fromClause s e projection)

theorem source? (h : s.RangesOver projection previous e c) : c.source? = some s := by
  cases h <;> rfl

/-- It is a from clause, with the projection. -/
theorem isFrom (h : s.RangesOver projection previous e c) :
    c.isFrom = true ∧ c.keys? = none ∧ c.projection? = projection := by
  cases h <;> exact ⟨rfl, rfl, rfl⟩

end Source.RangesOver

theorem Projection.ends (previous : Position) (p : Projection) :
    p.Ends previous (p.terminal.attach previous) := by
  cases p with
  | select _ => exact .select
  | group _ _ => exact .group

/-! ### Further records -/

section

variable {chain : Chain} {l l' : Ledger} {ids : Nat → SourceId} {settings : Settings}
  {depth : UInt32} {n : Node} {i : Nat} {g : Group} {e : Expr} {c : Clause}
  {projection : Option Expr} {previous : Position}

theorem Node.Resolved.extends (h : l.Extends l') {lambda : Lambda}
    (hr : n.Resolved chain l lambda e) : n.Resolved chain l' lambda e := by
  obtain ⟨link, source, resolved⟩ := hr
  exact ⟨link, source, Chain.resolveLambda_extends h resolved⟩

theorem Node.ResolvedResult.extends (h : l.Extends l') {selector : Lambda}
    (hr : n.ResolvedResult chain l selector e) : n.ResolvedResult chain l' selector e := by
  obtain ⟨source, params, own, resolved, closed⟩ := hr
  exact ⟨source, params, h.item own, Chain.resolve_extends h resolved, closed⟩

theorem Node.ResolvedElement.extends (h : l.Extends l') {key : Lambda} {element : Option Lambda}
    (hr : n.ResolvedElement chain l key element e) : n.ResolvedElement chain l' key element e := by
  cases hr with
  | selector resolved => exact .selector (resolved.extends h)
  | item params source resolved => exact .item params source (Chain.resolve_extends h resolved)

theorem Node.ResolvedArgument.extends (h : l.Extends l') {arg : Expr}
    (hr : n.ResolvedArgument chain l arg e) : n.ResolvedArgument chain l' arg e := by
  cases hr with
  | lambda resolved => exact .lambda (resolved.extends h)
  | plain other => exact .plain other

theorem Node.Selects.extends (h : l.Extends l') (hs : n.Selects chain l e) :
    n.Selects chain l' e := by
  obtain ⟨op, resolved⟩ := hs
  exact ⟨op, resolved.extends h⟩

theorem Node.Sorts.extends (h : l.Extends l') {k : SortKey} (hs : n.Sorts chain l i k) :
    n.Sorts chain l' i k := by
  obtain ⟨op, resolved⟩ := hs
  exact ⟨op, resolved.extends h⟩

theorem Node.Adds.extends (h : l.Extends l') (ha : n.Adds chain l previous c) :
    n.Adds chain l' previous c := by
  cases ha with
  | selectMany op params resolved result ranges =>
    exact .selectMany op params (resolved.extends h) (result.extends h) ranges
  | filter op resolved => exact .filter op (resolved.extends h)
  | define op resolved => exact .define op (resolved.extends h)

theorem Node.Iterates.extends (h : l.Extends l')
    (hi : n.Iterates chain l ids settings depth projection previous c) :
    n.Iterates chain l' ids settings depth projection previous c := by
  cases hi with
  | mainSource op items => exact .mainSource op items
  | subQuerySource op built items => exact .subQuerySource op built items
  | selectMany op resolved items ranges => exact .selectMany op (resolved.extends h) items ranges

theorem Group.Makes.extends (h : l.Extends l') (hm : g.Makes chain l ids settings depth i c) :
    g.Makes chain l' ids settings depth i c := by
  cases hm with
  | iterates head alone first selects =>
    exact .iterates (head.extends h) alone first (selects.extends h)
  | adds head alone => exact .adds (head.extends h) alone
  | sorts keys => exact .sorts (keys.imp fun _ _ => Node.Sorts.extends h)

theorem Group.Awaits.extends (h : l.Extends l') (ha : g.Awaits chain l ids settings depth i c) :
    g.Awaits chain l' ids settings depth i c := by
  obtain ⟨head, alone, first⟩ := ha
  exact ⟨head.extends h, alone, first⟩

theorem Node.Projects.extends (h : l.Extends l') {p : Projection} (hp : n.Projects chain l p) :
    n.Projects chain l' p := by
  cases hp with
  | select op resolved => exact .select op (resolved.extends h)
  | selectMany op result => exact .selectMany op (result.extends h)
  | groupBy op resolved grouped => exact .groupBy op (resolved.extends h) (grouped.extends h)

theorem Node.Operates.extends (h : l.Extends l') {o : ResultOp} (ho : n.Operates chain l o) :
    n.Operates chain l' o := by
  cases ho with
  | cast op => exact .cast op
  | plain op => exact .plain op
  | pick op => exact .pick op
  | argument op resolved => exact .argument op (resolved.extends h)

/-! ### Clauses of groups -/

theorem Node.Iterates.withProjection?
    (h : n.Iterates chain l ids settings depth projection previous c) {c' : Clause}
    (projected : c.withProjection? e = some c') :
    n.Iterates chain l ids settings depth (some e) previous c' := by
  cases h with
  | mainSource op items =>
    cases projected
    exact .mainSource op items
  | subQuerySource op built items =>
    cases projected
    exact .subQuerySource op built items
  | selectMany op resolved items ranges =>
    exact .selectMany op resolved items (ranges.withProjection? projected)

/-- A further selection changes nothing once there is one. -/
theorem Group.Makes.select (hm : g.Makes chain l ids settings depth i c) (n : Node) :
    (g.select n).Makes chain l ids settings depth i c := by
  cases hm with
  | iterates head alone first selects =>
    refine .iterates head alone ?_ selects
    rw [Group.select, first, Option.some_or]
  | adds head alone => exact .adds head alone
  | sorts keys => exact .sorts keys

/-- A clause that waits gets its projection from a selection. -/
theorem Group.Awaits.select {c' : Clause} (ha : g.Awaits chain l ids settings depth i c)
    (selects : n.Selects chain l e) (projected : c.withProjection? e = some c') :
    (g.select n).Makes chain l ids settings depth i c' := by
  refine .iterates (ha.head.withProjection? projected) ha.alone ?_ selects
  rw [Group.select, ha.first, Option.none_or]

theorem Node.Iterates.isFrom (h : n.Iterates chain l ids settings depth projection previous c) :
    c.isFrom = true ∧ c.keys? = none ∧ c.projection? = projection := by
  cases h with
  | mainSource _ | subQuerySource _ => exact ⟨rfl, rfl, rfl⟩
  | selectMany _ _ _ ranges => exact ranges.isFrom

theorem Node.Iterates.not_sorts
    (h : n.Iterates chain l ids settings depth projection previous c) :
    n.operation.sorts = false ∧ c.keys? = none := by
  refine ⟨?_, h.isFrom.2.1⟩
  cases h with
  | mainSource op | subQuerySource op | selectMany op => rw [op]; rfl

theorem Node.Adds.not_sorts (h : n.Adds chain l previous c) :
    n.operation.sorts = false ∧ c.keys? = none := by
  cases h with
  | selectMany op _ _ _ ranges => exact ⟨by rw [op]; rfl, ranges.isFrom.2.1⟩
  | filter op | define op => exact ⟨by rw [op]; rfl, rfl⟩

end

end QueryFold
