import QueryFold.Proofs.Chain.Casting

/-!
# Walks to an item

To find out what an item of a node is, the links are followed to the first node that has items of
its own: a source or a projection. The nodes that are met are the *walk* from the node. Only they
decide whether there is an item at all (`Chain.Linked.leads_of_walk`), and which names of values an
expression about it may use.
-/

namespace QueryFold

/-! ### Operations -/

namespace Operation

/-- Whether an operation has items of its own. -/
def renews : Operation → Bool
  | mainSource _ | subQuerySource _ | selectMany _ _ | select _ => true
  | _ => false

/-- The type to which an operation changes the type of the items. -/
def castType? : Operation → Option Ty
  | cast _ type => some type
  | _ => none

/-- The name that an operation gives to a value. -/
def name? : Operation → Option Param
  | define name _ => some name
  | _ => none

theorem name?_of_renews {op : Operation} (h : op.renews = true) : op.name? = none := by
  cases op with
  | define _ _ => cases h
  | _ => rfl

theorem isSource_of_not_renews {op : Operation} (h : op.renews = false) : op.isSource = false := by
  cases op with
  | mainSource _ | subQuerySource _ => cases h
  | _ => rfl

theorem renews_of_bindsItem {op : Operation} (h : op.bindsItem = true) : op.renews = true := by
  cases op with
  | mainSource _ | subQuerySource _ | selectMany _ _ => rfl
  | _ => cases h

theorem goesOn_of_passesItem {op : Operation} (h : op.passesItem = true) :
    op.renews = false ∧ op.name? = none := by
  cases op with
  | filter _ | orderBy _ _ _ | resultOperator _ => exact ⟨rfl, rfl⟩
  | _ => cases h

end Operation

/-! ### Walks -/

namespace Route

/-- The nodes that are met up to the first one with items of its own. -/
def walk : Route → List Node
  | via n rest => n :: if n.operation.renews then [] else rest.walk
  | _ => []

/-- The names of the values that are met on the walk. -/
def names (route : Route) : List Param := route.walk.filterMap fun n => n.operation.name?

theorem names_of_renews {n : Node} {rest : Route} (h : n.operation.renews = true) :
    (via n rest).names = [] := by
  rw [names, walk, if_pos h, List.filterMap_cons, Operation.name?_of_renews h]
  rfl

theorem names_of_not_renews {n : Node} {rest : Route} (h : n.operation.renews = false) :
    (via n rest).names = n.operation.name?.toList ++ rest.names := by
  rw [names, walk, h, List.filterMap_cons]
  cases n.operation.name? <;> rfl

theorem walk_subset_nodes (route : Route) : route.walk ⊆ route.nodes := by
  induction route with
  | via n rest ih =>
    rw [walk, nodes]
    split_ifs
    · simp
    · exact List.cons_subset_cons n ih
  | _ => exact List.Subset.refl _

/-- What is true of the nodes of a walk is true of the first node, and of those on the way on. -/
theorem forall_mem_walk_iff {P : Node → Prop} {n : Node} {rest : Route} :
    (∀ m ∈ (via n rest).walk, P m) ↔
      P n ∧ (n.operation.renews = false → ∀ m ∈ rest.walk, P m) := by
  rw [walk, List.forall_mem_cons]
  cases n.operation.renews <;> simp

end Route

namespace Chain

variable {c : Chain}

/-- A walk past no grouping, on which no link is missing, leads to an item. -/
theorem Linked.leads_of_walk (hc : c.Linked) {id : NodeId} (hid : id.value < c.nodes.length)
    (ungrouped : ∀ n ∈ (c.route id).walk, n.operation.groups = false)
    (linked : ∀ n ∈ (c.route id).walk, n.operation.isSource = false → n.source ≠ none) :
    (c.route id).Leads := by
  induction hi : id.value using Nat.strongRecOn generalizing id with
  | _ i ih =>
    have here := List.getElem?_eq_getElem hid
    generalize c.nodes[id.value] = n at here
    rw [hc.route_eq here] at ungrouped linked ⊢
    obtain ⟨alone, ungrouped⟩ := Route.forall_mem_walk_iff.mp ungrouped
    obtain ⟨link, linked⟩ := Route.forall_mem_walk_iff.mp linked
    have before : n.operation.renews = false → (c.routeAfter n).Leads := by
      intro renews
      obtain ⟨source, hs⟩ :=
        Option.ne_none_iff_exists'.mp (link (Operation.isSource_of_not_renews renews))
      have hlt := hc.backward _ n source here hs
      have rest : c.routeAfter n = c.route source := by rw [routeAfter, hs]
      rw [rest] at ungrouped linked ⊢
      exact ih source.value (hi ▸ hlt) (Nat.lt_trans hlt hid) (ungrouped renews) (linked renews) rfl
    rw [Route.Leads]
    cases op : n.operation with
    | mainSource _ | subQuerySource _ | selectMany _ _ | select _ => trivial
    | groupBy _ _ => simp [op, Operation.groups] at alone
    | filter _ | orderBy _ _ _ | define _ _ | cast _ _ | resultOperator _ =>
      exact before (by rw [op]; rfl)

variable {ids : Nat → SourceId} {settings : Settings} {depth : UInt32} {l : Ledger}

theorem Built.linked {k k' : Nat} {q : Query} (h : c.Built ids settings depth k q l k') :
    c.Linked := by
  cases h with
  | intro _ _ linked => exact linked_of_checkLinks linked

/-- Only sources and casts can be applied without a link. -/
theorem Built.source_ne_none {k k' : Nat} {q : Query} (h : c.Built ids settings depth k q l k') :
    ∀ n ∈ c.nodes, n.operation.isSource = false → n.operation.castType? = none →
      n.source ≠ none := by
  have first : ∀ n, c.nodes[0]? = some n → n.operation.isSource = true := fun n => h.isSource
  obtain @⟨m, rest, b, b', p, _, nodes, _, start, steps⟩ := h
  have others := steps.invariant [] (I := fun done _ => ∀ n ∈ done, n.operation.isSource = false →
    n.operation.castType? = none → n.source ≠ none) (fun done n b b' _ hI _ step => ?_) nofun
  · intro n hn started
    rcases List.mem_cons.mp (nodes ▸ hn) with rfl | hn
    · rw [first n (by simp [nodes])] at started
      cases started
    · exact others n hn started
  · intro m hm started uncast
    rcases List.mem_append.mp hm with hm | hm
    · exact hI m hm started uncast
    · obtain rfl := List.mem_singleton.mp hm
      cases step with
      | mainSource op | subQuerySource op => simp [op, Operation.isSource] at started
      | cast op | ofType op => simp [op, Operation.castType?] at uncast
      | selectMany _ _ source | selectManyResult _ _ _ source | filter _ _ source
      | define _ _ source | orderBy _ _ source | thenBy _ _ source | select _ _ source
      | groupBy _ _ _ source | resultOperator _ _ source => simp [source]

end Chain

end QueryFold
