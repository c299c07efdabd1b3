import QueryFold.Proofs.Chain.Discharge
import QueryFold.Proofs.Chain.Walk

/-!
# Types of what is resolved

Types are passed along and never checked. The type of the items of a node is read off the lambdas
as they are written, and resolution puts references, projections and conversions into them. The two
fit together if the parameter of every selector has the type of the items that it stands for: then
a resolved expression has the type that it had before (`resolve_keeps_type`).

Everything that resolution puts in has the type of what it replaces (`Expr.type_substituteParam`),
at a source by the record of its item, at a selector by induction along the route, and at a cast
since the conversion has the type of the cast.
-/

namespace QueryFold

/-- The type of an expression is kept when a parameter is replaced by something of its type. The
type of a lambda is that of its body, so this goes by induction. -/
theorem Expr.type_substituteParam {p : Param} {r : Expr} (h : r.type = p.type) (e : Expr) :
    (e.substituteParam p r).type = e.type := by
  induction e using Expr.induction with
  | step e ih =>
    by_cases plain : e.Plain
    · rw [substituteParam_plain plain]
      cases e with
      | param _ | item _ | lambda _ _ | subQuery _ => exact plain.elim
      | _ => rfl
    · cases e with
      | param q =>
        rw [substituteParam_param]
        split_ifs with same
        · rw [h, same, type]
        · rfl
      | lambda ps body =>
        rw [substituteParam_lambda]
        split_ifs with bound
        · rfl
        · simp only [type, ih body (by simp [children])]
      | item _ => rw [substituteParam_item]
      | subQuery _ => rw [substituteParam_subQuery]
      | _ => exact absurd trivial plain

/-! ### Typed selectors -/

namespace Operation

/-- The item of the source that an operation introduces, where the operation holds it as a
parameter. -/
def item? : Operation → Option Param
  | define name _ => some name
  | selectMany _ (some selector) => selector.params[1]?
  | _ => none

end Operation

/-- The first parameter of each selector of the node has the type of the items that it takes. -/
def Node.Typed (c : Chain) (l : Ledger) (n : Node) : Prop :=
  ∀ selector ∈ n.operation.selectors, ∀ p, selector.params.head? = some p →
    ∀ link, n.source = some link → c.itemType l link = .ok p.type

/-- The nodes from a node on, along the links, group nothing, lead to a source, and have typed
selectors. -/
structure Chain.TypedFrom (c : Chain) (l : Ledger) (id : NodeId) : Prop where
  ungrouped : ∀ n ∈ (c.route id).nodes, n.operation.groups = false
  linked : ∀ n ∈ (c.route id).nodes, n.operation.isSource = false → n.source ≠ none
  typed : ∀ n ∈ (c.route id).nodes, n.Typed c l

namespace Route

/-- On the route, the first parameter of each selector has the type of the items of the rest. -/
def Typed (l : Ledger) : Route → Prop
  | via n rest =>
    (∀ selector ∈ n.operation.selectors, ∀ p, selector.params.head? = some p →
      rest.itemType l = .ok p.type) ∧ rest.Typed l
  | _ => True

/-- The items that are recorded on the route have the types that the operations say. -/
def Recorded (l : Ledger) (route : Route) : Prop :=
  ∀ n ∈ route.nodes, ∀ p, n.operation.item? = some p → ∀ r, l.item n.id = .ok r → r.type = p.type

variable {l : Ledger} {route : Route} {p : Param} {body e : Expr}

/-- **Resolution keeps the type** of an expression about an item, whose parameter has the type of
the item. -/
theorem Resolves.type_eq_of_typed (h : route.Resolves l p body e) (typed : route.Typed l)
    (recorded : route.Recorded l) (item : route.itemType l = .ok p.type) : e.type = body.type := by
  have here : ∀ {n : Node} {rest : Route}, (via n rest).Recorded l →
      ∀ p, n.operation.item? = some p → ∀ r, l.item n.id = .ok r → r.type = p.type :=
    fun h => h _ List.mem_cons_self
  have others : ∀ {n : Node} {rest : Route}, (via n rest).Recorded l → rest.Recorded l :=
    fun h m hm => h m (List.mem_cons_of_mem _ hm)
  induction h with
  | item op found =>
    rw [itemType_of_bindsItem op found, Except.ok.injEq] at item
    exact Expr.type_substituteParam (r := .item _) item _
  | @result n rest p body e collection selector outer inner r op params found _ _ _ ih =>
    have outer_type := typed.1 selector (by simp [op, Operation.selectors]) outer (by simp [params])
    have inner_type := here recorded inner (by simp [op, Operation.item?, params]) r found
    have selected : e.type = selector.body.type :=
      (ih typed.2 (others recorded) outer_type).trans
        (Expr.type_substituteParam (r := .item r) inner_type _)
    simp only [itemType, op, Except.ok.injEq] at item
    exact Expr.type_substituteParam (selected.trans item) body
  | @select n rest p body e selector param op params _ _ _ ih =>
    have param_type := typed.1 selector (by simp [op, Operation.selectors]) param (by simp [params])
    have selected := ih typed.2 (others recorded) param_type
    simp only [itemType, op, Except.ok.injEq] at item
    exact Expr.type_substituteParam (selected.trans item) body
  | @define n rest p body e name value r op _ found ih =>
    have name_type := here recorded name (by simp [op, Operation.item?]) r found
    rw [Expr.type_substituteParam (r := .item r) name_type]
    exact ih typed.2 (others recorded) (by simpa only [itemType, op] using item)
  | @cast n rest p body e kind type t op items _ ih =>
    simp only [itemType, op, Except.ok.injEq] at item
    exact (ih typed.2 (others recorded) items).trans
      (Expr.type_substituteParam (r := .convert _ type) item body)
  | pass op _ ih =>
    exact ih typed.2 (others recorded) (by rwa [itemType_of_passesItem op] at item)

end Route

/-! ### Chains that were built -/

theorem Node.Begins.isSource {ids : Nat → SourceId} {settings : Settings} {depth : UInt32}
    {n : Node} {s : Source} {e : Expr} (h : n.Begins ids settings depth s e) :
    n.operation.isSource = true := by
  cases h with
  | mainSource op | subQuerySource op => rw [op]; rfl

namespace Chain

variable {ids : Nat → SourceId} {settings : Settings} {depth : UInt32} {c : Chain} {l : Ledger}

/-- The item recorded for a node has the type that the operation says. -/
theorem Image.item_type {first : Node} {rest : List Node} {q : Query}
    (h : c.Image ids settings depth first rest q l) {n : Node} (hn : n ∈ first :: rest) {p : Param}
    (item : n.operation.item? = some p) {r : ItemRef} (found : l.item n.id = .ok r) :
    r.type = p.type := by
  rcases List.mem_cons.mp hn with rfl | hn
  · have source := h.begins.isSource
    cases op : n.operation <;> simp_all [Operation.item?, Operation.isSource]
  · obtain ⟨placed, unsorted⟩ : n.operation.inBody = true ∧ n.operation.sorts = false := by
      cases op : n.operation <;>
        simp_all [Operation.item?, Operation.inBody, Operation.sorts]
    obtain ⟨i, g, clause, mem, -, makes, recorded⟩ := h.exists_clause hn placed
    obtain ⟨_, hr, source⟩ := Ledger.item_eq_ok_iff.mp found
    obtain rfl := Option.some.inj (recorded.symm.trans hr)
    obtain ⟨s, hs, rfl⟩ := Option.map_eq_some_iff.mp source
    obtain ⟨rfl, ⟨_, head⟩ | head⟩ := makes.eq_head mem unsorted
    · cases head with
      | mainSource op | subQuerySource op | selectMany op => simp [op, Operation.item?] at item
    · cases head with
      | selectMany op params _ _ ranges =>
        simp only [op, Operation.item?, params] at item
        cases item
        cases ranges.source?.symm.trans hs
        rfl
      | filter op => simp [op, Operation.item?] at item
      | define op =>
        simp only [op, Operation.item?, Option.some.injEq] at item
        cases hs
        rw [← item]
        rfl

theorem Built.recorded {k k' : Nat} {q : Query} (h : c.Built ids settings depth k q l k')
    (id : NodeId) : (c.route id).Recorded l := by
  obtain ⟨first, rest, nodes, image⟩ := h.image
  intro n hn p item r found
  exact image.item_type (nodes ▸ mem_of_mem_route hn) item found

/-- If the selectors of the nodes from a node on are typed, so are those of the route. -/
theorem Built.route_typed {k k' : Nat} {q : Query} (h : c.Built ids settings depth k q l k')
    {id : NodeId} (typed : ∀ n ∈ (c.route id).nodes, n.Typed c l) : (c.route id).Typed l := by
  induction hi : id.value using Nat.strongRecOn generalizing id with
  | _ i ih =>
    cases here : c.nodes[id.value]? with
    | none =>
      rw [route, routeWithin, here]
      trivial
    | some n =>
      rw [h.linked.route_eq here] at typed ⊢
      obtain ⟨selectors, typed⟩ := List.forall_mem_cons.mp typed
      have link := h.source_ne_none n (List.mem_of_getElem? here)
      cases source : n.source with
      | none =>
        rw [routeAfter, source]
        refine ⟨fun selector hs => ?_, trivial⟩
        cases op : n.operation <;>
          simp_all [Operation.selectors, Operation.isSource, Operation.castType?]
      | some before =>
        have rest : c.routeAfter n = c.route before := by rw [routeAfter, source]
        rw [rest] at typed ⊢
        have hlt := h.linked.backward _ n before here source
        exact ⟨fun selector hs p hp => selectors selector hs p hp before source,
          ih before.value (hi ▸ hlt) typed rfl⟩

theorem Built.exists_resolve_typed {k k' : Nat} {q : Query}
    (h : c.Built ids settings depth k q l k') {id : NodeId} (typed : c.TypedFrom l id) {p : Param}
    (item : c.itemType l id = .ok p.type) (body : Expr) :
    ∃ e, c.resolve l id p body = .ok e ∧ e.type = body.type := by
  have here : id.value < c.nodes.length := by
    by_contra hid
    rw [itemType, route, routeWithin, List.getElem?_eq_none (by omega)] at item
    cases item
  have leads := h.linked.leads_of_walk here
    (fun n hn => typed.ungrouped n (Route.walk_subset_nodes _ hn))
    (fun n hn => typed.linked n (Route.walk_subset_nodes _ hn))
  obtain ⟨e, resolves⟩ := (h.settled_route leads).resolves p body
  exact ⟨e, Route.resolve_eq_ok_iff.mpr resolves,
    resolves.type_eq_of_typed (h.route_typed typed.typed) (h.recorded id) item⟩

end Chain

/-- **Resolution keeps types**: an expression about an item of a node is resolved to one of its
type, if its parameter and those of the selectors on the way have the types of the items for which
they stand. -/
theorem resolve_keeps_type {ids : Nat → SourceId} {settings : Settings} {chain : Chain} {k k' : Nat}
    {q : Query} {l : Ledger} (h : Runs (chain.toQuery ids settings) k (q, l) k') {id : NodeId}
    (typed : chain.TypedFrom l id) {p : Param} (item : chain.itemType l id = .ok p.type)
    (body : Expr) : ∃ e, chain.resolve l id p body = .ok e ∧ e.type = body.type :=
  (Chain.build_runs_iff.mp h).exists_resolve_typed typed item body

namespace Sample

/-- The chefs of the cooks, as cooks. -/
def bosses : Chain :=
  Chain.empty (Ty.queryable cook.type)
    |>.push "c" (.mainSource cooks)
    |>.push "c" (.define title ⟨[cook], name⟩)
    |>.push "c" (.select ⟨[cook], .member (.param cook) "Chef" chef.type⟩)
    |>.push "c" (.cast .cast cook.type)

theorem typed_bosses {l : Ledger} (found : l.item ⟨0⟩ = .ok cookItem) :
    ∀ n ∈ bosses.nodes, n.Typed bosses l := by
  have items : (bosses.route ⟨0⟩).itemType l = .ok cook.type :=
    Route.itemType_of_bindsItem (n := ⟨⟨0⟩, none, "c", "MainSource", .mainSource cooks⟩) rfl found
  intro n hn selector hs p hp link source
  obtain rfl : n = ⟨⟨2⟩, some ⟨1⟩, "c", "Select",
      .select ⟨[cook], .member (.param cook) "Chef" chef.type⟩⟩ := by
    rcases hn with _ | ⟨_, _ | ⟨_, _ | ⟨_, _ | ⟨_, ⟨⟩⟩⟩⟩⟩ <;> first | rfl | cases hs
  obtain rfl := List.mem_singleton.mp hs
  cases hp
  cases source
  exact items

end Sample

theorem resolve_keeps_type_bosses : ∃ q l k,
    Runs (Sample.bosses.toQuery SourceId.countUp {}) 0 (q, l) k ∧
      ∀ body, ∃ e, Sample.bosses.resolve l ⟨3⟩ Sample.helper body = .ok e ∧ e.type = body.type := by
  obtain ⟨q, l, k, h, items⟩ :=
    Sample.exists_runs_recording Sample.bosses [(⟨0⟩, Sample.cookItem)] (by decide +kernel)
  have nodes : (Sample.bosses.route ⟨3⟩).nodes = Sample.bosses.nodes.reverse := rfl
  have typed : Sample.bosses.TypedFrom l ⟨3⟩ := by
    refine ⟨?_, ?_, fun n hn => ?_⟩
    · rw [nodes]
      decide
    · rw [nodes]
      decide
    · exact Sample.typed_bosses (items _ List.mem_cons_self) n (Chain.mem_of_mem_route hn)
  exact ⟨q, l, k, h, resolve_keeps_type h typed (p := Sample.helper) rfl⟩

end QueryFold
