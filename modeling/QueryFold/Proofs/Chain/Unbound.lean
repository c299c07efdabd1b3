import QueryFold.Proofs.Chain.Typing
import QueryFold.Proofs.Expr.Listing

/-!
# Unbound names

A lambda about an item of a node may use its parameter, and the names of the values that are met on
the walk to the item. Other names are unbound, and resolution fails at the first of them: this is
`resolveLambda_iff_bound`, for walks on which nothing is cast.

The check for unbound names is made when everything is substituted. What is put in has no free
parameters, so the check sees what is left of the list of the body (`Route.PutsIn.freeParams_eq`).
A cast gives the parameter another type on the way, which is why it is left out here.
-/

namespace QueryFold

/-! ### Substitutions along a walk -/

namespace Route

variable {l : Ledger} {route : Route}

/-- Resolution along the route puts in an item for the parameter, and then the references to the
values that are named on the walk; nothing that is put in has free parameters. -/
structure PutsIn (l : Ledger) (route : Route) (item : Expr) (values : List (Param × Expr)) :
    Prop where
  item_closed : item.Closed
  values_closed : ∀ b ∈ values, b.2.Closed
  names : values.map Prod.fst = route.names
  resolves : ∀ p body,
    route.Resolves l p body (.substituteAll values.reverse (body.substituteParam p item))

/-- Something is put in wherever nothing is cast. The induction follows the links, and names a value
where it comes back. -/
theorem Settled.exists_putsIn (h : route.Settled l)
    (uncast : ∀ n ∈ route.walk, n.operation.castType? = none) :
    ∃ item values, route.PutsIn l item values := by
  induction h with
  | @item n rest r op recorded =>
    exact ⟨.item r, [], Expr.closed_item r, List.forall_mem_nil _,
      (names_of_renews (Operation.renews_of_bindsItem op)).symm, fun _ _ => .item op recorded⟩
  | @result n rest collection selector e op resolved =>
    obtain ⟨outer, inner, r, params, recorded, linked, selected, closed⟩ :=
      Lambda.resolveResult_eq_ok_iff.mp resolved
    exact ⟨e, [], closed, List.forall_mem_nil _, (names_of_renews (by rw [op]; rfl)).symm,
      fun _ _ => .result op params recorded linked (resolve_eq_ok_iff.mp selected) closed⟩
  | @select n rest selector e op linked resolved =>
    obtain ⟨param, params, selected, closed⟩ := Lambda.resolveBy_eq_ok_iff.mp resolved
    exact ⟨e, [], closed, List.forall_mem_nil _, (names_of_renews (by rw [op]; rfl)).symm,
      fun _ _ => .select op params linked (resolve_eq_ok_iff.mp selected) closed⟩
  | @define n rest name value r op recorded _ ih =>
    have goesOn : n.operation.renews = false := by rw [op]; rfl
    obtain ⟨item, values, item_closed, values_closed, names, resolves⟩ :=
      ih ((forall_mem_walk_iff.mp uncast).2 goesOn)
    refine ⟨item, (name, .item r) :: values, item_closed,
      List.forall_mem_cons.mpr ⟨Expr.closed_item r, values_closed⟩, ?_, fun p body => ?_⟩
    · rw [names_of_not_renews goesOn, op, List.map_cons, names]
      rfl
    · rw [List.reverse_cons, Expr.substituteAll, List.foldl_append]
      exact .define op (resolves p body) recorded
  | @cast n rest kind type op _ _ =>
    have here := (forall_mem_walk_iff.mp uncast).1
    rw [op] at here
    cases here
  | @pass n rest op _ ih =>
    obtain ⟨goesOn, unnamed⟩ := Operation.goesOn_of_passesItem op
    obtain ⟨item, values, item_closed, values_closed, names, resolves⟩ :=
      ih ((forall_mem_walk_iff.mp uncast).2 goesOn)
    refine ⟨item, values, item_closed, values_closed, ?_, fun p body => .pass op (resolves p body)⟩
    rw [names_of_not_renews goesOn, unnamed, names]
    rfl

/-- Of the free parameters of the body those are left that are neither the one that is resolved nor
the name of a value. -/
theorem PutsIn.freeParams_eq {item : Expr} {values : List (Param × Expr)}
    (h : route.PutsIn l item values) (p : Param) (body : Expr) :
    (Expr.substituteAll values.reverse (body.substituteParam p item)).freeParams =
      body.freeParams.filter fun x => x ≠ p ∧ x ∉ route.names := by
  rw [Expr.freeParams_substituteAll fun b hb => h.values_closed b (List.mem_reverse.mp hb),
    Expr.freeParams_substituteParam h.item_closed, List.filter_filter, List.map_reverse, h.names]
  refine List.filter_congr fun x _ => ?_
  rw [← Bool.decide_and, decide_eq_decide, List.mem_reverse, and_comm]

/-- Nothing is left if each free parameter of the body is one of those. -/
theorem PutsIn.closed_iff {item : Expr} {values : List (Param × Expr)}
    (h : route.PutsIn l item values) {p : Param} {body : Expr} :
    (Expr.substituteAll values.reverse (body.substituteParam p item)).Closed ↔
      ∀ x ∈ body.freeParams, x = p ∨ x ∈ route.names := by
  rw [← Expr.freeParams_eq_nil_iff, h.freeParams_eq, List.filter_eq_nil_iff]
  simp only [decide_eq_true_eq, not_and_or, not_not]

end Route

/-! ### Lambdas -/

theorem Lambda.resolveBy_eq_error {lambda : Lambda}
    {resolve : Param → Expr → Except BuildError Expr} {p x : Param} {e : Expr}
    {others : List Param} (params : lambda.params = [p]) (resolved : resolve p lambda.body = .ok e)
    (free : e.freeParams = x :: others) :
    lambda.resolveBy resolve = .error (.unresolvable x.name) := by
  have unary : lambda.unary = .ok p := by rw [Lambda.unary, Lambda.single?_eq_some_iff.mpr params]
  have unresolved : e.ensureResolved = .error (.unresolvable x.name) := by
    rw [Expr.ensureResolved, free]
  simp only [Lambda.resolveBy, unary]
  simp [bind, Except.bind, resolved, unresolved]

namespace Chain

variable {ids : Nat → SourceId} {settings : Settings} {depth : UInt32} {c : Chain} {l : Ledger}
  {k k' : Nat} {q : Query}

/-- In a chain that was built, every walk on which nothing is cast or grouped leads to an item, and
resolution puts it in. -/
theorem Built.exists_putsIn (h : c.Built ids settings depth k q l k') {id : NodeId}
    (hid : id.value < c.nodes.length)
    (plain : ∀ n ∈ (c.route id).walk, n.operation.castType? = none ∧ n.operation.groups = false) :
    ∃ item values, (c.route id).PutsIn l item values := by
  have leads := h.linked.leads_of_walk hid (fun n hn => (plain n hn).2) fun n hn started =>
    h.source_ne_none n (mem_of_mem_route (Route.walk_subset_nodes _ hn)) started (plain n hn).1
  exact (h.settled_route leads).exists_putsIn fun n hn => (plain n hn).1

end Chain

/-- **Unbound names are rejected**, and nothing else: a lambda about an item of a node is resolved
exactly if each free parameter of its body is its own one or the name of a value on the walk to the
item. Otherwise the first one that is neither is reported. -/
theorem resolveLambda_iff_bound {ids : Nat → SourceId} {settings : Settings} {chain : Chain}
    {k k' : Nat} {q : Query} {l : Ledger} (h : Runs (chain.toQuery ids settings) k (q, l) k')
    {id : NodeId} (hid : id.value < chain.nodes.length)
    (plain : ∀ n ∈ (chain.route id).walk,
      n.operation.castType? = none ∧ n.operation.groups = false) (p : Param) (body : Expr) :
    ((∃ e, chain.resolveLambda l id ⟨[p], body⟩ = .ok e) ↔
      ∀ x ∈ body.freeParams, x = p ∨ x ∈ (chain.route id).names) ∧
    ∀ x, body.freeParams.find? (fun x => x ≠ p ∧ x ∉ (chain.route id).names) = some x →
      chain.resolveLambda l id ⟨[p], body⟩ = .error (.unresolvable x.name) := by
  obtain ⟨item, values, puts⟩ := (Chain.build_runs_iff.mp h).exists_putsIn hid plain
  have resolves := puts.resolves p body
  have resolved := Route.resolve_eq_ok_iff.mpr resolves
  constructor
  · rw [← puts.closed_iff]
    constructor
    · rintro ⟨e, he⟩
      obtain ⟨p', params, resolves', closed⟩ := Chain.resolveLambda_eq_ok_iff.mp he
      obtain rfl : p = p' := by simpa using params
      rw [Route.resolve_eq_ok_iff.mpr resolves', Except.ok.injEq] at resolved
      exact resolved ▸ closed
    · intro closed
      exact ⟨_, Chain.resolveLambda_eq_ok_iff.mpr ⟨p, rfl, resolves, closed⟩⟩
  · intro x hx
    rw [← List.head?_filter, ← puts.freeParams_eq] at hx
    obtain ⟨others, free⟩ := List.head?_eq_some_iff.mp hx
    exact Lambda.resolveBy_eq_error rfl resolved free

theorem resolveLambda_iff_bound_bosses : ∃ q l k,
    Runs (Sample.bosses.toQuery SourceId.countUp {}) 0 (q, l) k ∧
      (Sample.bosses.route ⟨1⟩).names = [Sample.title] ∧
      ∀ p body, ((∃ e, Sample.bosses.resolveLambda l ⟨1⟩ ⟨[p], body⟩ = .ok e) ↔
          ∀ x ∈ body.freeParams, x = p ∨ x ∈ [Sample.title]) ∧
        ∀ x, body.freeParams.find? (fun x => x ≠ p ∧ x ∉ [Sample.title]) = some x →
          Sample.bosses.resolveLambda l ⟨1⟩ ⟨[p], body⟩ = .error (.unresolvable x.name) := by
  obtain ⟨⟨q, l⟩, k, h⟩ := exists_runs
    (x := Sample.bosses.toQuery SourceId.countUp {}) (s := 0) (by decide +kernel)
  have inside : NodeId.value ⟨1⟩ < Sample.bosses.nodes.length := by decide
  exact ⟨q, l, k, h, rfl, resolveLambda_iff_bound h inside (by decide)⟩

end QueryFold
