import QueryFold.Proofs.Chain.Image

/-!
# Items of nodes

What an item of a node is can be said in one expression about the sources of the query: at a
source it is a reference, at a projection what the selector yields, and from there on only
casts change it (`Route.item`). Named values that are met on the way have references of their
own (`Route.lets`).

Resolution goes down the links step by step: a cast puts in a conversion before it goes on, a
named value replaces its name after it comes back. `resolve_eq_instantiate` says that all this
is one simultaneous substitution. Casts give the parameter other types on the way, so the
expression must not hold a parameter of the same name and another type.
-/

namespace QueryFold

namespace Route

/-- The links lead to a source or to a projection, past no grouping. -/
def Leads : Route → Prop
  | via n rest =>
    match n.operation with
    | .mainSource _ | .subQuerySource _ | .selectMany _ _ | .select _ => True
    | .groupBy _ _ => False
    | .filter _ | .orderBy _ _ _ | .define _ _ | .cast _ _ | .resultOperator _ => rest.Leads
  | _ => False

/-- An item of the node at the start of the route. -/
def item (l : Ledger) : Route → Except BuildError Expr
  | via n rest =>
    match n.operation with
    | .mainSource _ | .subQuerySource _ | .selectMany _ none => do return .item (← l.item n.id)
    | .selectMany _ (some selector) => selector.resolveResult l n rest.linked (rest.resolve l)
    | .select selector => selector.resolveBy (rest.resolve l)
    | .groupBy _ _ => .error (.misuse (.throughGrouping n.describe))
    | .cast _ type => do return .convert (← rest.item l) type
    | .filter _ | .orderBy _ _ _ | .define _ _ | .resultOperator _ => rest.item l
  | ended n => .error (.misuse (.unlinked n))
  | unknown id => .error (.unresolvable id.render)
  | endless => .error (.misuse .endlessLinks)

/-- The names of the values that are met before a source or a projection, with the references to
them. -/
def lets (l : Ledger) : Route → Except BuildError (List (Param × Expr))
  | via n rest =>
    match n.operation with
    | .define name _ => do return (name, .item (← l.item n.id)) :: (← rest.lets l)
    | .filter _ | .orderBy _ _ _ | .cast _ _ | .resultOperator _ => rest.lets l
    | .mainSource _ | .subQuerySource _ | .selectMany _ _ | .select _ | .groupBy _ _ => .ok []
  | _ => .ok []

/-- Everything that resolution needs on the route is there. -/
inductive Settled (l : Ledger) : Route → Prop where
  /-- A source is recorded. -/
  | item {n : Node} {rest : Route} {r : ItemRef} (op : n.operation.bindsItem = true)
      (recorded : l.item n.id = .ok r) : Settled l (via n rest)
  /-- A result selector can be resolved. -/
  | result {n : Node} {rest : Route} {collection selector : Lambda} {e : Expr}
      (op : n.operation = .selectMany collection (some selector))
      (resolved : selector.resolveResult l n rest.linked (rest.resolve l) = .ok e) :
      Settled l (via n rest)
  /-- A selector can be resolved. -/
  | select {n : Node} {rest : Route} {selector : Lambda} {e : Expr}
      (op : n.operation = .select selector) (linked : rest.linked = .ok ())
      (resolved : selector.resolveBy (rest.resolve l) = .ok e) : Settled l (via n rest)
  /-- A named value is recorded. -/
  | define {n : Node} {rest : Route} {name : Param} {value : Lambda} {r : ItemRef}
      (op : n.operation = .define name value) (recorded : l.item n.id = .ok r)
      (before : Settled l rest) : Settled l (via n rest)
  /-- A cast needs nothing. -/
  | cast {n : Node} {rest : Route} {kind : CastKind} {type : Ty}
      (op : n.operation = .cast kind type) (before : Settled l rest) : Settled l (via n rest)
  /-- Neither do other nodes. -/
  | pass {n : Node} {rest : Route} (op : n.operation.passesItem = true) (before : Settled l rest) :
      Settled l (via n rest)

section

variable {l : Ledger} {n : Node} {rest : Route}

theorem item_of_bindsItem (op : n.operation.bindsItem = true) {r : ItemRef}
    (recorded : l.item n.id = .ok r) : (via n rest).item l = .ok (.item r) := by
  rw [item]
  split <;> simp_all [Operation.bindsItem]

theorem lets_of_bindsItem (op : n.operation.bindsItem = true) : (via n rest).lets l = .ok [] := by
  rw [lets]
  split <;> simp_all [Operation.bindsItem]

theorem itemType_of_bindsItem (op : n.operation.bindsItem = true) {r : ItemRef}
    (recorded : l.item n.id = .ok r) : (via n rest).itemType l = .ok r.type := by
  rw [itemType]
  split <;> simp_all [Operation.bindsItem]

theorem item_of_passesItem (op : n.operation.passesItem = true) :
    (via n rest).item l = rest.item l := by
  rw [item]
  split <;> simp_all [Operation.passesItem]

theorem lets_of_passesItem (op : n.operation.passesItem = true) :
    (via n rest).lets l = rest.lets l := by
  rw [lets]
  split <;> simp_all [Operation.passesItem]

theorem itemType_of_passesItem (op : n.operation.passesItem = true) :
    (via n rest).itemType l = rest.itemType l := by
  rw [itemType]
  split <;> simp_all [Operation.passesItem]

end

variable {l : Ledger} {route : Route}

theorem Settled.exists_itemType (h : route.Settled l) : ∃ t, route.itemType l = .ok t := by
  induction h with
  | item op recorded => exact ⟨_, itemType_of_bindsItem op recorded⟩
  | result op _ => exact ⟨_, by rw [itemType, op]⟩
  | select op _ _ => exact ⟨_, by rw [itemType, op]⟩
  | cast op _ _ => exact ⟨_, by rw [itemType, op]⟩
  | define op _ _ ih => simpa only [itemType, op] using ih
  | pass op _ ih => simpa only [itemType_of_passesItem op] using ih

/-- Resolution along the route puts in an item, and then the references to the named values, from
the farthest one on. -/
structure Substitutes (l : Ledger) (route : Route) (item : Expr) (lets : List (Param × Expr)) :
    Prop where
  item_eq : route.item l = .ok item
  lets_eq : route.lets l = .ok lets
  item_closed : item.Closed
  lets_closed : ∀ b ∈ lets, b.2.Closed
  resolves : ∀ (p₀ p : Param) (ts : List Ty) (body : Expr), p.name = p₀.name →
    (∀ t, t ≠ p₀.type → ¬ OccursIn ⟨p₀.name, t⟩ body) →
    route.Resolves l p (body.substituteParam p₀ (.converted ts (.param p)))
      (.substituteAll lets.reverse (body.substituteParam p₀ (.converted ts item)))

/-- **Resolution is substitution** of an item, where a conversion of the parameter may have been put
in before. The induction follows the links; a cast puts one more conversion in. -/
theorem Settled.substitutes (h : route.Settled l) :
    ∃ item lets, route.Substitutes l item lets := by
  induction h with
  | @item n rest r op recorded =>
    refine ⟨.item r, [], item_of_bindsItem op recorded, lets_of_bindsItem op, Expr.closed_item r,
      nofun, fun p₀ p ts body hn hb => ?_⟩
    have : Resolves l (via n rest) p (body.substituteParam p₀ (.converted ts (.param p))) _ :=
      .item op recorded
    rwa [Expr.substituteParam_converted_param hn hb] at this
  | @result n rest collection selector e op resolved =>
    obtain ⟨outer, inner, r, params, recorded, linked, selected, closed⟩ :=
      Lambda.resolveResult_eq_ok_iff.mp resolved
    refine ⟨e, [], ?_, by rw [Route.lets, op], closed, nofun, fun p₀ p ts body hn hb => ?_⟩
    · rw [Route.item, op]
      exact resolved
    have : Resolves l (via n rest) p (body.substituteParam p₀ (.converted ts (.param p))) _ :=
      .result op params recorded linked (resolve_eq_ok_iff.mp selected) closed
    rwa [Expr.substituteParam_converted_param hn hb] at this
  | @select n rest selector e op linked resolved =>
    obtain ⟨param, params, selected, closed⟩ := Lambda.resolveBy_eq_ok_iff.mp resolved
    refine ⟨e, [], ?_, by rw [Route.lets, op], closed, nofun, fun p₀ p ts body hn hb => ?_⟩
    · rw [Route.item, op]
      exact resolved
    have : Resolves l (via n rest) p (body.substituteParam p₀ (.converted ts (.param p))) _ :=
      .select op params linked (resolve_eq_ok_iff.mp selected) closed
    rwa [Expr.substituteParam_converted_param hn hb] at this
  | @define n rest name value r op recorded _ ih =>
    obtain ⟨item, lets, hi, hl, item_closed, lets_closed, resolves⟩ := ih
    refine ⟨item, (name, .item r) :: lets, by rw [Route.item, op, hi], ?_, item_closed, ?_,
      fun p₀ p ts body hn hb => ?_⟩
    · rw [Route.lets, op]
      simp only [recorded, hl]
      rfl
    · exact List.forall_mem_cons.mpr ⟨Expr.closed_item r, lets_closed⟩
    · rw [List.reverse_cons, Expr.substituteAll, List.foldl_append]
      exact .define op (resolves p₀ p ts body hn hb) recorded
  | @cast n rest kind type op before ih =>
    obtain ⟨item, lets, hi, hl, item_closed, lets_closed, resolves⟩ := ih
    obtain ⟨t, items⟩ := before.exists_itemType
    refine ⟨.convert item type, lets, ?_, by rw [Route.lets, op, hl],
      Expr.closed_convert item_closed type, lets_closed, fun p₀ p ts body hn hb => .cast op items ?_⟩
    · simp [Route.item, op, hi]
    · rw [Expr.substituteParam_converted_param hn hb]
      exact resolves p₀ ⟨p.name, t⟩ (type :: ts) body hn hb
  | pass op _ ih =>
    obtain ⟨item, lets, hi, hl, item_closed, lets_closed, resolves⟩ := ih
    exact ⟨item, lets, (item_of_passesItem op).trans hi, (lets_of_passesItem op).trans hl,
      item_closed, lets_closed, fun p₀ p ts body hn hb => .pass op (resolves p₀ p ts body hn hb)⟩

/-- The substitutions are one simultaneous substitution if the names are different. -/
theorem Substitutes.resolve_eq {item : Expr} {lets : List (Param × Expr)}
    (h : route.Substitutes l item lets) {p : Param} {body : Expr}
    (distinct : (p :: lets.map Prod.fst).Nodup)
    (alone : ∀ t, t ≠ p.type → ¬ OccursIn ⟨p.name, t⟩ body) :
    route.resolve l p body = .ok (body.instantiate fun x => ((p, item) :: lets).lookup x) := by
  have hr := h.resolves p p [] body rfl alone
  have closed : ∀ b ∈ (p, item) :: lets, b.2.Closed :=
    List.forall_mem_cons.mpr ⟨h.item_closed, h.lets_closed⟩
  rw [← Expr.substituteAll_eq_of_perm closed distinct (lets.reverse_perm.symm.cons _)]
  rw [Expr.converted, List.foldl_nil, Expr.substituteParam_self] at hr
  exact resolve_eq_ok_iff.mpr hr

end Route

/-! ### Nodes of chains that were built -/

/-- Whether an operation introduces a source. -/
def Operation.introduces : Operation → Bool
  | mainSource _ | subQuerySource _ | selectMany _ _ | define _ _ => true
  | _ => false

/-- What resolution needs of the node is there. -/
structure Node.Settled (chain : Chain) (l : Ledger) (n : Node) : Prop where
  item : n.operation.introduces = true → ∃ r, l.item n.id = .ok r
  result : ∀ collection selector, n.operation = .selectMany collection (some selector) →
    ∃ e, n.ResolvedResult chain l selector e
  select : ∀ selector, n.operation = .select selector → ∃ e, n.Resolved chain l selector e

theorem Node.Settled.extends {chain : Chain} {l l' : Ledger} {n : Node} (h : l.Extends l')
    (hn : n.Settled chain l) : n.Settled chain l' where
  item op := (hn.item op).imp fun _ => h.item
  result collection selector op := (hn.result collection selector op).imp fun _ hr => hr.extends h
  select selector op := (hn.select selector op).imp fun _ hr => hr.extends h

theorem Ledger.exists_item_of_records {l l' : Ledger} {id : NodeId} {r : NodeRecord}
    (fresh : l.record? id = none) (h : l'.records = l.records ++ [(id, r)])
    (hi : r.item.isSome = true) : ∃ i, l'.item id = .ok i := by
  obtain ⟨i, hi⟩ := Option.isSome_iff_exists.mp hi
  exact ⟨i, item_eq_ok_iff.mpr ⟨r, record?_of_records fresh h, hi⟩⟩

/-- The first node settles itself. -/
theorem Node.Start.settled {ids : Nat → SourceId} {settings : Settings} {depth : UInt32}
    {chain : Chain} {n : Node} {nested : Nested} {k : Nat} {b : Build}
    (h : n.Start ids nested settings depth chain.resultType k b) : n.Settled chain b.ledger := by
  cases h with
  | mainSource op | subQuerySource op =>
    exact ⟨fun _ => Ledger.exists_item_of_records rfl rfl rfl, by simp [op], by simp [op]⟩

/-- A step settles its node. -/
theorem Node.Step.settled {ids : Nat → SourceId} {nested : Nested} {chain : Chain} {n : Node}
    {b b' : Build} (fresh : b.ledger.record? n.id = none) (h : n.Step ids nested chain b b') :
    n.Settled chain b'.ledger := by
  have ext := h.extends
  cases h with
  | mainSource op | subQuerySource op | define op =>
    exact ⟨fun _ => Ledger.exists_item_of_records fresh rfl rfl, by simp [op], by simp [op]⟩
  | selectMany op =>
    exact ⟨fun _ => Ledger.exists_item_of_records fresh rfl (by simp), by simp [op], by simp [op]⟩
  | selectManyResult op _ _ source _ _ _ _ result =>
    refine ⟨fun _ => Ledger.exists_item_of_records fresh rfl (by simp),
      fun collection selector h => ?_, by simp [op]⟩
    obtain ⟨-, h⟩ := Operation.selectMany.inj (op.symm.trans h)
    obtain rfl := Option.some.inj h
    exact ⟨_,
      resolvedResult_iff.mpr ⟨_, source, resolveResult_extends extends_registering result⟩⟩
  | select op _ source resolved =>
    refine ⟨by simp [op, Operation.introduces], by simp [op], fun selector h => ?_⟩
    obtain rfl := Operation.select.inj (op.symm.trans h)
    exact ⟨_, _, source, Chain.resolveLambda_extends ext resolved⟩
  | filter op | orderBy op | thenBy op | groupBy op | cast op | ofType op | resultOperator op =>
    exact ⟨by simp [op, Operation.introduces], by simp [op], by simp [op]⟩

namespace Chain

variable {ids : Nat → SourceId} {settings : Settings} {depth : UInt32} {c : Chain} {l : Ledger}

/-- In the ledger of a finished build all nodes are settled. -/
theorem Built.settled {k k' : Nat} {q : Query} (h : c.Built ids settings depth k q l k') :
    ∀ n ∈ c.nodes, n.Settled c l := by
  obtain @⟨first, rest, b, b', p, _, nodes, _, start, steps⟩ := h
  have hb := steps.invariant [first] (I := fun done b => ∀ n ∈ done, n.Settled c b.ledger)
    (fun done n b b' _ hI fresh step m hm => ?_) (fun n hn => ?_)
  · exact nodes ▸ hb
  · rcases List.mem_append.mp hm with hm | hm
    · exact (hI m hm).extends step.extends
    · exact List.mem_singleton.mp hm ▸ step.settled fresh
  · exact List.mem_singleton.mp hn ▸ start.settled

/-- A route to a node may end, but does not begin with its end. -/
theorem linked_route (c : Chain) (id : NodeId) : (c.route id).linked = .ok () := by
  rw [route, routeWithin]
  cases c.nodes[id.value]? <;> rfl

/-- If the nodes up to some position are settled, so is every route from there that leads
somewhere. -/
theorem Linked.settled_below (hc : c.Linked) {k : Nat}
    (hn : ∀ i n, i < k → c.nodes[i]? = some n → n.Settled c l) {id : NodeId} (hid : id.value < k)
    (leads : (c.route id).Leads) : (c.route id).Settled l := by
  induction hi : id.value using Nat.strongRecOn generalizing id with
  | _ i ih =>
    cases here : c.nodes[id.value]? with
    | none =>
      rw [route, routeWithin, here] at leads
      exact leads.elim
    | some n =>
      have hr : c.route id = .via n (c.routeAfter n) := hc.route_eq here
      have settled := hn id.value n hid here
      have before : (c.routeAfter n).Leads → (c.routeAfter n).Settled l := by
        rw [routeAfter]
        cases source : n.source with
        | none => exact fun h => h.elim
        | some link =>
          have hlt := hc.backward _ n link here source
          exact fun h => ih link.value (hi ▸ hlt) (Nat.lt_trans hlt hid) h rfl
      have after : ∀ {link}, n.source = some link → c.routeAfter n = c.route link := by
        intro link source
        rw [routeAfter, source]
      rw [hr] at leads ⊢
      cases op : n.operation with
      | mainSource _ | subQuerySource _ =>
        obtain ⟨r, hr⟩ := settled.item (by rw [op]; rfl)
        exact .item (by rw [op]; rfl) hr
      | selectMany collection result =>
        cases result with
        | none =>
          obtain ⟨r, hr⟩ := settled.item (by rw [op]; rfl)
          exact .item (by rw [op]; rfl) hr
        | some selector =>
          obtain ⟨e, result⟩ := settled.result collection selector op
          obtain ⟨link, source, result⟩ := Node.resolvedResult_iff.mp result
          rw [after source]
          exact .result op (by rw [linked_route]; exact result)
      | select selector =>
        obtain ⟨e, link, source, resolved⟩ := settled.select selector op
        rw [after source]
        exact .select op (linked_route c link) resolved
      | define name value =>
        obtain ⟨r, hr⟩ := settled.item (by rw [op]; rfl)
        rw [Route.Leads, op] at leads
        exact .define op hr (before leads)
      | cast kind type =>
        rw [Route.Leads, op] at leads
        exact .cast op (before leads)
      | groupBy key element =>
        rw [Route.Leads, op] at leads
        exact leads.elim
      | filter _ | orderBy _ _ _ | resultOperator _ =>
        rw [Route.Leads, op] at leads
        exact .pass (by rw [op]; rfl) (before leads)

/-- If all nodes are settled, so is every route that leads somewhere. -/
theorem Linked.settled (hc : c.Linked) (hn : ∀ n ∈ c.nodes, n.Settled c l) {id : NodeId}
    (leads : (c.route id).Leads) : (c.route id).Settled l :=
  hc.settled_below (k := id.value + 1) (fun _ n _ h => hn n (List.mem_of_getElem? h))
    (Nat.lt_succ_self _) leads

theorem Built.settled_route {k k' : Nat} {q : Query} (h : c.Built ids settings depth k q l k')
    {id : NodeId} (leads : (c.route id).Leads) : (c.route id).Settled l := by
  have settled := h.settled
  obtain ⟨_, _, linked⟩ := h
  exact (linked_of_checkLinks linked).settled settled leads

theorem Built.substitutes {k k' : Nat} {q : Query} (h : c.Built ids settings depth k q l k')
    {id : NodeId} (leads : (c.route id).Leads) :
    ∃ item lets, (c.route id).Substitutes l item lets :=
  (h.settled_route leads).substitutes

end Chain

/-- **Resolution is a simultaneous substitution** in a chain that was built: of the item of the node
for the parameter that stands for it, and of references for the names of values on the way there. It
does not fail. -/
theorem resolve_eq_instantiate {ids : Nat → SourceId} {settings : Settings} {chain : Chain}
    {k k' : Nat} {q : Query} {l : Ledger} (h : Runs (chain.toQuery ids settings) k (q, l) k')
    {id : NodeId} (leads : (chain.route id).Leads) :
    ∃ item lets, (chain.route id).item l = .ok item ∧ (chain.route id).lets l = .ok lets ∧
      ∀ (p : Param) (body : Expr), (p :: lets.map Prod.fst).Nodup →
        (∀ t, t ≠ p.type → ¬ OccursIn ⟨p.name, t⟩ body) →
        chain.resolve l id p body =
          .ok (body.instantiate fun x => ((p, item) :: lets).lookup x) := by
  obtain ⟨item, lets, substitutes⟩ := (Chain.build_runs_iff.mp h).substitutes leads
  exact ⟨item, lets, substitutes.item_eq, substitutes.lets_eq,
    fun p body distinct alone => substitutes.resolve_eq distinct alone⟩

namespace Sample

/-- A chef. -/
def chef : Param := ⟨"c", Ty.plain "Chef"⟩

/-- The name of a cook, by a name of its own. -/
def title : Param := ⟨"t", Ty.plain "string"⟩

/-- The cooks as chefs, their names known as `title`. -/
def chefs : Chain where
  nodes := [⟨⟨0⟩, none, "c", "", .mainSource cooks⟩,
    ⟨⟨1⟩, some ⟨0⟩, "c", "", .define title ⟨[cook], name⟩⟩,
    ⟨⟨2⟩, some ⟨1⟩, "c", "", .cast .cast chef.type⟩,
    ⟨⟨3⟩, some ⟨2⟩, "c", "", .select ⟨[chef], .param chef⟩⟩]
  resultType := Ty.queryable chef.type

/-- Whether a chef is called by the title. -/
def titled : Expr := .binary .equal (.param chef) (.param title) Ty.bool

end Sample

theorem resolve_eq_instantiate_chefs : ∃ q l k item lets,
    Runs (Sample.chefs.toQuery SourceId.countUp {}) 0 (q, l) k ∧
      (Sample.chefs.route ⟨2⟩).item l = .ok item ∧ (Sample.chefs.route ⟨2⟩).lets l = .ok lets ∧
      Sample.chefs.resolve l ⟨2⟩ Sample.chef Sample.titled =
        .ok (Sample.titled.instantiate fun x => ((Sample.chef, item) :: lets).lookup x) := by
  obtain ⟨⟨q, l⟩, k, h⟩ := exists_runs
    (x := Sample.chefs.toQuery SourceId.countUp {}) (s := 0) (by decide +kernel)
  have leads : (Sample.chefs.route ⟨2⟩).Leads := trivial
  obtain ⟨item, lets, hi, hl, resolves⟩ := resolve_eq_instantiate h leads
  refine ⟨q, l, k, item, lets, h, hi, hl, resolves _ _ ?_ ?_⟩
  · have hl : (do let r ← l.item ⟨1⟩; return [(Sample.title, Expr.item r)]) = .ok lets := hl
    obtain ⟨r, -, hr⟩ := except_bind_eq_ok_iff.mp hl
    obtain rfl := except_pure_eq_ok_iff.mp hr
    simp [Sample.chef, Sample.title]
  · intro t ht ho
    have leaf : ∀ {p}, OccursIn ⟨"c", t⟩ (.param p) → p = ⟨"c", t⟩ := by
      intro p h
      cases h with
      | param => rfl
      | child hc _ => cases hc
    cases ho with
    | child hc h =>
      rcases List.mem_pair.mp hc with rfl | rfl
      · exact ht (congrArg Param.type (leaf h)).symm
      · exact absurd (congrArg Param.name (leaf h)) (by simp [Sample.title])

end QueryFold
