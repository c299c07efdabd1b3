import QueryFold.Proofs.Chain.Typing

/-!
# Two ways to the type of the items

The type of the items of a query can be read off the finished query: it is that of the last cast
among the operators, and without a cast that of what the last clause yields. The chain has a type
for the items of its last node too, which is found along the links, before anything is resolved.

The two agree if the selectors of the chain are typed, yield no functions, and nothing is iterated
over behind a conversion (`itemType_agrees`). Either way the type is that of one node, the last one
that casts or else the last one that projects, and the nodes behind it keep it
(`Chain.WellTyped.itemType_last`).
-/

namespace QueryFold

/-! ### Lambdas -/

/-- Whether an expression is a lambda. -/
def Expr.isLambda : Expr → Bool
  | lambda _ _ => true
  | _ => false

theorem Expr.projectedType_of_not_isLambda {e : Expr} (h : e.isLambda = false) :
    e.projectedType = e.type := by
  cases e with
  | lambda _ _ => cases h
  | _ => rfl

theorem Expr.isLambda_substituteParam {e r : Expr} {p : Param} (he : e.isLambda = false)
    (hr : r.isLambda = false) : (e.substituteParam p r).isLambda = false := by
  by_cases plain : e.Plain
  · rw [substituteParam_plain plain]
    cases e with
    | param _ | item _ | lambda _ _ | subQuery _ => exact plain.elim
    | _ => rfl
  · cases e with
    | param q =>
      rw [substituteParam_param]
      split_ifs
      · exact hr
      · rfl
    | item _ =>
      rw [substituteParam_item]
      rfl
    | subQuery _ =>
      rw [substituteParam_subQuery]
      rfl
    | lambda _ _ => cases he
    | _ => exact absurd trivial plain

theorem inherited_not_isLambda : Inherited fun e => e.isLambda = false where
  param := rfl
  convert _ := rfl
  substitute := Expr.isLambda_substituteParam

/-! ### Casts -/

namespace Operation

/-- Whether an operation iterates over a sequence. -/
def iterates : Operation → Bool
  | mainSource _ | subQuerySource _ | selectMany _ _ => true
  | _ => false

theorem bindsItem_of_iterates {op : Operation} (h : op.iterates = true) :
    op.bindsItem = true ∨ op.projects = true := by
  cases op with
  | mainSource _ | subQuerySource _ => exact .inl rfl
  | selectMany _ result =>
    cases result with
    | none => exact .inl rfl
    | some _ => exact .inr rfl
  | _ => cases h

theorem projects_of_reprojects {op : Operation} (h : op.reprojects = true) :
    op.projects = true := by
  cases op with
  | select _ | groupBy _ _ => rfl
  | selectMany _ result =>
    cases result with
    | none => cases h
    | some _ => rfl
  | _ => cases h

/-- An operation that neither casts nor iterates nor changes what the query yields. -/
structure KeepsType (op : Operation) : Prop where
  uncast : op.castType? = none
  settled : op.iterates = false
  pinned : op.reprojects = false

theorem keepsType_of_onResult {op : Operation} (h : op.onResult = true)
    (uncast : op.castType? = none) : op.KeepsType := by
  cases op with
  | resultOperator _ => exact ⟨rfl, rfl, rfl⟩
  | cast _ _ => cases uncast
  | _ => cases h

/-- A cast converts the items, or closes the query. -/
theorem converts_or_seals {op : Operation} {t : Ty} (h : op.castType? = some t) :
    op.converts = true ∨ op.seals = true := by
  cases op with
  | cast kind _ =>
    cases kind with
    | cast => exact .inl rfl
    | ofType => exact .inr rfl
  | _ => cases h

end Operation

/-- An operator casts as its node does. -/
theorem Node.Operates.castType?_eq {c : Chain} {l : Ledger} {n : Node} {o : ResultOp}
    (h : n.Operates c l o) : o.castType? = n.operation.castType? := by
  cases h with
  | cast op | plain op | pick op | argument op => rw [op]; rfl

/-- The last cast among the operators is that of the last node that casts. -/
theorem Chain.Image.findSome?_castType? {ids : Nat → SourceId} {settings : Settings}
    {depth : UInt32} {c : Chain} {first : Node} {rest : List Node} {q : Query} {l : Ledger}
    (h : c.Image ids settings depth first rest q l) :
    q.operators.reverse.findSome? ResultOp.castType? =
      rest.reverse.findSome? fun n => n.operation.castType? := by
  have casts : ∀ {ns : List Node} {os : List ResultOp},
      List.Forall₂ (Node.Operates c l) ns os →
        os.filterMap ResultOp.castType? = ns.filterMap fun n => n.operation.castType? := by
    intro ns os made
    induction made with
    | nil => rfl
    | cons made _ ih => rw [List.filterMap_cons, List.filterMap_cons, ih, made.castType?_eq]
  have all : (rest.filter fun n => n.operation.onResult).filterMap
      (fun n => n.operation.castType?) = rest.filterMap fun n => n.operation.castType? := by
    rw [List.filterMap_filter]
    refine List.filterMap_congr fun n _ => ?_
    cases n.operation <;> rfl
  rw [← List.getLast?_filterMap, ← List.getLast?_filterMap, ← all]
  rw [casts h.operators]

/-! ### Types along a chain -/

theorem rel_of_pairwise_append_cons {α : Type} {R : α → α → Prop} {before after : List α} {a : α}
    (h : (before ++ a :: after).Pairwise R) : ∀ b ∈ after, R a b :=
  (List.pairwise_cons.mp (List.pairwise_append.mp h).2.1).1

namespace Chain

/-- The types along the chain fit: each node takes the result of the one before it, the selectors
take the items of that node and yield no functions, and behind a conversion nothing is iterated
over. -/
structure WellTyped (c : Chain) (l : Ledger) : Prop where
  pushed : c.Pushed
  typed : ∀ n ∈ c.nodes, n.Typed c l
  yields : ∀ n ∈ c.nodes, ∀ selector ∈ n.operation.selectors, selector.body.isLambda = false
  unconverted : (c.nodes.map Node.operation).Pairwise fun a b =>
    a.converts = true → b.iterates = false

section

variable {ids : Nat → SourceId} {settings : Settings} {depth : UInt32} {c : Chain} {l : Ledger}
  {k k' : Nat} {q : Query} {first n : Node} {before after rest : List Node}

theorem WellTyped.item_type (typed : c.WellTyped l) {i : Nat} (hn : c.nodes[i + 1]? = some n)
    {selector : Lambda} (mem : selector ∈ n.operation.selectors) {p : Param}
    (param : selector.params.head? = some p) : c.itemType l ⟨i⟩ = .ok p.type :=
  typed.typed n (List.mem_of_getElem? hn) selector mem p param ⟨i⟩ (typed.pushed.source_eq hn)

theorem WellTyped.itemType_succ (typed : c.WellTyped l) {i : Nat} (hn : c.nodes[i + 1]? = some n)
    (keeps : n.operation.KeepsType) : c.itemType l ⟨i + 1⟩ = c.itemType l ⟨i⟩ := by
  obtain ⟨uncast, settled, pinned⟩ := keeps
  rw [itemType, typed.pushed.route_eq hn, Route.itemType]
  cases op : n.operation with
  | select selector =>
    rw [op, Operation.reprojects, Bool.not_eq_false'] at pinned
    obtain ⟨p, rfl⟩ := Route.isIdentity_eq_true_iff.mp pinned
    exact (typed.item_type hn (by rw [op]; exact List.mem_cons_self) rfl).symm
  | filter _ | orderBy _ _ _ | define _ _ | resultOperator _ => rfl
  | mainSource _ | subQuerySource _ | selectMany _ _ => simp [op, Operation.iterates] at settled
  | groupBy _ _ => simp [op, Operation.reprojects] at pinned
  | cast _ _ => simp [op, Operation.castType?] at uncast

/-- If all nodes behind a node keep the type of the items, it is that of the last node. -/
theorem WellTyped.itemType_last (typed : c.WellTyped l)
    (nodes : c.nodes = first :: (before ++ n :: after))
    (keeps : ∀ m ∈ after, m.operation.KeepsType) :
    c.itemType l ⟨c.nodes.length - 1⟩ = c.itemType l ⟨before.length + 1⟩ := by
  have behind : ∀ i ≤ after.length,
      c.itemType l ⟨before.length + 1 + i⟩ = c.itemType l ⟨before.length + 1⟩ := by
    intro i hi
    induction i with
    | zero => rfl
    | succ i ih =>
      have hm : c.nodes[before.length + 1 + i + 1]? = after[i]? := by
        rw [nodes, List.getElem?_cons_succ, List.getElem?_append_right (by omega)]
        rw [show before.length + 1 + i - before.length = i + 1 by omega, List.getElem?_cons_succ]
      have hlt : i < after.length := hi
      rw [List.getElem?_eq_getElem hlt] at hm
      exact (typed.itemType_succ hm (keeps _ (List.getElem_mem hlt))).trans (ih (by omega))
  have last : c.nodes.length - 1 = before.length + 1 + after.length := by
    simp only [nodes, List.length_cons, List.length_append]
    omega
  rw [last, behind _ (Nat.le_refl _)]

/-- What a projection is resolved to has the type that it is written with. -/
theorem Built.projectedType_eq (h : c.Built ids settings depth k q l k') (typed : c.WellTyped l)
    {id : NodeId} {p : Param} {body e : Expr} (item : c.itemType l id = .ok p.type)
    (resolves : (c.route id).Resolves l p body e) (yields : body.isLambda = false) :
    e.projectedType = body.type := by
  have plain := resolves.inherits_of_selectors inherited_not_isLambda (fun _ _ _ => rfl)
    (fun n hn => typed.yields n (mem_of_mem_route hn)) yields
  rw [Expr.projectedType_of_not_isLambda plain]
  exact resolves.type_eq_of_typed
    (h.route_typed fun n hn => typed.typed n (mem_of_mem_route hn)) (h.recorded id) item

/-- A selector is resolved to something of the type of its body. -/
theorem Built.projectedType_of_selector (h : c.Built ids settings depth k q l k')
    (typed : c.WellTyped l) (hn : n ∈ c.nodes) {selector : Lambda} {e : Expr}
    (mem : selector ∈ n.operation.selectors) (resolved : n.Resolved c l selector e) :
    e.projectedType = selector.body.type := by
  obtain ⟨link, source, resolved⟩ := resolved
  obtain ⟨p, params, resolves, -⟩ := resolveLambda_eq_ok_iff.mp resolved
  have item := typed.typed n hn selector mem p (by rw [params]; rfl) link source
  exact h.projectedType_eq typed item resolves (typed.yields n hn selector mem)

/-- So is a result selector, where the item of the node itself is put in first. -/
theorem Built.projectedType_of_result (h : c.Built ids settings depth k q l k')
    (typed : c.WellTyped l) {i : Nat} (hn : c.nodes[i + 1]? = some n) {collection selector : Lambda}
    {e : Expr} (op : n.operation = .selectMany collection (some selector))
    (result : n.ResolvedResult c l selector e) : e.projectedType = selector.body.type := by
  obtain @⟨link, outer, inner, r, source, params, found, resolved, -⟩ := result
  have mem : selector ∈ n.operation.selectors := by simp [op, Operation.selectors]
  have hn' := List.mem_of_getElem? hn
  have item := typed.typed n hn' selector mem outer (by rw [params]; rfl) link source
  have inner_type : r.type = inner.type := by
    refine (h.recorded ⟨i + 1⟩) n ?_ inner (by simp [op, Operation.item?, params]) r found
    rw [typed.pushed.route_eq hn]
    exact List.mem_cons_self
  have yields := Expr.isLambda_substituteParam (p := inner) (r := .item r)
    (typed.yields n hn' selector mem) rfl
  rw [h.projectedType_eq typed item (Route.resolve_eq_ok_iff.mp resolved) yields]
  exact Expr.type_substituteParam (r := .item r) inner_type _

/-- The items of a node that projects have the type of the clause that it makes. -/
theorem Built.itemType_of_projects (h : c.Built ids settings depth k q l k')
    (typed : c.WellTyped l) {i : Nat} (hn : c.nodes[i + 1]? = some n) {p : Projection}
    (projects : n.Projects c l p) : c.itemType l ⟨i + 1⟩ = .ok p.terminal.outputType := by
  have hn' := List.mem_of_getElem? hn
  rw [itemType, typed.pushed.route_eq hn]
  cases projects with
  | select op resolved =>
    have type := h.projectedType_of_selector typed hn' (by rw [op]; exact List.mem_cons_self)
      resolved
    rw [Route.itemType, op]
    exact congrArg Except.ok type.symm
  | selectMany op result =>
    have type := h.projectedType_of_result typed hn op result
    rw [Route.itemType, op]
    exact congrArg Except.ok type.symm
  | groupBy op resolved grouped =>
    have key_type := h.projectedType_of_selector typed hn' (by rw [op]; exact List.mem_cons_self)
      resolved
    cases grouped with
    | @selector element _ resolved =>
      have mem : element ∈ n.operation.selectors := by simp [op, Operation.selectors]
      have element_type := h.projectedType_of_selector typed hn' mem resolved
      rw [Route.itemType, op]
      exact congrArg Except.ok (congrArg₂ Ty.grouping key_type element_type).symm
    | @item p link _ params source resolved =>
      -- The elements are the items, for which the parameter of the key stands.
      have item := typed.item_type hn (by rw [op]; exact List.mem_cons_self) (p := p)
        (by rw [params]; rfl)
      obtain rfl : link = ⟨i⟩ := Option.some.inj (source.symm.trans (typed.pushed.source_eq hn))
      have element_type :=
        h.projectedType_eq typed item (Route.resolve_eq_ok_iff.mp resolved) rfl
      rw [itemType] at item
      simp only [Route.itemType, op, item]
      exact congrArg Except.ok (congrArg₂ Ty.grouping key_type element_type).symm

/-- Behind the last cast, the type of the items is kept. -/
theorem Built.keeps_of_cast (h : c.Built ids settings depth k q l k') (typed : c.WellTyped l)
    (nodes : c.nodes = first :: (before ++ n :: after)) {t : Ty}
    (cast : n.operation.castType? = some t)
    (uncast : ∀ m ∈ after, m.operation.castType? = none) :
    ∀ m ∈ after, m.operation.KeepsType := by
  intro m hm
  have others : c.nodes.tail.map Node.operation =
      before.map Node.operation ++ n.operation :: after.map Node.operation := by simp [nodes]
  have ordered := h.ordered
  rw [others] at ordered
  have hm' := List.mem_map_of_mem (f := Node.operation) hm
  rcases Operation.converts_or_seals cast with converts | seals
  · have unconverted := typed.unconverted.tail
    rw [← List.map_tail, others] at unconverted
    exact ⟨uncast m hm, rel_of_pairwise_append_cons unconverted _ hm' converts,
      rel_of_pairwise_append_cons ordered.pinned _ hm' converts⟩
  · have closed := rel_of_pairwise_append_cons ordered.closed _ hm' seals
    exact Operation.keepsType_of_onResult closed (uncast m hm)

/-- Without a cast, the type of the items is kept behind the last node that projects. -/
theorem Built.keeps_of_projects (h : c.Built ids settings depth k q l k')
    (nodes : c.nodes = first :: (before ++ n :: after))
    (uncast : ∀ m ∈ after, m.operation.castType? = none)
    (last : ∀ m ∈ after, m.operation.projects = false) :
    ∀ m ∈ after, m.operation.KeepsType := by
  intro m hm
  refine ⟨uncast m hm, ?_, ?_⟩
  · by_contra iterates
    rcases Operation.bindsItem_of_iterates (by simpa using iterates) with binds | projects
    · -- A from clause that waits gets its projection from a later node.
      obtain ⟨front, behind, rfl⟩ := List.append_of_mem hm
      obtain ⟨between, selector, later, split, -⟩ := h.ordered.answered
        ((before ++ n :: front).map Node.operation) m.operation (behind.map Node.operation)
        (by simp [nodes]) binds
      have mem : Operation.select selector ∈ behind.map Node.operation := by
        rw [split]
        exact List.mem_append_right _ List.mem_cons_self
      obtain ⟨m', hm', op⟩ := List.mem_map.mp mem
      have := last m' (by simp [hm'])
      rw [op] at this
      cases this
    · exact absurd ((last m hm).symm.trans projects) nofun
  · by_contra reprojects
    have projects := Operation.projects_of_reprojects (by simpa using reprojects)
    exact absurd ((last m hm).symm.trans projects) nofun

/-- The items of the last node have the type that the query says. -/
theorem Built.itemType_eq (h : c.Built ids settings depth k q l k') (typed : c.WellTyped l) :
    ∃ t, q.itemType? = some t ∧ c.itemType l ⟨c.nodes.length - 1⟩ = .ok t := by
  obtain ⟨first, rest, nodes, image⟩ := h.image
  have casts := image.findSome?_castType?
  cases cast : rest.reverse.findSome? fun n => n.operation.castType? with
  | some t =>
    refine ⟨t, by rw [Query.itemType?, casts, cast]; rfl, ?_⟩
    obtain ⟨after, n, before, split, hn, uncast⟩ := List.findSome?_eq_some_iff.mp cast
    obtain rfl : rest = before.reverse ++ n :: after.reverse := by
      rw [← List.reverse_reverse rest, split]
      simp
    rw [typed.itemType_last nodes (h.keeps_of_cast typed nodes hn (by simpa using uncast))]
    have here : c.nodes[before.reverse.length + 1]? = some n := by simp [nodes]
    rw [itemType, typed.pushed.route_eq here, Route.itemType]
    cases op : n.operation <;> simp_all [Operation.castType?]
  | none =>
    obtain ⟨n, p, t, hlast, projects, made, terminal⟩ := image.terminal
    have ends : q.outputType? = some p.terminal.outputType := by
      rw [Query.outputType?, terminal]
      cases made <;> rfl
    refine ⟨_, by rw [Query.itemType?, casts, cast, ends]; rfl, ?_⟩
    rw [List.getLast?_filter, List.find?_eq_some_iff_append] at hlast
    obtain ⟨-, after, before, split, last⟩ := hlast
    rw [List.findSome?_eq_none_iff] at cast
    obtain rfl : rest = before.reverse ++ n :: after.reverse := by
      rw [← List.reverse_reverse rest, split]
      simp
    rw [typed.itemType_last nodes (h.keeps_of_projects nodes (fun m hm => cast m (by simp_all))
      fun m hm => by simpa using last m (by simpa using hm))]
    exact h.itemType_of_projects typed (by simp [nodes]) projects

end

end Chain

/-- **The two types agree**: a query has items of the type that the chain has for those of its last
node, and this is the type of the items of a clause that iterates over the query. -/
theorem itemType_agrees {ids : Nat → SourceId} {settings : Settings} {depth : UInt32}
    {chain : Chain} {k k' : Nat} {q : Query} {l : Ledger}
    (h : Runs (chain.build ids settings depth) k (q, l) k') (typed : chain.WellTyped l) :
    ∃ t, q.itemType? = some t ∧ chain.itemType l ⟨chain.nodes.length - 1⟩ = .ok t ∧
      ∀ (n : Node) (l' : Ledger), n.operation = .subQuerySource chain → l'.settings = settings →
        l'.depth + 1 = depth → Runs (nestedItems (n.nested ids) l') k (q, t) k' := by
  have built := Chain.build_runs_iff.mp h
  obtain ⟨t, items, last⟩ := built.itemType_eq typed
  refine ⟨t, items, last, fun n l' op same deeper => runs_nestedItems.mpr ⟨?_, items⟩⟩
  rw [same, deeper]
  exact Node.nested_runs_iff.mpr ⟨chain, l, op, built⟩

theorem itemType_agrees_bosses : ∃ q l k t,
    Runs (Sample.bosses.toQuery SourceId.countUp {}) 0 (q, l) k ∧ q.itemType? = some t ∧
      Sample.bosses.itemType l ⟨3⟩ = .ok t := by
  obtain ⟨q, l, k, h, items⟩ :=
    Sample.exists_runs_recording Sample.bosses [(⟨0⟩, Sample.cookItem)] (by decide +kernel)
  have typed : Sample.bosses.WellTyped l := {
    pushed := .push (.push (.push (.push (.empty _) _ _) _ _) _ _) _ _
    typed := Sample.typed_bosses (items _ List.mem_cons_self)
    yields := by decide
    unconverted := by decide }
  obtain ⟨t, query, last, -⟩ := itemType_agrees h typed
  exact ⟨q, l, k, t, h, query, last⟩

end QueryFold
