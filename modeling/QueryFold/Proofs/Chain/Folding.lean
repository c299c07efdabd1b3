import QueryFold.Proofs.Chain.Order
import QueryFold.Proofs.Chain.Pushed

/-!
# Folding the nodes of a chain

A build is the folding of the nodes, and the end of the query. `Chain.Folds` is the first part; it
only looks at the routes from the nodes to which others are linked (`Node.Step.of_routes`), and
these stay the same when a node is added at the end. So folding a chain with a further node is
folding the chain, and a step (`Chain.Folds.of_push`, `Chain.Folds.push`).

What the folded nodes leave behind in the stage of the build is told by their operations alone
(`Chain.Folds.stage`).
-/

namespace QueryFold

/-! ### Routes of a longer chain -/

namespace Chain

/-- The node with which a chain is made longer. -/
def endNode (c : Chain) (identifier : String) (operation : Operation) : Node :=
  ⟨c.nextId, c.nodes.getLast?.map Node.id, identifier, operation.name, operation⟩

variable {c : Chain} {identifier : String} {operation : Operation}

theorem nodes_push : (c.push identifier operation).nodes =
    c.nodes ++ [c.endNode identifier operation] :=
  rfl

/-- A further node does not change the routes of the others. -/
theorem Pushed.route_push (pushed : c.Pushed) {id : NodeId} (hid : id.value < c.nodes.length) :
    (c.push identifier operation).route id = c.route id := by
  obtain ⟨i⟩ := id
  have longer := (pushed.push identifier operation).linked
  induction i with
  | zero =>
    have hn := List.getElem?_eq_getElem hid
    have hn' : (c.push identifier operation).nodes[0]? = some c.nodes[0] := by
      rw [nodes_push, List.getElem?_append_left hid, hn]
    rw [longer.route_eq hn', pushed.linked.route_eq hn, routeAfter, routeAfter,
      (pushed.of_getElem? hn).2.1]
    rfl
  | succ i ih =>
    have hn := List.getElem?_eq_getElem hid
    have hn' : (c.push identifier operation).nodes[i + 1]? = some c.nodes[i + 1] := by
      rw [nodes_push, List.getElem?_append_left hid, hn]
    rw [(pushed.push identifier operation).route_eq hn', pushed.route_eq hn,
      ih (Nat.lt_of_succ_lt hid)]

theorem getElem?_nodes_push : (c.push identifier operation).nodes[c.nodes.length]? =
    some (c.endNode identifier operation) := by
  rw [nodes_push]
  exact List.getElem?_concat_length

theorem Pushed.link_lt (pushed : c.Pushed) {link : NodeId}
    (source : (c.endNode identifier operation).source = some link) :
    link.value < c.nodes.length :=
  (pushed.push identifier operation).linked.backward _ _ link getElem?_nodes_push source

/-- The route from the node at the end goes on where that node is linked. -/
theorem Pushed.route_nextId (pushed : c.Pushed) {link : NodeId}
    (source : (c.endNode identifier operation).source = some link) :
    (c.push identifier operation).route c.nextId =
      .via (c.endNode identifier operation) (c.route link) := by
  rw [nextId, (pushed.push identifier operation).linked.route_eq getElem?_nodes_push, routeAfter,
    source]
  exact congrArg _ (pushed.route_push (pushed.link_lt source))

end Chain

/-! ### Stages -/

namespace Stage

theorem sealed_foldl (ops : List Operation) (s : Stage) :
    (ops.foldl after s).sealed = (s.sealed || ops.any Operation.seals) := by
  induction ops generalizing s with
  | nil => simp
  | cons op ops ih => rw [List.foldl_cons, ih, after, List.any_cons, Bool.or_assoc]

theorem converted_foldl (ops : List Operation) (s : Stage) :
    (ops.foldl after s).converted = (s.converted || ops.any Operation.converts) := by
  induction ops generalizing s with
  | nil => simp
  | cons op ops ih => rw [List.foldl_cons, ih, after, List.any_cons, Bool.or_assoc]

end Stage

/-! ### Steps in two chains -/

section

variable {ids : Nat → SourceId} {nested : Nested} {chain chain' : Chain} {n : Node} {b b' : Build}

/-- A step looks at the chain only along the route from the node to which its node is linked. -/
theorem Node.Step.of_routes (h : n.Step ids nested chain b b')
    (same : ∀ link, n.source = some link → chain'.route link = chain.route link) :
    n.Step ids nested chain' b b' := by
  have resolve {link} (source : n.source = some link) (l : Ledger) :
      chain.resolve l link = chain'.resolve l link := by
    funext p body
    rw [Chain.resolve, Chain.resolve, same link source]
  have resolveLambda {link} (source : n.source = some link) (l : Ledger) (lambda : Lambda) :
      chain.resolveLambda l link lambda = chain'.resolveLambda l link lambda := by
    rw [Chain.resolveLambda, resolve source, Chain.resolveLambda]
  cases h with
  | mainSource op allowed items named settled => exact .mainSource op allowed items named settled
  | subQuerySource op allowed built items named settled =>
    exact .subQuerySource op allowed built items named settled
  | selectMany op allowed source resolved items named settled =>
    rw [resolveLambda source] at resolved
    exact .selectMany op allowed source resolved items named settled
  | selectManyResult op allowed projects source resolved items params named result =>
    rw [resolveLambda source] at resolved
    rw [resolve source] at result
    exact .selectManyResult op allowed projects source resolved items params named result
  | filter op allowed source resolved =>
    rw [resolveLambda source] at resolved
    exact .filter op allowed source resolved
  | define op allowed source resolved named =>
    rw [resolveLambda source] at resolved
    exact .define op allowed source resolved named
  | orderBy op allowed source resolved opens =>
    rw [resolveLambda source] at resolved
    exact .orderBy op allowed source resolved opens
  | thenBy op allowed source resolved joins extended =>
    rw [resolveLambda source] at resolved
    exact .thenBy op allowed source resolved joins extended
  | select op projects source resolved filled =>
    rw [resolveLambda source] at resolved
    exact .select op projects source resolved filled
  | @groupBy key element link k e op allowed projects source resolved grouped settled =>
    have elements : groupElement (m := Id) chain b.ledger link key element =
        groupElement chain' b.ledger link key element := by
      cases element with
      | some selector => exact resolveLambda source _ _
      | none => simp only [groupElement.eq_def, Resolver.resolve_id, resolve source]
    rw [resolveLambda source] at resolved
    exact .groupBy op allowed projects source resolved (elements ▸ grouped) settled
  | cast op => exact .cast op
  | ofType op => exact .ofType op
  | @resultOperator o resolved link op plain source result =>
    have arguments : resolveArgument (m := Id) chain b.ledger link =
        resolveArgument chain' b.ledger link := by
      funext arg
      unfold resolveArgument
      split
      · exact resolveLambda source _ _
      · rfl
    exact .resultOperator op plain source (arguments ▸ result)

theorem NodeSteps.of_routes {ns : List Node} (h : NodeSteps ids chain ns b b')
    (same : ∀ n ∈ ns, ∀ link, n.source = some link → chain'.route link = chain.route link) :
    NodeSteps ids chain' ns b b' := by
  induction h with
  | nil => exact .nil
  | cons fresh step _ ih =>
    exact .cons fresh (step.of_routes (same _ List.mem_cons_self))
      (ih fun n hn => same n (List.mem_cons_of_mem _ hn))

theorem nodeSteps_append_iff {ns ms : List Node} :
    NodeSteps ids chain (ns ++ ms) b b' ↔
      ∃ b₁, NodeSteps ids chain ns b b₁ ∧ NodeSteps ids chain ms b₁ b' := by
  simp only [← applyNodes_runs_iff, applyNodes_append, runs_bind, exists_unit]

/-- The stages go from operation to operation. -/
theorem NodeSteps.stage {ns : List Node} (h : NodeSteps ids chain ns b b') :
    b'.ledger.stage = (ns.map Node.operation).foldl Stage.after b.ledger.stage := by
  induction h with
  | nil => rfl
  | cons _ step _ ih => rw [ih, step.stage.2, List.map_cons, List.foldl_cons]

end

/-! ### Folding -/

namespace Chain

/-- Folding the nodes of a chain at a depth, when `drawn` identities are drawn before, leads to a
build: the first node starts it, and the others are applied. -/
inductive Folds (ids : Nat → SourceId) (settings : Settings) (depth : UInt32) (chain : Chain)
    (drawn : Nat) : Build → Prop where
  | intro {first : Node} {rest : List Node} {b b' : Build} (nodes : chain.nodes = first :: rest)
      (start : first.Start ids (first.nested ids) settings depth chain.resultType drawn b)
      (steps : NodeSteps ids chain rest b b') : Folds ids settings depth chain drawn b'

variable {ids : Nat → SourceId} {settings : Settings} {depth : UInt32} {c : Chain} {k : Nat}
  {b b' : Build} {identifier : String} {operation : Operation}

/-- A build is a folding and the end of the query. -/
theorem built_iff {k' : Nat} {q : Query} {l : Ledger} :
    c.Built ids settings depth k q l k' ↔ depth ≤ settings.maxDepth ∧ c.checkLinks = .ok () ∧
      ∃ b, c.Folds ids settings depth k b ∧ b.finish = .ok (q, l) ∧ k' = b.drawn := by
  constructor
  · rintro ⟨shallow, nodes, linked, start, steps, projects, settled, unended, valid⟩
    exact ⟨shallow, linked, _, .intro nodes start steps,
      Build.finish_eq_ok_iff.mpr ⟨_, projects, settled, unended, valid, rfl, rfl⟩, rfl⟩
  · rintro ⟨shallow, linked, b, ⟨nodes, start, steps⟩, finish, rfl⟩
    obtain ⟨p, projects, settled, unended, valid, rfl, rfl⟩ := Build.finish_eq_ok_iff.mp finish
    exact .intro shallow nodes linked start steps projects settled unended valid

/-- What a folded chain leaves behind in the stage is told by its operations. -/
theorem Folds.stage (h : c.Folds ids settings depth k b) :
    b.ledger.stage = (c.nodes.tail.map Node.operation).foldl Stage.after .start := by
  obtain ⟨nodes, start, steps⟩ := h
  rw [steps.stage, start.stage, nodes, List.tail_cons]

/-- While the query is open and nothing is converted, no node has cast the items. -/
theorem Folds.uncast (h : c.Folds ids settings depth k b) (unsealed : b.ledger.stage.sealed = false)
    (unconverted : b.ledger.stage.converted = false) {n : Node} (hn : n ∈ c.nodes)
    (kind : CastKind) (type : Ty) : n.operation ≠ .cast kind type := by
  rw [h.stage, Stage.sealed_foldl] at unsealed
  rw [h.stage, Stage.converted_foldl] at unconverted
  obtain ⟨nodes, start, -⟩ := h
  rw [nodes] at hn unsealed unconverted
  intro op
  rcases List.mem_cons.mp hn with rfl | hn
  · cases start with
    | mainSource source | subQuerySource source => cases source.symm.trans op
  · simp only [List.tail_cons, Bool.or_eq_false_iff, List.any_eq_false, List.mem_map,
      forall_exists_index, and_imp, forall_apply_eq_imp_iff₂] at unsealed unconverted
    have notSealing := unsealed.2 n hn
    have notConverting := unconverted.2 n hn
    cases kind <;> simp_all [Operation.seals, Operation.converts]

theorem Pushed.routes_push (pushed : c.Pushed) {n : Node} (hn : n ∈ c.nodes) (link : NodeId)
    (source : n.source = some link) :
    (c.push identifier operation).route link = c.route link := by
  obtain ⟨i, hi⟩ := List.getElem?_of_mem hn
  have hlt := (List.getElem?_eq_some_iff.mp hi).1
  exact pushed.route_push (Nat.lt_trans (pushed.linked.backward i n link hi source) hlt)

/-- Folding a chain goes on with a further node. -/
theorem Folds.push (h : c.Folds ids settings depth k b) (pushed : c.Pushed)
    (fresh : b.ledger.record? c.nextId = none)
    (step : (c.endNode identifier operation).Step ids
      ((c.endNode identifier operation).nested ids) (c.push identifier operation) b b') :
    (c.push identifier operation).Folds ids settings depth k b' := by
  obtain @⟨first, rest, b₀, _, nodes, start, steps⟩ := h
  refine .intro (by rw [nodes_push, nodes, List.cons_append]) start
    (nodeSteps_append_iff.mpr ⟨b, steps.of_routes fun n hn => ?_, .cons fresh step .nil⟩)
  exact pushed.routes_push (nodes ▸ List.mem_cons_of_mem _ hn)

/-- Folding a chain whose last node is no source takes its last step at the end. -/
theorem Folds.of_push (h : (c.push identifier operation).Folds ids settings depth k b')
    (pushed : c.Pushed) (op : operation.isSource = false) :
    ∃ b, c.Folds ids settings depth k b ∧ b.ledger.record? c.nextId = none ∧
      (c.endNode identifier operation).Step ids ((c.endNode identifier operation).nested ids)
        (c.push identifier operation) b b' := by
  obtain @⟨first, rest, b₀, _, nodes, start, steps⟩ := h
  rw [nodes_push] at nodes
  cases before : c.nodes with
  | nil =>
    rw [before, List.nil_append, List.cons.injEq] at nodes
    obtain ⟨rfl, -⟩ := nodes
    cases start with
    | mainSource source | subQuerySource source =>
      rw [show operation = _ from source] at op
      cases op
  | cons n ns =>
    rw [before, List.cons_append, List.cons.injEq] at nodes
    obtain ⟨rfl, rfl⟩ := nodes
    obtain ⟨b, steps, last⟩ := nodeSteps_append_iff.mp steps
    cases last with
    | cons fresh step done =>
      cases done
      refine ⟨b, .intro before start (steps.of_routes fun n hn link source => ?_), fresh, step⟩
      exact (pushed.routes_push (before ▸ List.mem_cons_of_mem _ hn) link source).symm

end Chain

end QueryFold
