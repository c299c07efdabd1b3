import QueryFold.Proofs.Chain.Calls
import QueryFold.Proofs.Chain.Items

/-!
# The recursion of resolution

Resolution is defined along routes, which are cut off where they get too long. Here it is taken as a
recursion from node to node that nothing cuts off: to answer a call, the node is looked up, and what
its operation needs to know about the node before is asked by further calls (`Call.body`).

Such calls are about the node to which the node is linked, and about no other (`Node.asks_resolve`).
So if links are in order they go down to smaller and smaller numbers (`Call.asks_body`), and a
recursion that enters a node is never deeper than its number and one more
(`Call.within_eq_answer`). Otherwise it need not end: where links lead from node to node without an
end, past nodes that pass their items on, no depth is enough (`Call.within_eq_none`).
-/

namespace QueryFold

variable {chain : Chain} {ledger : Ledger} {n : Node}

/-! ### One level of the recursion -/

namespace Node

variable (chain : Chain) (ledger : Ledger) (n : Node)

/-- Ask a question about the node before. -/
def askBefore (q : Question) : Asking q.Answer := do
  let link ← n.link
  ask chain ledger link q

/-- The type of the items of a node, found by asking about the node before. -/
def itemTypeAsking : Asking Ty :=
  match n.operation with
  | .mainSource _ | .subQuerySource _ => do return (← ledger.item n.id).type
  | .selectMany _ (some selector) => return selector.body.type
  | .selectMany _ none => do return (← ledger.item n.id).type
  | .select selector => return selector.body.type
  | .groupBy key (some element) => return Ty.grouping key.body.type element.body.type
  | .groupBy key none => do
    return Ty.grouping key.body.type (← n.askBefore chain ledger .type)
  | .cast _ type => return type
  | .filter _ | .orderBy _ _ _ | .define _ _ | .resultOperator _ => n.askBefore chain ledger .type

/-- An expression about an item of a node, for which the parameter `p` stands, resolved by asking
about the node before. -/
def resolveAsking (p : Param) (body : Expr) : Asking Expr :=
  match n.operation with
  | .mainSource _ | .subQuerySource _ => do
    return body.substituteParam p (.item (← ledger.sourceItem n))
  | .selectMany _ (some selector) => do
    let e ← selector.resolveResult ledger n (pure ()) fun p e =>
      n.askBefore chain ledger (.item p e)
    return body.substituteParam p e
  | .selectMany _ none => do return body.substituteParam p (.item (← ledger.item n.id))
  | .select selector => do
    return body.substituteParam p (← n.askBefore chain ledger (.lambda selector))
  | .define name _ => do
    let e ← n.askBefore chain ledger (.item p body)
    return e.substituteParam name (.item (← ledger.item n.id))
  | .groupBy _ _ => throw (.misuse (.throughGrouping n.describe))
  | .cast _ type => do
    let before : Param := ⟨p.name, ← n.askBefore chain ledger .type⟩
    n.askBefore chain ledger
      (.item before (body.substituteParam p (.convert (.param before) type)))
  | .filter _ | .orderBy _ _ _ | .resultOperator _ => n.askBefore chain ledger (.item p body)

end Node

/-- An expression about an item of a node of the chain, resolved by asking about the node before. -/
def Chain.resolveAsking (chain : Chain) (ledger : Ledger) (id : NodeId) (p : Param) (body : Expr) :
    Asking Expr := do
  let n ← chain.node id
  n.resolveAsking chain ledger p body

/-- The type of the items of a node of the chain, found by asking about the node before. -/
def Chain.itemTypeAsking (chain : Chain) (ledger : Ledger) (id : NodeId) : Asking Ty := do
  let n ← chain.node id
  n.itemTypeAsking chain ledger

/-- What is done to answer a call. -/
def Call.body : (c : Call) → Asking c.question.Answer
  | ⟨chain, ledger, id, .item p body⟩ => chain.resolveAsking ledger id p body
  | ⟨chain, ledger, id, .lambda l⟩ => do
    let p ← l.unary
    let e ← chain.resolveAsking ledger id p l.body
    e.ensureResolved
    return e
  | ⟨chain, ledger, id, .type⟩ => chain.itemTypeAsking ledger id

/-- The answer to a call, found by a recursion that enters at most `depth` nodes one within the
other. There is none if it would have to enter more. -/
def Call.within : (depth : Nat) → (c : Call) → Option (Except BuildError c.question.Answer)
  | 0, _ => none
  | depth + 1, c => c.body.run.replied (within depth)

/-! ### The node before -/

/-- The answer to a question about the node at the start of a route. -/
def Question.along (ledger : Ledger) (route : Route) : (q : Question) → Except BuildError q.Answer
  | item p body => route.resolve ledger p body
  | lambda l => l.resolveBy (route.resolve ledger)
  | type => route.itemType ledger

theorem Call.answer_eq_along (c : Call) :
    c.answer = c.question.along c.ledger (c.chain.route c.node) := by
  obtain ⟨chain, ledger, id, p | l | _⟩ := c <;> rfl

/-- A result selector is resolved by whatever resolves its body. -/
theorem Lambda.asks_resolveResult (l : Lambda) (ledger : Ledger) (n : Node) {P : Call → Prop}
    {linked : Except BuildError Unit} {resolve : Param → Expr → Asking Expr}
    {resolve' : Param → Expr → Except BuildError Expr}
    (h : ∀ p e, Asks P (resolve p e) (do linked; resolve' p e)) :
    Asks P (l.resolveResult ledger n (pure ()) resolve)
      (l.resolveResult ledger n linked resolve') := by
  refine .bind (.lift _) ?_
  rintro ⟨outer, inner⟩
  refine .bind (.lift _) fun item => ?_
  have resolved := Asks.bind (h outer (l.body.substituteParam inner (.item item))) fun e =>
    .bind (.lift e.ensureResolved) fun _ => .pure e
  rwa [bind_assoc] at resolved

/-- The call is about the node to which a node is linked. -/
structure Call.Onward (chain : Chain) (ledger : Ledger) (n : Node) (c : Call) : Prop where
  chain : c.chain = chain
  ledger : c.ledger = ledger
  node : n.source = some c.node

namespace Node

variable (chain : Chain) (ledger : Ledger) (n : Node)

/-- A question about the node before is answered along the rest of the route. -/
theorem asks_before (q : Question) :
    Asks (Call.Onward chain ledger n) (n.askBefore chain ledger q)
      (do (chain.routeAfter n).linked; q.along ledger (chain.routeAfter n)) := by
  rw [askBefore, link, Chain.routeAfter]
  cases source : n.source with
  | none => exact .throw _
  | some link =>
    have asked : Asks (Call.Onward chain ledger n) (ask chain ledger link q) _ :=
      .ask ⟨rfl, rfl, source⟩
    rw [Call.answer_eq_along] at asked
    dsimp only
    rw [Chain.linked_route]
    exact asked

-- Where there is no node before, resolution along the rest of the route fails for that reason too.

theorem asks_before_item (p : Param) (body : Expr) :
    Asks (Call.Onward chain ledger n) (n.askBefore chain ledger (.item p body))
      ((chain.routeAfter n).resolve ledger p body) := by
  have asked := n.asks_before chain ledger (.item p body)
  generalize chain.routeAfter n = rest at asked ⊢
  cases rest <;> exact asked

theorem asks_before_type :
    Asks (Call.Onward chain ledger n) (n.askBefore chain ledger .type)
      ((chain.routeAfter n).itemType ledger) := by
  have asked := n.asks_before chain ledger .type
  generalize chain.routeAfter n = rest at asked ⊢
  cases rest <;> exact asked

theorem asks_itemType :
    Asks (Call.Onward chain ledger n) (n.itemTypeAsking chain ledger)
      ((Route.via n (chain.routeAfter n)).itemType ledger) := by
  rw [itemTypeAsking, Route.itemType]
  cases n.operation with
  | mainSource _ | subQuerySource _ => exact .bind (.lift _) fun _ => .pure _
  | selectMany _ result =>
    cases result with
    | none => exact .bind (.lift _) fun _ => .pure _
    | some selector => exact .pure _
  | select _ | cast _ _ => exact .pure _
  | groupBy key element =>
    cases element with
    | none => exact .bind (n.asks_before_type chain ledger) fun _ => .pure _
    | some selector => exact .pure _
  | filter _ | orderBy _ _ _ | define _ _ | resultOperator _ =>
    exact n.asks_before_type chain ledger

/-- **Resolution against a node** asks only about the node before. -/
theorem asks_resolve (p : Param) (body : Expr) :
    Asks (Call.Onward chain ledger n) (n.resolveAsking chain ledger p body)
      ((Route.via n (chain.routeAfter n)).resolve ledger p body) := by
  rw [resolveAsking, Route.resolve]
  cases n.operation with
  | mainSource _ | subQuerySource _ => exact .bind (.lift _) fun _ => .pure _
  | selectMany _ result =>
    cases result with
    | none => exact .bind (.lift _) fun _ => .pure _
    | some selector =>
      have resolved := selector.asks_resolveResult ledger n fun p e =>
        n.asks_before chain ledger (.item p e)
      exact .bind resolved fun _ => .pure _
  | select selector =>
    have asked := n.asks_before chain ledger (.lambda selector)
    have resolved := Asks.bind asked fun e => .pure (body.substituteParam p e)
    rwa [bind_assoc] at resolved
  | define name _ =>
    refine .bind (n.asks_before_item chain ledger p body) fun e => ?_
    exact .bind (.lift _) fun _ => .pure _
  | groupBy _ _ => exact .throw _
  | cast _ type =>
    refine .bind (n.asks_before_type chain ledger) fun t => ?_
    exact n.asks_before_item chain ledger _ _
  | filter _ | orderBy _ _ _ | resultOperator _ => exact n.asks_before_item chain ledger p body

end Node

/-! ### Links in order -/

/-- The call is about a node of the chain with a smaller number. -/
structure Call.Below (chain : Chain) (ledger : Ledger) (id : NodeId) (c : Call) : Prop where
  chain : c.chain = chain
  ledger : c.ledger = ledger
  node : c.node.value < id.value

namespace Chain

variable {id : NodeId}

/-- What is known about the node with a number is known along the route from there, and the node
before has a smaller number. -/
theorem Linked.asks_node {α : Type} {f : Node → Asking α} {g : Route → Except BuildError α}
    (linked : chain.Linked) (unknown : g (.unknown id) = .error (.unresolvable id.render))
    (known : ∀ n, Asks (Call.Onward chain ledger n) (f n) (g (.via n (chain.routeAfter n)))) :
    Asks (Call.Below chain ledger id) (do let n ← chain.node id; f n) (g (chain.route id)) := by
  rw [node]
  cases here : chain.nodes[id.value]? with
  | none =>
    rw [route, routeWithin, here, unknown]
    exact .throw _
  | some n =>
    rw [linked.route_eq here]
    exact (known n).imp fun c h => ⟨h.chain, h.ledger, linked.backward _ n _ here h.node⟩

theorem Linked.asks_resolve (linked : chain.Linked) (p : Param) (body : Expr) :
    Asks (Call.Below chain ledger id) (chain.resolveAsking ledger id p body)
      (chain.resolve ledger id p body) :=
  linked.asks_node (g := fun route => route.resolve ledger p body) rfl fun n =>
    n.asks_resolve chain ledger p body

theorem Linked.asks_itemType (linked : chain.Linked) :
    Asks (Call.Below chain ledger id) (chain.itemTypeAsking ledger id) (chain.itemType ledger id) :=
  linked.asks_node (g := fun route => route.itemType ledger) rfl fun n =>
    n.asks_itemType chain ledger

end Chain

namespace Call

variable {c : Call}

/-- **If links are in order**, a call leads to calls about nodes with smaller numbers only, and with
the answers to these it gets its own answer. -/
theorem asks_body (linked : c.chain.Linked) :
    Asks (Below c.chain c.ledger c.node) c.body c.answer := by
  obtain ⟨chain, ledger, id, p | l | _⟩ := c
  · exact linked.asks_resolve p _
  · refine .bind (.lift _) fun p => ?_
    exact .bind (linked.asks_resolve p l.body) fun e => .bind (.lift _) fun _ => .pure e
  · exact linked.asks_itemType

/-- If links are in order, a recursion that enters at most as many nodes as there are up to the one
asked about comes to an end, with the answer of resolution. -/
theorem within_eq_answer (linked : c.chain.Linked) {depth : Nat} (deep : c.node.value < depth) :
    c.within depth = some c.answer := by
  induction depth generalizing c with
  | zero => omega
  | succ depth ih =>
    obtain ⟨only, answered⟩ := asks_body linked
    rw [within, ← answered]
    refine only.replied_eq fun c' h => ?_
    have lt := h.node
    exact ih (h.chain ▸ linked) (by omega)

end Call

/-! ### Links without an end -/

theorem Node.resolveAsking_of_passesItem (passes : n.operation.passesItem = true) (p : Param)
    (body : Expr) :
    n.resolveAsking chain ledger p body = n.askBefore chain ledger (.item p body) := by
  rw [resolveAsking]
  split <;> simp_all [Operation.passesItem]

/-- Where the links of nodes that pass their items on lead to such nodes again and again, no depth
is enough to resolve an expression. -/
theorem Call.within_eq_none {S : NodeId → Prop}
    (endless : ∀ id, S id → ∃ n link, chain.nodes[id.value]? = some n ∧
      n.operation.passesItem = true ∧ n.source = some link ∧ S link)
    {id : NodeId} (h : S id) (p : Param) (body : Expr) (depth : Nat) :
    within depth ⟨chain, ledger, id, .item p body⟩ = none := by
  induction depth generalizing id with
  | zero => rfl
  | succ depth ih =>
    obtain ⟨n, link, here, passes, source, hlink⟩ := endless id h
    have onward : chain.resolveAsking ledger id p body = ask chain ledger link (.item p body) := by
      rw [Chain.resolveAsking, Chain.node, here]
      show n.resolveAsking chain ledger p body = _
      rw [Node.resolveAsking_of_passesItem passes, Node.askBefore, Node.link, source]
      rfl
    show (chain.resolveAsking ledger id p body).run.replied (within depth) = none
    rw [onward]
    show (within depth ⟨chain, ledger, link, .item p body⟩).bind _ = none
    rw [ih hlink]
    rfl

end QueryFold
