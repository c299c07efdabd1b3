import QueryFold.Chain.Ledger
import QueryFold.Chain.Links
import QueryFold.Expr.Substitution
import QueryFold.Expr.Walk

/-!
# Resolution

The lambdas of a chain speak about the items of the node before them. Resolving an
expression against a node replaces the parameter that stands for an item of that node by
what the item is in terms of the sources of the query: at a source a reference to its item,
at a selector what the selector yields, after a cast the converted item. Other operations
pass their items on. A named value replaces its name once the expression is resolved against
the nodes before.

Resolution follows the route of links and stops at the first source or projection.
-/

namespace QueryFold

/-- Check that no parameter is left in a resolved expression. -/
def Expr.ensureResolved (e : Expr) : Except BuildError Unit :=
  match e.freeParams with
  | p :: _ => .error (.unresolvable p.name)
  | [] => .ok ()

namespace Lambda

/-- The parameter of a lambda that must have exactly one. -/
def unary (l : Lambda) : Except BuildError Param :=
  match l.single? with
  | some p => .ok p
  | none => .error (.misuse (.notUnary l.render))

/-- The body of a lambda resolved by `resolve`, which takes the parameter and the body. No parameter
may be left. -/
def resolveBy (l : Lambda) (resolve : Param → Expr → Except BuildError Expr) :
    Except BuildError Expr := do
  let p ← l.unary
  let e ← resolve p l.body
  e.ensureResolved
  return e

/-- The two parameters of a result selector. -/
def binary (l : Lambda) : Except BuildError (Param × Param) :=
  match l.params with
  | [outer, inner] => .ok (outer, inner)
  | _ => .error (.misuse (.notBinary l.render))

/-- The body of a result selector of `node`: the second parameter stands for the item of the node
itself, the first is resolved by `resolve` against the node before, in any monad. -/
def resolveResult {m : Type → Type} [Monad m] [MonadLiftT (Except BuildError) m] (l : Lambda)
    (ledger : Ledger) (node : Node) (linked : m Unit) (resolve : Param → Expr → m Expr) :
    m Expr := do
  let (outer, inner) ← l.binary
  let item ← ledger.item node.id
  linked
  let e ← resolve outer (l.body.substituteParam inner (.item item))
  e.ensureResolved
  return e

end Lambda

/-- The reference to the item of a source node. -/
def Ledger.sourceItem (l : Ledger) (node : Node) : Except BuildError ItemRef :=
  match l.item node.id with
  | .ok r => .ok r
  | .error _ => .error (.misuse (.resolvedEarly node.describe))

namespace Route

/-- The type of the items of the node at the start of a route. -/
def itemType (ledger : Ledger) : Route → Except BuildError Ty
  | via node rest =>
    match node.operation with
    | .mainSource _ => do return (← ledger.item node.id).type
    | .subQuerySource _ => do return (← ledger.item node.id).type
    | .selectMany _ (some selector) => .ok selector.body.type
    | .selectMany _ none => do return (← ledger.item node.id).type
    | .select selector => .ok selector.body.type
    | .groupBy key (some element) => .ok (Ty.grouping key.body.type element.body.type)
    | .groupBy key none => do return Ty.grouping key.body.type (← rest.itemType ledger)
    | .cast _ type => .ok type
    | .filter _ => rest.itemType ledger
    | .orderBy _ _ _ => rest.itemType ledger
    | .define _ _ => rest.itemType ledger
    | .resultOperator _ => rest.itemType ledger
  | ended node => .error (.misuse (.unlinked node))
  | unknown id => .error (.unresolvable id.render)
  | endless => .error (.misuse .endlessLinks)

/-- The expression `body` with the parameter `p`, which stands for an item of the node at the start
of the route, resolved. -/
def resolve (ledger : Ledger) : Route → Param → Expr → Except BuildError Expr
  | via node rest, p, body =>
    match node.operation with
    | .mainSource _ => do return body.substituteParam p (.item (← ledger.sourceItem node))
    | .subQuerySource _ => do return body.substituteParam p (.item (← ledger.sourceItem node))
    | .selectMany _ (some selector) => do
      let e ← selector.resolveResult ledger node rest.linked (rest.resolve ledger)
      return body.substituteParam p e
    | .selectMany _ none => do return body.substituteParam p (.item (← ledger.item node.id))
    | .select selector => do
      rest.linked
      return body.substituteParam p (← selector.resolveBy (rest.resolve ledger))
    | .define name _ => do
      let e ← rest.resolve ledger p body
      return e.substituteParam name (.item (← ledger.item node.id))
    | .groupBy _ _ => .error (.misuse (.throughGrouping node.describe))
    | .cast _ type => do
      let before : Param := ⟨p.name, ← rest.itemType ledger⟩
      rest.resolve ledger before (body.substituteParam p (.convert (.param before) type))
    | .filter _ => rest.resolve ledger p body
    | .orderBy _ _ _ => rest.resolve ledger p body
    | .resultOperator _ => rest.resolve ledger p body
  | ended node, _, _ => .error (.misuse (.unlinked node))
  | unknown id, _, _ => .error (.unresolvable id.render)
  | endless, _, _ => .error (.misuse .endlessLinks)

end Route

namespace Chain

/-- The type of the items of a node. -/
def itemType (c : Chain) (ledger : Ledger) (id : NodeId) : Except BuildError Ty :=
  (c.route id).itemType ledger

/-- An expression about an item of a node, for which the parameter `p` stands, resolved. -/
def resolve (c : Chain) (ledger : Ledger) (id : NodeId) (p : Param) (body : Expr) :
    Except BuildError Expr :=
  (c.route id).resolve ledger p body

/-- The body of a lambda about an item of a node resolved. No parameter may be left. -/
def resolveLambda (c : Chain) (ledger : Ledger) (id : NodeId) (l : Lambda) :
    Except BuildError Expr :=
  l.resolveBy (c.resolve ledger id)

end Chain

end QueryFold
