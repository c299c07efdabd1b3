import QueryFold.Expr.Render

/-!
# Operator chains

A query as it is written: a source, followed by operations that each take the result of an
earlier one. A node of a chain holds one operation; its number is its position in the chain,
and its link names the node whose result it takes. A chain may be nested: a node can use a
whole chain as its source.
-/

namespace QueryFold

/-- The number of a node. -/
structure NodeId where
  /-- The position that the node has in its chain. -/
  value : Nat
  deriving DecidableEq, Inhabited

/-- The text of a node number: `n3`. -/
def NodeId.render (id : NodeId) : String := "n" ++ toString id.value

mutual

/-- An operation of a chain. -/
inductive Operation where
  /-- Iterate over a sequence. -/
  | mainSource (expression : Expr)
  /-- Iterate over the result of a nested chain. -/
  | subQuerySource (chain : Chain)
  /-- Iterate, for each item, over a sequence made from it; the result selector makes the items of
  the result from the items of both. -/
  | selectMany (collection : Lambda) (result : Option Lambda)
  /-- Keep the items that satisfy a predicate. -/
  | filter (predicate : Lambda)
  /-- Sort by a key; `thenBy` adds a key to the sorting before it. -/
  | orderBy (key : Lambda) (direction : Direction) (thenBy : Bool)
  /-- Yield the value of a selector for each item. -/
  | select (selector : Lambda)
  /-- Name a value. -/
  | define (name : Param) (value : Lambda)
  /-- Collect the items, or the values of an element selector, under keys. -/
  | groupBy (key : Lambda) (element : Option Lambda)
  /-- Change the item type. -/
  | cast (kind : CastKind) (type : Ty)
  /-- Apply an operator to the result. -/
  | resultOperator (op : ResultOp)

/-- A node of a chain. -/
structure Node where
  /-- The number of the node. -/
  id : NodeId
  /-- The node whose result it takes. -/
  source : Option NodeId
  /-- The name of an item of its result. -/
  identifier : String
  /-- What the operation is called where the chain is written; may be empty. -/
  callSite : String
  /-- The operation. -/
  operation : Operation

/-- A chain of operations with the type of its result. -/
structure Chain where
  /-- The nodes, first node first. -/
  nodes : List Node
  /-- The type of the result. -/
  resultType : Ty

end

instance : Inhabited Operation := ⟨.mainSource default⟩
instance : Inhabited Node := ⟨⟨default, none, "", "", default⟩⟩

/-- The name of an operation. -/
def Operation.name : Operation → String
  | mainSource _ => "MainSource"
  | subQuerySource _ => "SubQuerySource"
  | selectMany _ _ => "SelectMany"
  | filter _ => "Where"
  | orderBy _ _ thenBy => if thenBy then "ThenBy" else "OrderBy"
  | select _ => "Select"
  | define _ _ => "Let"
  | groupBy _ _ => "GroupBy"
  | cast kind _ => kind.name
  | resultOperator op => op.name

/-- Whether an operation starts from a sequence or a nested chain. -/
def Operation.isSource : Operation → Bool
  | mainSource _ => true
  | subQuerySource _ => true
  | _ => false

/-- A node in messages: what it is called, or its operation if that is empty, and its number. -/
def Node.describe (n : Node) : String :=
  (if n.callSite = "" then n.operation.name else n.callSite) ++ " node " ++ n.id.render

namespace Chain

/-- A chain without nodes. -/
def empty (resultType : Ty) : Chain := ⟨[], resultType⟩

/-- The number that the next node will have. -/
def nextId (c : Chain) : NodeId := ⟨c.nodes.length⟩

/-- The chain with a further node that takes the result of `source`. -/
def pushFrom (c : Chain) (source : Option NodeId) (identifier : String) (operation : Operation) :
    Chain :=
  { c with nodes := c.nodes ++ [⟨c.nextId, source, identifier, operation.name, operation⟩] }

/-- The chain with a further node that takes the result of the last one. -/
def push (c : Chain) (identifier : String) (operation : Operation) : Chain :=
  c.pushFrom (c.nodes.getLast?.map Node.id) identifier operation

end Chain

end QueryFold
