import QueryFold.Literal
import QueryFold.Ty

/-!
# The language of queries

A query is written as a comprehension: it iterates over a source, then filters, sorts,
names values or iterates over further sources, and ends by selecting or grouping. Its
clauses hold expressions, and an expression may in turn hold a query.

A source is a range variable with an identity. Expressions refer to the current item of
a source by that identity alone; the name and the type in a reference are for display.
Clauses know the clause before them by its position in the query.
-/

namespace QueryFold

/-! ### Names and positions -/

/-- A named and typed parameter of a lambda, or the name of an item. -/
structure Param where
  /-- The name. -/
  name : String
  /-- The static type. -/
  type : Ty
  deriving DecidableEq, Inhabited

/-- The identity of a source. -/
structure SourceId where
  /-- The number behind the identity. -/
  value : Nat
  deriving DecidableEq, Inhabited

/-- The text of an identity: `#3`. -/
def SourceId.render (id : SourceId) : String := "#" ++ toString id.value

/-- A range variable: what a from clause iterates with, or what a let clause names. -/
structure Source where
  /-- The identity to which expressions refer. -/
  id : SourceId
  /-- The name and the type of an item. -/
  item : Param
  deriving DecidableEq, Inhabited

/-- A reference to the current item of a source. -/
structure ItemRef where
  /-- The identity of the source. -/
  source : SourceId
  /-- The name of the item when the reference was made. -/
  name : String
  /-- The type of the item when the reference was made. -/
  type : Ty
  deriving DecidableEq, Inhabited

/-- The reference to the current item of a source. -/
def Source.ref (s : Source) : ItemRef := ⟨s.id, s.item.name, s.item.type⟩

/-- The place of a clause in a query. -/
inductive Position where
  /-- The main from clause, with which the query starts. -/
  | main
  /-- A body clause, counted from zero. -/
  | body (index : Nat)
  deriving DecidableEq, Inhabited

/-- The text of a position in messages. -/
def Position.render : Position → String
  | main => "main from clause"
  | body index => "body clause " ++ toString index

/-! ### Operators -/

/-- An operator with one operand. -/
inductive UnaryOp where
  /-- Logical negation. -/
  | not
  /-- Arithmetical negation. -/
  | negate
  deriving DecidableEq, Inhabited

/-- An operator with two operands. -/
inductive BinaryOp where
  | equal | notEqual | lessThan | lessThanOrEqual | greaterThan | greaterThanOrEqual
  | andAlso | orElse | add | subtract | multiply | divide | modulo
  deriving DecidableEq, Inhabited

namespace BinaryOp

/-- Whether the operator yields a truth value; the arithmetical ones do not. -/
def isPredicate : BinaryOp → Bool
  | add | subtract | multiply | divide | modulo => false
  | _ => true

/-- The symbol between the operands. -/
def symbol : BinaryOp → String
  | equal => "=="
  | notEqual => "!="
  | lessThan => "<"
  | lessThanOrEqual => "<="
  | greaterThan => ">"
  | greaterThanOrEqual => ">="
  | andAlso => "&&"
  | orElse => "||"
  | add => "+"
  | subtract => "-"
  | multiply => "*"
  | divide => "/"
  | modulo => "%"

end BinaryOp

/-- The direction of a sort key. -/
inductive Direction where
  /-- Smallest first. -/
  | ascending
  /-- Largest first. -/
  | descending
  deriving DecidableEq, Inhabited

/-- The text of a direction. -/
def Direction.render : Direction → String
  | ascending => "asc"
  | descending => "desc"

/-- What a from clause over an expression iterates over. -/
inductive FromKind where
  /-- Any sequence. -/
  | additional
  /-- A member of an earlier item. -/
  | member
  deriving DecidableEq, Inhabited

/-- The two ways to change the item type of a sequence. -/
inductive CastKind where
  /-- Convert every item. -/
  | cast
  /-- Keep the items that have the type. -/
  | ofType
  deriving DecidableEq, Inhabited

/-- An operator on the result of a query that takes nothing else. -/
inductive PlainOp where
  | count | longCount | distinct | any | sum | min | max | average
  deriving DecidableEq, Inhabited

/-- An operator that takes one item of the result. -/
inductive PickOp where
  | first | last | single
  deriving DecidableEq, Inhabited

/-- An operator with an expression as its argument. -/
inductive ArgumentOp where
  /-- The first items, as many as the argument says. -/
  | take
  /-- All but the first items. -/
  | skip
  /-- Whether the argument holds of all items. -/
  | all
  /-- Whether the argument is among the items. -/
  | contains
  deriving DecidableEq, Inhabited

/-! ### Expressions, clauses and queries -/

mutual

/-- An expression. -/
inductive Expr where
  /-- A literal. -/
  | constant (value : Literal) (type : Ty)
  /-- A parameter, bound by an enclosing lambda or free. -/
  | param (p : Param)
  /-- The current item of a source. -/
  | item (ref : ItemRef)
  /-- A member of an object. -/
  | member (object : Expr) (name : String) (type : Ty)
  /-- A conversion to a type. -/
  | convert (operand : Expr) (type : Ty)
  /-- An operator applied to one operand. -/
  | unary (op : UnaryOp) (operand : Expr) (type : Ty)
  /-- An operator applied to two operands. -/
  | binary (op : BinaryOp) (left right : Expr) (type : Ty)
  /-- A call of a method, of an object or of none. -/
  | call (object : Option Expr) (method : String) (args : List Expr) (type : Ty)
  /-- A new object, its arguments possibly assigned to members. -/
  | create (type : Ty) (members : List String) (args : List Expr)
  /-- A function of some parameters. -/
  | lambda (params : List Param) (body : Expr)
  /-- A query as a value. -/
  | subQuery (query : Query)

/-- A sort key of an order by clause. -/
structure SortKey where
  /-- The expression by which items are sorted. -/
  key : Expr
  /-- The direction of sorting. -/
  direction : Direction
  /-- The clause that holds the key, once it is part of a query. -/
  owner : Option Position

/-- A body clause. Each clause names the clause before it. -/
inductive Clause where
  /-- Iterate over a further sequence. -/
  | fromExpr (kind : FromKind) (source : Source) (generator : Expr) (projection : Option Expr)
    (previous : Position)
  /-- Iterate over the result of a nested query. -/
  | fromQuery (source : Source) (query : Query) (projection : Option Expr) (previous : Position)
  /-- Keep the items that satisfy a predicate. -/
  | filter (predicate : Expr) (previous : Position)
  /-- Name a value. -/
  | define (source : Source) (value : Expr) (previous : Position)
  /-- Sort by keys, the first one counting most. -/
  | orderBy (keys : List SortKey) (previous : Position)

/-- The clause with which a query ends. -/
inductive Terminal where
  /-- Yield the value of an expression for each item. -/
  | select (selector : Expr) (previous : Position)
  /-- Collect the values of an expression under keys. -/
  | group (key element : Expr) (previous : Position)

/-- An operator on the result of a query. -/
inductive ResultOp where
  /-- A change of the item type. -/
  | cast (kind : CastKind) (type : Ty)
  /-- An operator that takes nothing else. -/
  | plain (op : PlainOp)
  /-- One item of the result, or a default value for an empty result if that is allowed. -/
  | pick (op : PickOp) (orDefault : Bool)
  /-- An operator with an argument. -/
  | argument (op : ArgumentOp) (arg : Expr)

/-- A query. -/
structure Query where
  /-- The source of the main from clause. -/
  source : Source
  /-- The sequence over which the main from clause iterates. -/
  generator : Expr
  /-- The body clauses in the order of evaluation. -/
  body : List Clause
  /-- The last clause, once it is known. -/
  terminal : Option Terminal
  /-- The operators on the result, in the order in which they apply. -/
  operators : List ResultOp
  /-- The type of the result. -/
  resultType : Ty

end

instance : Inhabited Expr := ⟨.constant .null Ty.object⟩

/-- A function of some parameters, as the operations of a chain take it. -/
structure Lambda where
  /-- The parameters. -/
  params : List Param
  /-- The body. -/
  body : Expr
  deriving Inhabited

namespace Lambda

/-- A lambda as an expression. -/
def toExpr (l : Lambda) : Expr := .lambda l.params l.body

/-- The parameter of a lambda that has exactly one. -/
def single? (l : Lambda) : Option Param :=
  match l.params with
  | [p] => some p
  | _ => none

end Lambda

end QueryFold
