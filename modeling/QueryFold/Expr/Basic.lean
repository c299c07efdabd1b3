import QueryFold.Language

/-!
# Expressions

The static type of an expression, its immediate subexpressions, and constructors that
compute the type from the parts. A nested query is a leaf here: its expressions are not
subexpressions of the expression that holds it.
-/

namespace QueryFold

namespace Expr

/-- The static type of an expression. A lambda has a function type, a query the type of its
result. -/
def type : Expr → Ty
  | constant _ t => t
  | param p => p.type
  | item r => r.type
  | member _ _ t => t
  | convert _ t => t
  | unary _ _ t => t
  | binary _ _ _ t => t
  | call _ _ _ t => t
  | create t _ _ => t
  | lambda ps body => Ty.function (ps.map Param.type) body.type
  | subQuery q => q.resultType

/-! ### Construction -/

/-- An integer. -/
def ofInt (n : Int64) : Expr := constant (.integer n) Ty.int

/-- A value known by its description. -/
def external (description : String) (t : Ty) : Expr := constant (.external description) t

/-- The logical negation of an expression. -/
def negation (e : Expr) : Expr := unary .not e Ty.bool

/-- An operator applied to two expressions. A predicate yields a truth value, an arithmetical
operator a value of the type of its left operand. -/
def operate (op : BinaryOp) (left right : Expr) : Expr :=
  binary op left right (if op.isPredicate then Ty.bool else left.type)

/-- The reference to the current item of a source. -/
def ofSource (s : Source) : Expr := item s.ref

/-! ### Subexpressions -/

/-- The immediate subexpressions, in the order in which they are written. -/
def children : Expr → List Expr
  | member object _ _ => [object]
  | convert operand _ => [operand]
  | unary _ operand _ => [operand]
  | binary _ left right _ => [left, right]
  | call object _ args _ => object.toList ++ args
  | create _ _ args => args
  | lambda _ body => [body]
  | _ => []

/-- The expression with every immediate subexpression replaced by its image under `f`. -/
def mapChildren (f : Expr → Expr) : Expr → Expr
  | member object name t => member (f object) name t
  | convert operand t => convert (f operand) t
  | unary op operand t => unary op (f operand) t
  | binary op left right t => binary op (f left) (f right) t
  | call object method args t => call (object.map f) method (args.map f) t
  | create t members args => create t members (args.map f)
  | lambda ps body => lambda ps (f body)
  | e => e

@[simp] theorem mapChildren_id (e : Expr) : e.mapChildren (fun e => e) = e := by
  cases e <;> simp [mapChildren]

theorem children_mapChildren (f : Expr → Expr) (e : Expr) :
    (e.mapChildren f).children = e.children.map f := by
  cases e with
  | call object => cases object <;> simp [mapChildren, children]
  | _ => simp [mapChildren, children]

/-- The type of what a selector yields: the type of the body of a lambda, and of any other
expression its own type. -/
def projectedType : Expr → Ty
  | lambda _ body => body.type
  | e => e.type

end Expr

end QueryFold
