import QueryFold.Expr.Basic

/-!
# Clauses

The parts of body clauses and of the clause that ends a query: the link to the clause
before, the source that a clause introduces, the projection of a from clause, and the
expressions that a clause holds itself. The expressions of a nested query belong to that
query and not to the clause that iterates over it.
-/

namespace QueryFold

namespace Clause

/-- The position that a clause gives for the clause before it. -/
def previous : Clause → Position
  | fromExpr _ _ _ _ previous => previous
  | fromQuery _ _ _ previous => previous
  | filter _ previous => previous
  | define _ _ previous => previous
  | orderBy _ previous => previous

/-- The clause as it stands at `position` behind `previous`; its sort keys belong to it there. -/
def attach (position previous : Position) : Clause → Clause
  | fromExpr kind source generator projection _ =>
    fromExpr kind source generator projection previous
  | fromQuery source query projection _ => fromQuery source query projection previous
  | filter predicate _ => filter predicate previous
  | define source value _ => define source value previous
  | orderBy keys _ => orderBy (keys.map fun k => { k with owner := some position }) previous

/-- The source that a clause introduces. -/
def source? : Clause → Option Source
  | fromExpr _ source _ _ _ => some source
  | fromQuery source _ _ _ => some source
  | define source _ _ => some source
  | _ => none

/-- Whether a clause iterates over something. -/
def isFrom : Clause → Bool
  | fromExpr .. => true
  | fromQuery .. => true
  | _ => false

/-- The projection of a from clause. -/
def projection? : Clause → Option Expr
  | fromExpr _ _ _ projection _ => projection
  | fromQuery _ _ projection _ => projection
  | _ => none

/-- A from clause with a given projection. -/
def withProjection? (e : Expr) : Clause → Option Clause
  | fromExpr kind source generator _ previous =>
    some (fromExpr kind source generator (some e) previous)
  | fromQuery source query _ previous => some (fromQuery source query (some e) previous)
  | _ => none

/-- An order by clause with a further key, which belongs to the clause at `position`. -/
def withKey? (position : Position) (k : SortKey) : Clause → Option Clause
  | orderBy keys previous => some (orderBy (keys ++ [{ k with owner := some position }]) previous)
  | _ => none

/-- The keys of an order by clause. -/
def keys? : Clause → Option (List SortKey)
  | orderBy keys _ => some keys
  | _ => none

/-- The expressions that a clause holds itself. -/
def expressions : Clause → List Expr
  | fromExpr _ _ generator projection _ => generator :: projection.toList
  | fromQuery _ _ projection _ => projection.toList
  | filter predicate _ => [predicate]
  | define _ value _ => [value]
  | orderBy keys _ => keys.map SortKey.key

@[simp] theorem previous_attach (position previous' : Position) (c : Clause) :
    (c.attach position previous').previous = previous' := by
  cases c <;> rfl

@[simp] theorem source?_attach (position previous' : Position) (c : Clause) :
    (c.attach position previous').source? = c.source? := by
  cases c <;> rfl

@[simp] theorem projection?_attach (position previous' : Position) (c : Clause) :
    (c.attach position previous').projection? = c.projection? := by
  cases c <;> rfl

@[simp] theorem expressions_attach (position previous' : Position) (c : Clause) :
    (c.attach position previous').expressions = c.expressions := by
  cases c <;> simp [attach, expressions]

end Clause

/-- The member that a from clause iterates over, if its expression or the body of its lambda is a
member. -/
def Expr.memberName? : Expr → Option String
  | .member _ name _ => some name
  | .lambda _ (.member _ name _) => some name
  | _ => none

namespace Terminal

/-- The position that the last clause gives for the clause before it. -/
def previous : Terminal → Position
  | select _ previous => previous
  | group _ _ previous => previous

/-- The last clause as it stands behind `previous`. -/
def attach (previous : Position) : Terminal → Terminal
  | select selector _ => select selector previous
  | group key element _ => group key element previous

/-- The expressions of the last clause. -/
def expressions : Terminal → List Expr
  | select selector _ => [selector]
  | group key element _ => [key, element]

/-- The type of the items that a query yields with this last clause. -/
def outputType : Terminal → Ty
  | select selector _ => selector.projectedType
  | group key element _ => Ty.grouping key.projectedType element.projectedType

@[simp] theorem previous_attach (p : Position) (t : Terminal) : (t.attach p).previous = p := by
  cases t <;> rfl

@[simp] theorem expressions_attach (p : Position) (t : Terminal) :
    (t.attach p).expressions = t.expressions := by
  cases t <;> rfl

end Terminal

namespace ResultOp

/-- The item type that an operator sets. -/
def castType? : ResultOp → Option Ty
  | cast _ type => some type
  | _ => none

/-- The expressions of an operator. -/
def expressions : ResultOp → List Expr
  | argument _ arg => [arg]
  | _ => []

end ResultOp

end QueryFold
