import QueryFold.Language

/-!
# Walks over expressions

A visitor says what to do at each kind of subexpression; a walk calls it from the outside
in and from left to right, at a lambda once before its body and once after. Nested queries
are shown to the visitor but not entered.

Two analyses are walks: the parameters that no enclosing lambda binds, and the sources to
which an expression refers. Both list what they find once, in the order of first
occurrence.
-/

namespace QueryFold

/-- What to do at each kind of subexpression, with a state `σ` that is passed along the walk and
an answer `α` for the subexpression. -/
structure Visitor (σ α : Type) where
  /-- At a parameter. -/
  param : Param → StateM σ α
  /-- At a reference to an item. -/
  item : ItemRef → StateM σ α
  /-- At a lambda, before its body. -/
  enter : Lambda → StateM σ α
  /-- At a lambda, after its body. -/
  leave : Lambda → StateM σ Unit
  /-- At a nested query. -/
  query : Query → StateM σ α
  /-- At any other expression, before its subexpressions. -/
  other : Expr → StateM σ α

/-- The visitor that answers `a` everywhere. -/
def Visitor.const {σ α : Type} (a : α) : Visitor σ α where
  param _ := pure a
  item _ := pure a
  enter _ := pure a
  leave _ := pure ()
  query _ := pure a
  other _ := pure a

mutual

/-- Walk an expression. The result is the answer of the visitor at the whole expression. -/
def Expr.walk {σ α : Type} (v : Visitor σ α) : Expr → StateM σ α
  | .constant value t => v.other (.constant value t)
  | .param p => v.param p
  | .item r => v.item r
  | .member e n t => do
    let answer ← v.other (.member e n t)
    let _ ← e.walk v
    return answer
  | .convert e t => do
    let answer ← v.other (.convert e t)
    let _ ← e.walk v
    return answer
  | .unary op e t => do
    let answer ← v.other (.unary op e t)
    let _ ← e.walk v
    return answer
  | .binary op l r t => do
    let answer ← v.other (.binary op l r t)
    let _ ← l.walk v
    let _ ← r.walk v
    return answer
  | .call o m es t => do
    let answer ← v.other (.call o m es t)
    walkReceiver v o
    walkExprs v es
    return answer
  | .create t ms es => do
    let answer ← v.other (.create t ms es)
    walkExprs v es
    return answer
  | .lambda ps e => do
    let answer ← v.enter ⟨ps, e⟩
    let _ ← e.walk v
    v.leave ⟨ps, e⟩
    return answer
  | .subQuery q => v.query q

/-- Walk the object of a call. -/
def walkReceiver {σ α : Type} (v : Visitor σ α) : Option Expr → StateM σ Unit
  | none => pure ()
  | some e => do
    let _ ← e.walk v

/-- Walk several expressions, one after the other. -/
def walkExprs {σ α : Type} (v : Visitor σ α) : List Expr → StateM σ Unit
  | [] => pure ()
  | e :: es => do
    let _ ← e.walk v
    walkExprs v es

end

/-! ### Free parameters -/

/-- The state of the search for free parameters. -/
structure ParamScope where
  /-- The parameters that the enclosing lambdas bind, the innermost ones last. -/
  bound : List Param
  /-- The free parameters found so far, in the order of first occurrence. -/
  free : List Param

/-- Look for parameters that are not bound: a lambda binds its parameters until its end. -/
def freeParamVisitor : Visitor ParamScope Unit :=
  { Visitor.const () with
    param := fun p => modify fun s =>
      if p ∈ s.bound ∨ p ∈ s.free then s else { s with free := s.free ++ [p] }
    enter := fun l => modify fun s => { s with bound := s.bound ++ l.params }
    leave := fun l => modify fun s =>
      { s with bound := s.bound.take (s.bound.length - l.params.length) } }

/-- The parameters that occur in an expression without being bound there. -/
def Expr.freeParams (e : Expr) : List Param := ((e.walk freeParamVisitor).run ⟨[], []⟩).2.free

/-! ### Sources -/

/-- Look for references to items. -/
def sourceVisitor : Visitor (List SourceId) Unit :=
  { Visitor.const () with
    item := fun r => modify fun found => if r.source ∈ found then found else found ++ [r.source] }

/-- The sources to which an expression refers. -/
def Expr.sources (e : Expr) : List SourceId := ((e.walk sourceVisitor).run []).2

end QueryFold
