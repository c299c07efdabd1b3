import QueryFold.Expr.Basic
import QueryFold.Expr.Equality

/-!
# Substitution

Replace every occurrence of a placeholder in an expression. The placeholder is usually a
parameter, identified by name and type together; then a lambda that binds it hides it, and
the lambda is left alone. Nothing else is renamed or avoided. Nested queries are not
entered.

Occurrences are looked for from the outside in, and a replacement is not searched again.
-/

namespace QueryFold

/-- Whether a lambda with the parameters `ps` hides the placeholder. -/
def hides (ps : List Param) : Expr → Bool
  | .param p => p ∈ ps
  | _ => false

mutual

/-- The expression `e` with every occurrence of `placeholder` replaced by `replacement`. -/
def Expr.substitute (e placeholder replacement : Expr) : Expr :=
  if e.same placeholder then replacement
  else match e with
    | .constant v t => .constant v t
    | .param p => .param p
    | .item r => .item r
    | .member e n t => .member (e.substitute placeholder replacement) n t
    | .convert e t => .convert (e.substitute placeholder replacement) t
    | .unary op e t => .unary op (e.substitute placeholder replacement) t
    | .binary op l r t =>
      .binary op (l.substitute placeholder replacement) (r.substitute placeholder replacement) t
    | .call o m es t =>
      .call (substituteReceiver o placeholder replacement) m
        (substituteExprs es placeholder replacement) t
    | .create t ms es => .create t ms (substituteExprs es placeholder replacement)
    | .lambda ps e =>
      if hides ps placeholder then .lambda ps e
      else .lambda ps (e.substitute placeholder replacement)
    | .subQuery q => .subQuery q
termination_by structural e

/-- Substitution in the object of a call. -/
def substituteReceiver (o : Option Expr) (placeholder replacement : Expr) : Option Expr :=
  match o with
  | none => none
  | some e => some (e.substitute placeholder replacement)
termination_by structural o

/-- Substitution in each of several expressions. -/
def substituteExprs (es : List Expr) (placeholder replacement : Expr) : List Expr :=
  match es with
  | [] => []
  | e :: es => e.substitute placeholder replacement :: substituteExprs es placeholder replacement
termination_by structural es

end

theorem substituteReceiver_eq_map (o : Option Expr) (placeholder replacement : Expr) :
    substituteReceiver o placeholder replacement =
      o.map fun e => e.substitute placeholder replacement := by
  cases o <;> rfl

theorem substituteExprs_eq_map (es : List Expr) (placeholder replacement : Expr) :
    substituteExprs es placeholder replacement =
      es.map fun e => e.substitute placeholder replacement := by
  induction es with
  | nil => rfl
  | cons e es ih => simp [substituteExprs, ih]

namespace Expr

/-- The placeholder is replaced as a whole, a lambda that hides it is left alone, and any other
expression is substituted into, part by part. -/
theorem substitute_eq (e placeholder replacement : Expr) :
    e.substitute placeholder replacement =
      if e.same placeholder then replacement
      else match e with
        | .lambda ps _ =>
          if hides ps placeholder then e
          else e.mapChildren fun c => c.substitute placeholder replacement
        | _ => e.mapChildren fun c => c.substitute placeholder replacement := by
  cases e <;>
    simp [substitute, mapChildren, substituteReceiver_eq_map, substituteExprs_eq_map]

/-- The expression with every free occurrence of a parameter replaced. -/
def substituteParam (e : Expr) (p : Param) (replacement : Expr) : Expr :=
  e.substitute (.param p) replacement

end Expr

end QueryFold
