import QueryFold.Decimal.Layout

/-!
# Literals

The constants of query expressions. An external literal stands for a value that the
query mentions but that has no text of its own, such as the collection it starts from;
only a description of it is kept.
-/

namespace QueryFold

/-- A constant of an expression. -/
inductive Literal where
  /-- The absent value. -/
  | null
  /-- A truth value. -/
  | boolean (value : Bool)
  /-- An integer of sixty-four bits. -/
  | integer (value : Int64)
  /-- A floating-point number. -/
  | float (value : Float)
  /-- A text. -/
  | string (value : String)
  /-- A value known by its description only. -/
  | external (description : String)
  deriving Inhabited

namespace Literal

/-- Whether two literals count as equal. Floats are compared as numbers, so the two zeros are
equal. -/
def same : Literal → Literal → Bool
  | null, null => true
  | boolean a, boolean b => a == b
  | integer a, integer b => a == b
  | float a, float b => a == b
  | string a, string b => a == b
  | external a, external b => a == b
  | _, _ => false

/-- The text of a literal. Texts are quoted as they are, without escapes. -/
def render : Literal → String
  | null => "null"
  | boolean b => if b then "true" else "false"
  | integer i => toString i.toInt
  | float x => Decimal.displayText x
  | string s => "\"" ++ s ++ "\""
  | external description => "value(" ++ description ++ ")"

end Literal

end QueryFold
