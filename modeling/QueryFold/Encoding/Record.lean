import QueryFold.Json.Basic

/-!
# Records and variants in documents

A record is written as an object, one member for each field. It may also be read from a list
of its fields in their order, of which only fields at the end that have a default may be
left out. In an object, members that are no fields are ignored; a field may be left out if
it is optional or has a default, and may not be written twice.

A value of one of several variants is written as the name of the variant, or, if the variant
holds something, as an object with the name as its only member. A variant that holds
nothing may also be read from an object whose only member is `null`.
-/

namespace QueryFold

namespace Json

/-- The members of a record with the given fields. A list must have at least `mandatory` items. -/
def fields? (names : List String) (mandatory : Nat) : Json → Option (List (String × Json))
  | object members =>
    if names.all fun name => members.countP (·.1 == name) ≤ 1 then some members else none
  | array items =>
    if mandatory ≤ items.length ∧ items.length ≤ names.length then some (names.zip items) else none
  | _ => none

/-- A field that must be there. -/
def field {α : Type} (members : List (String × Json)) (name : String) (read : Json → Option α) :
    Option α := do
  read (← members.lookup name)

/-- A field that may be left out or `null`. -/
def optional {α : Type} (members : List (String × Json)) (name : String)
    (read : Json → Option α) : Option (Option α) :=
  match members.lookup name with
  | none => some none
  | some null => some none
  | some j => do return some (← read j)

/-- A field that may be left out and then has a default. -/
def defaulted {α : Type} (members : List (String × Json)) (name : String) (read : Json → Option α)
    (default : α) : Option α :=
  match members.lookup name with
  | none => some default
  | some j => read j

/-- The name of a variant and what it holds. -/
def variant? : Json → Option (String × Option Json)
  | string name => some (name, none)
  | object [(name, content)] => some (name, some content)
  | _ => none

/-- The name of a variant that holds nothing. -/
def plainVariant? (j : Json) : Option String :=
  match j.variant? with
  | some (name, none) => some name
  | some (name, some null) => some name
  | _ => none

/-- A variant that holds something. -/
def variant (name : String) (content : Json) : Json := object [(name, content)]

/-! ### Basic values -/

/-- Read a list whose items are all read by `read`. -/
def items? {α : Type} (read : Json → Option α) : Json → Option (List α)
  | array items => items.mapM read
  | _ => none

/-- Read a text. -/
def string? : Json → Option String
  | string s => some s
  | _ => none

/-- Read a truth value. -/
def bool? : Json → Option Bool
  | bool b => some b
  | _ => none

/-- Read a natural number. It is as large as an integer of a document can be. -/
def nat? : Json → Option Nat
  | int n => if 0 ≤ n then some n.toNat else none
  | _ => none

/-- Read a natural number of at most thirty-two bits. -/
def word? : Json → Option UInt32
  | int n => if 0 ≤ n ∧ n < UInt32.size then some (UInt32.ofNat n.toNat) else none
  | _ => none

/-- Read an integer of sixty-four bits. -/
def integer? : Json → Option Int64
  | int n => if Int64.minValue.toInt ≤ n ∧ n ≤ Int64.maxValue.toInt then some (Int64.ofInt n) else none
  | _ => none

/-- Read any number as a float, an integer as the nearest one. -/
def float? : Json → Option Float
  | int n =>
    let magnitude := (UInt64.ofNat n.natAbs).toFloat
    some (if n < 0 then -magnitude else magnitude)
  | float x => if x.isFinite then some x else none
  | _ => none

end Json

end QueryFold
