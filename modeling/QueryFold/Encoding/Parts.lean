import QueryFold.Encoding.Record
import QueryFold.Expr.Render

/-!
# Documents of types, literals and names

The written forms of the parts from which expressions and clauses are made. For each part
there is a function that writes it and one that reads it.
-/

namespace QueryFold

/-! ### Types -/

namespace Ty

mutual

/-- A type as a document; the arguments are left out if there are none. -/
def toJson : Ty → Json
  | ⟨name, []⟩ => .object [("name", .string name)]
  | ⟨name, arg :: args⟩ =>
    .object [("name", .string name), ("args", .array (arg.toJson :: argsToJson args))]

/-- The arguments of a type as documents. -/
def argsToJson : List Ty → List Json
  | [] => []
  | t :: ts => t.toJson :: argsToJson ts

end

/-- Read a type that is nested in at most `fuel` types. -/
def readWithin : (fuel : Nat) → Json → Option Ty
  | 0, _ => none
  | fuel + 1, j => do
    let members ← j.fields? ["name", "args"] 1
    let name ← Json.field members "name" Json.string?
    let args ← Json.defaulted members "args" (Json.items? (readWithin fuel)) []
    return ⟨name, args⟩

/-- Read a type. -/
def ofJson? (j : Json) : Option Ty := readWithin (j.height + 1) j

end Ty

/-! ### Literals -/

namespace Literal

/-- A literal as a document. -/
def toJson : Literal → Json
  | null => .string "Null"
  | boolean b => .variant "Boolean" (.bool b)
  | integer i => .variant "Integer" (.int i.toInt)
  | float x => .variant "Float" (.float x)
  | string s => .variant "String" (.string s)
  | external description => .variant "Opaque" (.string description)

/-- Read a literal. -/
def ofJson? (j : Json) : Option Literal := do
  match ← j.variant? with
  | ("Null", none) => some null
  | ("Null", some .null) => some null
  | ("Boolean", some content) => return boolean (← content.bool?)
  | ("Integer", some content) => return integer (← content.integer?)
  | ("Float", some content) => return float (← content.float?)
  | ("String", some content) => return string (← content.string?)
  | ("Opaque", some content) => return external (← content.string?)
  | _ => none

end Literal

/-! ### Names -/

/-- A parameter as a document. -/
def Param.toJson (p : Param) : Json := .object [("name", .string p.name), ("ty", p.type.toJson)]

/-- Read a parameter. -/
def Param.ofJson? (j : Json) : Option Param := do
  let members ← j.fields? ["name", "ty"] 2
  let name ← Json.field members "name" Json.string?
  let type ← Json.field members "ty" Ty.ofJson?
  return ⟨name, type⟩

/-- An identity as a document. -/
def SourceId.toJson (id : SourceId) : Json := .int id.value

/-- Read an identity. -/
def SourceId.ofJson? (j : Json) : Option SourceId := do return ⟨← j.nat?⟩

/-- A source as a document. -/
def Source.toJson (s : Source) : Json :=
  .object [("id", s.id.toJson), ("identifier", s.item.toJson)]

/-- Read a source. -/
def Source.ofJson? (j : Json) : Option Source := do
  let members ← j.fields? ["id", "identifier"] 2
  let id ← Json.field members "id" SourceId.ofJson?
  let item ← Json.field members "identifier" Param.ofJson?
  return ⟨id, item⟩

/-- A reference as a document. -/
def ItemRef.toJson (r : ItemRef) : Json :=
  .object [("source", r.source.toJson), ("item_name", .string r.name), ("item_type", r.type.toJson)]

/-- Read a reference. -/
def ItemRef.ofJson? (j : Json) : Option ItemRef := do
  let members ← j.fields? ["source", "item_name", "item_type"] 3
  let source ← Json.field members "source" SourceId.ofJson?
  let name ← Json.field members "item_name" Json.string?
  let type ← Json.field members "item_type" Ty.ofJson?
  return ⟨source, name, type⟩

/-- A position as a document. -/
def Position.toJson : Position → Json
  | main => .string "MainFrom"
  | body index => .variant "Body" (.int index)

/-- Read a position. -/
def Position.ofJson? (j : Json) : Option Position := do
  match ← j.variant? with
  | ("MainFrom", none) => some main
  | ("MainFrom", some .null) => some main
  | ("Body", some content) => return body (← content.nat?)
  | _ => none

/-! ### Operators -/

/-- The tag of an operator with one operand. -/
def UnaryOp.tag : UnaryOp → String
  | not => "Not"
  | negate => "Negate"

/-- Read an operator with one operand. -/
def UnaryOp.ofJson? (j : Json) : Option UnaryOp := do
  match ← j.plainVariant? with
  | "Not" => some not
  | "Negate" => some negate
  | _ => none

/-- The tag of an operator with two operands. -/
def BinaryOp.tag : BinaryOp → String
  | equal => "Equal"
  | notEqual => "NotEqual"
  | lessThan => "LessThan"
  | lessThanOrEqual => "LessThanOrEqual"
  | greaterThan => "GreaterThan"
  | greaterThanOrEqual => "GreaterThanOrEqual"
  | andAlso => "AndAlso"
  | orElse => "OrElse"
  | add => "Add"
  | subtract => "Subtract"
  | multiply => "Multiply"
  | divide => "Divide"
  | modulo => "Modulo"

/-- Read an operator with two operands. -/
def BinaryOp.ofJson? (j : Json) : Option BinaryOp := do
  match ← j.plainVariant? with
  | "Equal" => some equal
  | "NotEqual" => some notEqual
  | "LessThan" => some lessThan
  | "LessThanOrEqual" => some lessThanOrEqual
  | "GreaterThan" => some greaterThan
  | "GreaterThanOrEqual" => some greaterThanOrEqual
  | "AndAlso" => some andAlso
  | "OrElse" => some orElse
  | "Add" => some add
  | "Subtract" => some subtract
  | "Multiply" => some multiply
  | "Divide" => some divide
  | "Modulo" => some modulo
  | _ => none

/-- The tag of a direction. -/
def Direction.tag : Direction → String
  | ascending => "Asc"
  | descending => "Desc"

/-- Read a direction. -/
def Direction.ofJson? (j : Json) : Option Direction := do
  match ← j.plainVariant? with
  | "Asc" => some ascending
  | "Desc" => some descending
  | _ => none

/-- Read the way in which the item type is changed. -/
def CastKind.ofJson? (j : Json) : Option CastKind := do
  match ← j.plainVariant? with
  | "Cast" => some cast
  | "OfType" => some ofType
  | _ => none

end QueryFold
