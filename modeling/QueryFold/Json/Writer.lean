import QueryFold.Decimal.Layout
import QueryFold.Json.Basic

/-!
# Writing documents

A document is written on one line, or indented by two blanks for each level. Quotes,
backslashes and control characters of texts are escaped; every other character stands
for itself. A part that stands for no value is written as `null`.
-/

namespace QueryFold

namespace Json

/-- The hexadecimal digits of a code below 256. -/
def hexPair (n : Nat) : List Char := [Nat.digitChar (n / 16), Nat.digitChar (n % 16)]

/-- A character inside a text. -/
def escape (c : Char) : List Char :=
  match c with
  | '"' => ['\\', '"']
  | '\\' => ['\\', '\\']
  | '\x08' => ['\\', 'b']
  | '\x0c' => ['\\', 'f']
  | '\n' => ['\\', 'n']
  | '\r' => ['\\', 'r']
  | '\t' => ['\\', 't']
  | c => if c.toNat < 0x20 then ['\\', 'u', '0', '0'] ++ hexPair c.toNat else [c]

/-- A text with its quotes. -/
def quote (s : String) : String := "\"" ++ String.ofList (s.toList.flatMap escape) ++ "\""

mutual

/-- A value on one line, without blanks. -/
def compact : Json → String
  | .null => "null"
  | .unreadable => "null"
  | .bool b => if b then "true" else "false"
  | .int n => toString n
  | .float x => Decimal.jsonText x
  | .string s => quote s
  | .array items => "[" ++ ",".intercalate (compactItems items) ++ "]"
  | .object members => "\x7b" ++ ",".intercalate (compactMembers members) ++ "\x7d"

/-- The items of a list, each on one line. -/
def compactItems : List Json → List String
  | [] => []
  | item :: items => item.compact :: compactItems items

/-- The members of an object, each on one line. -/
def compactMembers : List (String × Json) → List String
  | [] => []
  | (key, value) :: members => (quote key ++ ":" ++ value.compact) :: compactMembers members

end

/-- A line break and the indentation of a level. -/
def newLine (level : Nat) : String := "\n" ++ String.ofList (List.replicate (2 * level) ' ')

/-- A bracketed group with each part on a line of its own, one level below `level`. -/
def block (level : Nat) (opening closing : String) : List String → String
  | [] => opening ++ closing
  | parts =>
    opening ++ newLine (level + 1) ++ ("," ++ newLine (level + 1)).intercalate parts ++
      newLine level ++ closing

mutual

/-- A value whose parts stand on lines of their own, indented by their level. -/
def indented (level : Nat) : Json → String
  | .array items => block level "[" "]" (indentedItems (level + 1) items)
  | .object members => block level "\x7b" "\x7d" (indentedMembers (level + 1) members)
  | .null => "null"
  | .unreadable => "null"
  | .bool b => if b then "true" else "false"
  | .int n => toString n
  | .float x => Decimal.jsonText x
  | .string s => quote s

/-- The items of a list at a level. -/
def indentedItems (level : Nat) : List Json → List String
  | [] => []
  | item :: items => item.indented level :: indentedItems level items

/-- The members of an object at a level. -/
def indentedMembers (level : Nat) : List (String × Json) → List String
  | [] => []
  | (key, value) :: members =>
    (quote key ++ ": " ++ value.indented level) :: indentedMembers level members

end

/-- A document with each part on a line of its own. -/
def pretty (j : Json) : String := j.indented 0

end Json

end QueryFold
