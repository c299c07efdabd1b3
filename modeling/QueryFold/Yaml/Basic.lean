/-!
# YAML documents

The values of a document. YAML tells apart how a text is written: a plain text may stand for a
number or a truth value, the others only where a tag says so. A value can be shared under a
number, and a reference with that number stands for it.
-/

namespace QueryFold

namespace Yaml

/-- The name of a kind of values, in octets. -/
abbrev Tag := List UInt8

/-- The tag that is written with the given characters, all of which have one octet. -/
def Tag.ofText (text : String) : Tag := text.toList.map fun c => UInt8.ofNat c.toNat

/-- How a text is written. -/
inductive Style where
  /-- Without any signs around it. -/
  | plain
  /-- In quotes. -/
  | quoted
  /-- As lines below a `|`, each of which is kept. -/
  | literal
  /-- As lines below a `>`, which are joined by spaces. -/
  | folded
  deriving DecidableEq

end Yaml

/-- A value of a YAML document. -/
inductive Yaml where
  /-- A text with its tag, if it has one. -/
  | text (style : Yaml.Style) (tag : Option Yaml.Tag) (content : String)
  /-- A list of values. -/
  | sequence (items : List Yaml)
  /-- Keys with their values in the order in which they are written. -/
  | mapping (entries : List (Yaml × Yaml))
  /-- A value that is shared under a number. -/
  | shared (number : Nat) (value : Yaml)
  /-- The value that is shared under a number. -/
  | reference (number : Nat)
  deriving Inhabited

namespace Yaml

/-- A value that is not written. -/
def missing : Yaml := text .plain none ""

/-! ### References -/

mutual

/-- The shared values in a value, those that start first in front. -/
def sharedValues : Yaml → List (Nat × Yaml)
  | text _ _ _ => []
  | sequence items => sharedInItems items
  | mapping entries => sharedInEntries entries
  | shared number value => (number, value) :: value.sharedValues
  | reference _ => []

/-- The shared values in a list of values. -/
def sharedInItems : List Yaml → List (Nat × Yaml)
  | [] => []
  | item :: items => item.sharedValues ++ sharedInItems items

/-- The shared values in the entries of a mapping. -/
def sharedInEntries : List (Yaml × Yaml) → List (Nat × Yaml)
  | [] => []
  | (key, value) :: entries => key.sharedValues ++ value.sharedValues ++ sharedInEntries entries

end

/-- What a part of a document stands for. Of several values that are shared under one number, a
reference stands for the one that starts last, also if that one follows it. -/
def target (document : Yaml) : Yaml → Yaml
  | reference number => (document.sharedValues.reverse.lookup number).getD missing
  | shared _ value => value
  | part => part

/-- The content of a text. -/
def content? : Yaml → Option String
  | text _ _ content => some content
  | _ => none

end Yaml

end QueryFold
