import QueryFold.Settings.Basic
import QueryFold.Yaml.Reader

/-!
# Settings from a file

A file of settings is a YAML mapping, or empty. What it does not set has its default, keys
that are no settings are ignored, and a setting may not be set twice. Numbers may be written
in hexadecimal, octal or binary, and decimal numbers have no leading zeros. Numbers and truth
values are plain texts, or texts below a `|` with the tag of their kind.
-/

namespace QueryFold

namespace Yaml

/-- The value of some digits of a base. -/
def digitsOf? (base : Nat) (cs : List Char) : Option Nat :=
  if cs.isEmpty then none
  else cs.foldlM (fun n c => do
    let digit ← hexValue? c
    if digit < base then return n * base + digit else none) 0

/-- The natural number that a plain text stands for. -/
def natOf? (text : String) : Option Nat :=
  let cs := match text.toList with
    | '+' :: cs => cs
    | cs => cs
  match cs with
  | '0' :: 'x' :: ds => digitsOf? 16 ds
  | '0' :: 'o' :: ds => digitsOf? 8 ds
  | '0' :: 'b' :: ds => digitsOf? 2 ds
  | '0' :: _ :: _ => none
  | ds => digitsOf? 10 ds

/-- The content of a text that may stand for a value of the kind with the given tag: a plain text,
or a text below a `|` that has this tag. -/
def scalar? (tag : Tag) : Yaml → Option String
  | text .plain _ content => some content
  | text .literal (some t) content => if t = tag then some content else none
  | _ => none

/-- Read a natural number of at most thirty-two bits. -/
def word? (value : Yaml) : Option UInt32 := do
  let n ← natOf? (← value.scalar? (Tag.ofText "tag:yaml.org,2002:int"))
  if n < UInt32.size then return UInt32.ofNat n else none

/-- Read a truth value. -/
def bool? (value : Yaml) : Option Bool := do
  let content ← value.scalar? (Tag.ofText "tag:yaml.org,2002:bool")
  if content ∈ ["true", "True", "TRUE"] then some true
  else if content ∈ ["false", "False", "FALSE"] then some false
  else none

/-- The value of a key that may be missing and must not be repeated. -/
def lookup? {α : Type} (entries : List (String × Yaml)) (key : String) (read : Yaml → Option α)
    (default : α) : Option α :=
  match entries.filter (·.1 == key) with
  | [] => some default
  | [(_, value)] => read value
  | _ => none

end Yaml

namespace Settings

/-- Read the settings in a document. -/
def ofYaml? (document : Yaml) : Option Settings :=
  match document.target document with
  | .text .plain _ "" => some {}
  | .mapping entries => do
    let entries ← entries.mapM fun (key, value) => do
      return (← (document.target key).content?, document.target value)
    let standard : Settings := {}
    let maxDepth ← Yaml.lookup? entries "max_subquery_depth" Yaml.word? standard.maxDepth
    let validate ← Yaml.lookup? entries "validate_models" Yaml.bool? standard.validate
    return ⟨maxDepth, validate⟩
  | _ => none

/-- The settings in a file with the given content, `none` if it cannot be read. -/
def ofFile (content : Option String) : Except SettingsError Settings :=
  match content with
  | none => .error .file
  | some text =>
    match (Yaml.parse? text).bind ofYaml? with
    | none => .error .content
    | some settings => settings.checked

end Settings

end QueryFold
