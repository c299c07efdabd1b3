/-!
# Characters of YAML documents

The classes of characters that a document tells apart. A line ends at a line feed, a line
separator or a paragraph separator; the other ways to end a line are read as line feeds.
-/

namespace QueryFold

namespace Yaml

/-- Whether a character may stand in a document. -/
def isPrintable (c : Char) : Bool :=
  let n := c.toNat
  c = '\t' || c = '\n' || c = '\r' || c = '\u0085' || 0x20 ≤ n && n ≤ 0x7e ||
    0xa0 ≤ n && n < 0xfffe || 0x10000 ≤ n

/-- The characters of a text with a line feed for each carriage return and next line. A carriage
return and the line feed behind it are one. -/
def unifyBreaks (cs : List Char) : List Char :=
  ((' ' :: cs).zip cs).filterMap fun (before, c) =>
    if before = '\r' && c = '\n' then none
    else some (if c = '\r' || c = '\u0085' then '\n' else c)

theorem return_notMem_unifyBreaks (cs : List Char) : '\r' ∉ unifyBreaks cs := by
  intro h
  obtain ⟨⟨before, c⟩, -, hc⟩ := List.mem_filterMap.mp h
  dsimp only at hc
  split at hc
  · cases hc
  · split at hc <;> simp_all

/-- Whether a line ends at a character. -/
def isBreak (c : Char) : Bool := c = '\n' || c = '\u2028' || c = '\u2029'

/-- Whether a character is a blank inside a line. -/
def isBlank (c : Char) : Bool := c = ' ' || c = '\t'

/-- Whether a line or a word ends before the given characters. -/
def endsWord : List Char → Bool
  | [] => true
  | c :: _ => isBlank c || isBreak c

/-- Whether a line that starts with the given characters starts or ends a document. -/
def isMarker : List Char → Bool
  | '-' :: '-' :: '-' :: cs => endsWord cs
  | '.' :: '.' :: '.' :: cs => endsWord cs
  | _ => false

/-- Whether a character may stand in a name. -/
def isNameChar (c : Char) : Bool := c.isAlphanum || c = '_' || c = '-'

/-- Whether a character separates values between brackets. -/
def isFlowSign (c : Char) : Bool := c = ',' || c = '[' || c = ']' || c = '\x7b' || c = '\x7d'

/-- Whether a character at the start of a value means something else than itself. -/
def isIndicator (c : Char) : Bool := "-?:,[]\x7b\x7d#&*!|>'\"%@\x60".contains c

end Yaml

end QueryFold
