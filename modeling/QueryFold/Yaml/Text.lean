import QueryFold.Hex
import QueryFold.Yaml.Cursor

/-!
# Texts of YAML documents

Plain texts and texts in quotes. Such a text may run over several lines: blanks around a line
break are dropped, a single line feed becomes a space, and of several line breaks the first one
is dropped if it is a line feed.
-/

namespace QueryFold

namespace Yaml

/-- What stands between two words of a text. -/
structure Gap where
  /-- Whether it holds a line break. -/
  broken : Bool := false
  /-- Its first line break, if that one counts. -/
  first : Option Char := none
  /-- The line breaks behind the first one, or the blanks where there is none, last one first. -/
  chars : List Char := []

namespace Gap

/-- Whether two words touch. -/
def isEmpty (g : Gap) : Bool := !g.broken && g.chars.isEmpty

/-- The gap with a blank or a line break behind it. -/
def add (g : Gap) (c : Char) : Gap :=
  if !isBreak c then if g.broken then g else { g with chars := c :: g.chars }
  else if g.broken then { g with chars := c :: g.chars }
  else ⟨true, some c, []⟩

/-- A gap that starts with a line break which does not count. -/
def escaped : Gap := ⟨true, none, []⟩

/-- The characters that the gap stands for, last one first. -/
def content (g : Gap) : List Char :=
  if g.first = some '\n' then if g.chars.isEmpty then [' '] else g.chars
  else g.chars ++ g.first.toList

end Gap

/-! ### Plain texts -/

/-- Whether a plain text may start with the given characters. -/
def startsPlain (flow : Bool) : List Char → Bool
  | [] => false
  | c :: cs =>
    if isBlank c || isBreak c then false
    else if c = '-' then !endsWord cs
    else if c = '?' || c = ':' then !flow && !endsWord cs
    else !isIndicator c

/-- Read a plain text, the characters given: `done` holds its characters so far, last one first.
Its lines must be indented by more than `indent`. The answer says what stands behind it. -/
def readPlain? (flow : Bool) (indent : Int) :
    List Char → Position → (done : List Char) → Gap → Option (String × Gap × Cursor)
  | [], p, done, gap => some (String.ofList done.reverse, gap, ⟨p, []⟩)
  | x :: cs, p, done, gap =>
    if isBlank x || isBreak x then
      if gap.broken && x = '\t' && (p.column : Int) ≤ indent then none
      else readPlain? flow indent cs (p.after x) done (gap.add x)
    else if !gap.isEmpty && x = '#'
        || gap.broken && (p.column = 0 && isMarker (x :: cs) || !flow && (p.column : Int) ≤ indent)
        || x = ':' && endsWord cs
        || flow && isFlowSign x then
      some (String.ofList done.reverse, gap, ⟨p, x :: cs⟩)
    else if flow && x = ':' && (cs.head?.any fun y => y = '?' || isFlowSign y) then none
    else readPlain? flow indent cs (p.after x) (x :: (gap.content ++ done)) {}

/-! ### Texts in quotes -/

/-- Read a text in single quotes behind its first quote, the characters given. A quote in the text
is written twice. -/
def readSingle? : List Char → Position → (done : List Char) → Gap → Option (String × Cursor)
  | [], _, _, _ => none
  | '\'' :: '\'' :: cs, p, done, gap =>
    readSingle? cs ((p.after '\'').after '\'') ('\'' :: (gap.content ++ done)) {}
  | '\'' :: cs, p, done, gap =>
    some (String.ofList (gap.content ++ done).reverse, ⟨p.after '\'', cs⟩)
  | x :: cs, p, done, gap =>
    if p.column = 0 && isMarker (x :: cs) then none
    else if isBlank x || isBreak x then readSingle? cs (p.after x) done (gap.add x)
    else readSingle? cs (p.after x) (x :: (gap.content ++ done)) {}

/-- The character that a backslash and the given character stand for. -/
def unescape? : Char → Option Char
  | '0' => some '\x00'
  | 'a' => some '\x07'
  | 'b' => some '\x08'
  | 't' => some '\t'
  | '\t' => some '\t'
  | 'n' => some '\n'
  | 'v' => some '\x0b'
  | 'f' => some '\x0c'
  | 'r' => some '\r'
  | 'e' => some '\x1b'
  | ' ' => some ' '
  | '"' => some '"'
  | '/' => some '/'
  | '\\' => some '\\'
  | 'N' => some '\u0085'
  | '_' => some '\u00a0'
  | 'L' => some '\u2028'
  | 'P' => some '\u2029'
  | _ => none

/-- The character with the code written by some hexadecimal digits. -/
def charOfHex? (digits : List Char) : Option Char := do
  let code ← digits.foldlM (fun n d => return n * 16 + (← hexValue? d)) 0
  if code.isValidChar then some (Char.ofNat code) else none

/-- Read a text in double quotes behind its first quote, the characters given. A backslash before a
line break joins the lines. -/
def readDouble? : List Char → Position → (done : List Char) → Gap → Option (String × Cursor)
  | [], _, _, _ => none
  | '"' :: cs, p, done, gap =>
    some (String.ofList (gap.content ++ done).reverse, ⟨p.after '"', cs⟩)
  | '\\' :: 'x' :: h₁ :: h₂ :: cs, p, done, gap => do
    let x ← charOfHex? [h₁, h₂]
    let p := ['\\', 'x', h₁, h₂].foldl Position.after p
    readDouble? cs p (x :: (gap.content ++ done)) {}
  | '\\' :: 'u' :: h₁ :: h₂ :: h₃ :: h₄ :: cs, p, done, gap => do
    let x ← charOfHex? [h₁, h₂, h₃, h₄]
    let p := ['\\', 'u', h₁, h₂, h₃, h₄].foldl Position.after p
    readDouble? cs p (x :: (gap.content ++ done)) {}
  | '\\' :: 'U' :: h₁ :: h₂ :: h₃ :: h₄ :: h₅ :: h₆ :: h₇ :: h₈ :: cs, p, done, gap => do
    let x ← charOfHex? [h₁, h₂, h₃, h₄, h₅, h₆, h₇, h₈]
    let p := ['\\', 'U', h₁, h₂, h₃, h₄, h₅, h₆, h₇, h₈].foldl Position.after p
    readDouble? cs p (x :: (gap.content ++ done)) {}
  | '\\' :: e :: cs, p, done, gap => do
    let p := (p.after '\\').after e
    if isBreak e then readDouble? cs p (gap.content ++ done) .escaped
    else readDouble? cs p ((← unescape? e) :: (gap.content ++ done)) {}
  | x :: cs, p, done, gap =>
    if x = '\\' || p.column = 0 && isMarker (x :: cs) then none
    else if isBlank x || isBreak x then readDouble? cs (p.after x) done (gap.add x)
    else readDouble? cs (p.after x) (x :: (gap.content ++ done)) {}

end Yaml

end QueryFold
