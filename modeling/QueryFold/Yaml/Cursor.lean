import QueryFold.Yaml.Character

/-!
# Places in YAML documents

Where a value may start depends on its line and column, and how far a key may reach is measured
in octets. A cursor is a place in a document together with the characters behind it.
-/

namespace QueryFold

namespace Yaml

/-- A place in a document. -/
structure Position where
  /-- The number of lines before this one. -/
  line : Nat := 0
  /-- The number of characters before this one on its line. -/
  column : Nat := 0
  /-- The number of octets of these characters. -/
  octet : Nat := 0

/-- The place behind a character. -/
def Position.after (p : Position) (c : Char) : Position :=
  if isBreak c then ⟨p.line + 1, 0, 0⟩ else ⟨p.line, p.column + 1, p.octet + c.utf8Size⟩

/-- A place in a document and what follows it. -/
structure Cursor where
  /-- The place. -/
  position : Position
  /-- The characters from here on. -/
  rest : List Char

namespace Cursor

/-- The place behind the next character. -/
def next (c : Cursor) : Cursor :=
  match c.rest with
  | [] => c
  | x :: cs => ⟨c.position.after x, cs⟩

/-- The place behind some characters. -/
def pass (c : Cursor) : Nat → Cursor
  | 0 => c
  | n + 1 => c.next.pass n

/-- The next characters with a property, and the place behind them. -/
def span (c : Cursor) (p : Char → Bool) : List Char × Cursor :=
  let run := c.rest.takeWhile p
  (run, c.pass run.length)

/-- The place behind blanks. -/
def skipBlanks (c : Cursor) : Cursor := (c.span isBlank).2

/-- The place on the next line, if the rest of this one holds nothing but blanks and a comment. -/
def nextLine? (c : Cursor) : Option Cursor :=
  let c := c.skipBlanks
  let c := if c.rest.head? = some '#' then (c.span (!isBreak ·)).2 else c
  match c.rest with
  | [] => some c
  | x :: _ => if isBreak x then some c.next else none

end Cursor

end Yaml

end QueryFold
