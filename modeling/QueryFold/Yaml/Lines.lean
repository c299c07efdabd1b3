import QueryFold.Yaml.Basic
import QueryFold.Yaml.Cursor

/-!
# Texts of whole lines

A text may be written as lines below a `|` or `>`, indented by more than the block around it.
What stands behind the sign says how far they are indented and what becomes of the line breaks
at their end. Below a `>` a single line feed between two lines becomes a space, and of several
ones the first is dropped, unless one of the lines starts with a blank.
-/

namespace QueryFold

namespace Yaml

/-- What becomes of the line breaks at the end of a text. -/
inductive Ending where
  /-- All are dropped. -/
  | strip
  /-- The one that ends the last line is kept. -/
  | clip
  /-- All are kept. -/
  | keep
  deriving DecidableEq

/-- How a text of whole lines is laid out. -/
structure LineLayout where
  /-- By how many columns more than the block around it the text is indented, if it says so. -/
  step : Option Nat := none
  /-- What becomes of the line breaks at its end. -/
  ending : Ending := .clip

/-- The ending that a character stands for. -/
def Ending.ofChar? : Char → Option Ending
  | '-' => some .strip
  | '+' => some .keep
  | _ => none

/-- The number of columns that a character stands for. -/
def stepOfChar? (c : Char) : Option Nat :=
  if c.isDigit && c != '0' then some (c.toNat - '0'.toNat) else none

/-- The layout that the given characters start with, and by how many of them it is written. The
step and the ending may stand in either order. -/
def LineLayout.ofChars (cs : List Char) : LineLayout × Nat :=
  let first := cs.head?
  let second := cs.tail.head?
  match first.bind Ending.ofChar?, first.bind stepOfChar? with
  | some ending, _ =>
    match second.bind stepOfChar? with
    | some step => (⟨some step, ending⟩, 2)
    | none => (⟨none, ending⟩, 1)
  | none, some step =>
    match second.bind Ending.ofChar? with
    | some ending => (⟨some step, ending⟩, 2)
    | none => (⟨some step, .clip⟩, 1)
  | none, none => ({}, 0)

/-- How many columns the lines of a text are indented by when nothing is said: as many as the
longest indentation up to the first line that is not blank. A tab is refused there. -/
def lineIndent? : List Char → (column widest : Nat) → Option Nat
  | [], column, widest => some (max column widest)
  | x :: cs, column, widest =>
    if x = ' ' then lineIndent? cs (column + 1) widest
    else if isBreak x then lineIndent? cs 0 (max column widest)
    else if x = '\t' then none
    else some (max column widest)

/-- The lines of a text that have been read. -/
structure Lines where
  /-- The characters up to the end of the last line that is not blank, last one first. -/
  done : List Char := []
  /-- The line break that ends this line. -/
  first : Option Char := none
  /-- The line breaks behind it, last one first. -/
  more : List Char := []
  /-- Whether this line starts with a blank. -/
  indented : Bool := false

namespace Lines

/-- Start a line with the character `x`. -/
def start (l : Lines) (style : Style) (x : Char) : Lines :=
  let joins := style = .folded && l.first = some '\n' && !l.indented && !isBlank x
  let gap := if !joins then l.more ++ l.first.toList else if l.more.isEmpty then [' '] else l.more
  ⟨x :: (gap ++ l.done), none, [], isBlank x⟩

/-- The text with the line breaks at its end that `ending` leaves. -/
def finish (l : Lines) : Ending → String
  | .strip => String.ofList l.done.reverse
  | .clip => String.ofList (l.first.toList ++ l.done).reverse
  | .keep => String.ofList (l.more ++ l.first.toList ++ l.done).reverse

end Lines

/-- Read lines that are blank or indented by `indent` columns, the characters given. With `inside`
a line has been started. -/
def readLinesFrom? (style : Style) (indent : Nat) :
    (inside : Bool) → List Char → Position → Lines → Option (Lines × Cursor)
  | _, [], p, l => some (l, ⟨p, []⟩)
  | true, x :: cs, p, l =>
    if isBreak x then readLinesFrom? style indent false cs (p.after x) { l with first := some x }
    else readLinesFrom? style indent true cs (p.after x) { l with done := x :: l.done }
  | false, x :: cs, p, l =>
    if isBreak x then
      readLinesFrom? style indent false cs (p.after x) { l with more := x :: l.more }
    else if p.column = indent then
      readLinesFrom? style indent true cs (p.after x) (l.start style x)
    else if x = ' ' then readLinesFrom? style indent false cs (p.after x) l
    else if x = '\t' then none
    else some (l, ⟨p, x :: cs⟩)

/-- Read a text of whole lines behind its sign, inside a block that is indented by `indent`. -/
def readLines? (style : Style) (indent : Int) (c : Cursor) : Option (String × Cursor) := do
  let (layout, length) := LineLayout.ofChars c.rest
  let c ← (c.pass length).nextLine?
  let columns ← match layout.step with
    | some step => some (max indent 0 + step).toNat
    | none => (lineIndent? c.rest 0 0).map fun widest => max (max widest (indent + 1).toNat) 1
  let (lines, c) ← readLinesFrom? style columns false c.rest c.position {}
  return (lines.finish layout.ending, c)

end Yaml

end QueryFold
