import QueryFold.Hex
import QueryFold.Yaml.Basic
import QueryFold.Yaml.Cursor

/-!
# Tags of YAML documents

A tag names a kind of values. It is written in full between `<` and `>`, or as a handle, which
stands for the start of some tags, and the rest. In a tag an octet can be written by its code in
hexadecimal digits behind a `%`. Octets written so must make up characters. A tag ends at an
octet zero.
-/

namespace QueryFold

namespace Yaml

/-- How many octets follow an octet with which a character starts. -/
def following? (octet : Nat) : Option Nat :=
  if octet < 0x80 then some 0
  else if octet < 0xc0 then none
  else if octet < 0xe0 then some 1
  else if octet < 0xf0 then some 2
  else if octet < 0xf8 then some 3
  else none

/-- Whether a character may stand in a tag. The signs that separate values between brackets may do
so only where `wide` is set. -/
def isTagChar (wide : Bool) (c : Char) : Bool :=
  isNameChar c || ";/?:@&=+$.!~*'()".contains c || wide && (c = ',' || c = '[' || c = ']')

/-- Read the octets of a tag, the characters given: `done` holds its octets so far, last one first,
and `pending` of the next ones belong to a character that has started. -/
def readTagFrom? (wide : Bool) :
    (pending : Nat) → List Char → Position → (done : List UInt8) → Option (Tag × Cursor)
  | pending, '%' :: h₁ :: h₂ :: cs, p, done => do
    let octet := 16 * (← hexValue? h₁) + (← hexValue? h₂)
    let pending ←
      if pending = 0 then following? octet
      else if octet / 64 = 2 then some (pending - 1)
      else none
    let p := ['%', h₁, h₂].foldl Position.after p
    readTagFrom? wide pending cs p (UInt8.ofNat octet :: done)
  | 0, x :: cs, p, done =>
    if x = '%' then none
    else if isTagChar wide x then readTagFrom? wide 0 cs (p.after x) (UInt8.ofNat x.toNat :: done)
    else some (done.reverse, ⟨p, x :: cs⟩)
  | 0, [], p, done => some (done.reverse, ⟨p, []⟩)
  | _ + 1, _, _, _ => none

/-- Read a part of a tag that may be empty. -/
def Cursor.readTagPart? (c : Cursor) (wide : Bool) : Option (Tag × Cursor) :=
  readTagFrom? wide 0 c.rest c.position []

/-- Read a part of a tag that must not be empty. -/
def Cursor.readTagPart1? (c : Cursor) (wide : Bool) : Option (Tag × Cursor) :=
  (c.readTagPart? wide).filter (!·.1.isEmpty)

/-- The octets of a tag up to an octet zero. -/
def Tag.upToZero (t : Tag) : Tag := t.takeWhile (· != 0)

/-- Read a tag as its handle and its rest. Without a handle the rest is the whole tag. -/
def Cursor.readTag? (c : Cursor) : Option (String × Tag × Cursor) :=
  if c.rest.take 2 = ['!', '<'] then do
    let (tag, c) ← (c.pass 2).readTagPart1? true
    if c.rest.head? = some '>' then some ("", tag.upToZero, c.next) else none
  else do
    let (name, c) := c.next.span isNameChar
    if c.rest.head? = some '!' then
      let (tag, c) ← c.next.readTagPart1? false
      return ("!" ++ String.ofList name ++ "!", tag.upToZero, c)
    else
      let (tag, c) ← c.readTagPart? false
      let tag := (Tag.ofText (String.ofList name) ++ tag).upToZero
      return if tag.isEmpty then ("", Tag.ofText "!", c) else ("!", tag, c)

/-- What the handles stand for that every document has. -/
def standardHandles : List (String × Tag) :=
  [("!", Tag.ofText "!"), ("!!", Tag.ofText "tag:yaml.org,2002:")]

end Yaml

end QueryFold
