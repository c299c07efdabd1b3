import QueryFold.Decimal.Reading
import QueryFold.Hex
import QueryFold.Json.Basic

/-!
# Reading documents

A document is one value between blanks. Texts may hold any character above the
control characters; numbers have no leading zeros and at least one digit on each side
of a point. An integer of at most sixty-four bits is read exactly, any other number,
and also `-0`, as a float. A number too large for a float and a text with half of a pair
of codes are well formed but cannot be read.
-/

namespace QueryFold

namespace Json

/-- Drop the blanks in front of a text. -/
def skipBlanks : List Char → List Char
  | c :: cs => if c = ' ' ∨ c = '\n' ∨ c = '\r' ∨ c = '\t' then skipBlanks cs else c :: cs
  | [] => []

/-! ### Texts -/

/-- The value of four hexadecimal digits. -/
def hexQuad? (a b c d : Char) : Option Nat := do
  return ((← hexValue? a) * 16 + (← hexValue? b)) * 256 + (← hexValue? c) * 16 + (← hexValue? d)

/-- The character behind a backslash that stands for another one. -/
def unescape? : Char → Option Char
  | '"' => some '"'
  | '\\' => some '\\'
  | '/' => some '/'
  | 'b' => some '\x08'
  | 'f' => some '\x0c'
  | 'n' => some '\n'
  | 'r' => some '\r'
  | 't' => some '\t'
  | _ => none

/-- Whether a code is the first half of a pair that stands for one character. -/
def isHighHalf (n : Nat) : Bool := 0xD800 ≤ n && n < 0xDC00

/-- Whether a code is the second half of such a pair. -/
def isLowHalf (n : Nat) : Bool := 0xDC00 ≤ n && n < 0xE000

/-- The character that a pair of codes stands for. -/
def charOfPair (high low : Nat) : Char :=
  Char.ofNat (0x10000 + (high - 0xD800) * 0x400 + (low - 0xDC00))

/-- Read a text whose opening quote has been read: `done` holds its characters so far, last one
first, `half` is the first half of a pair that has just been read, and `whole` says that all halves
before it belong to pairs. Only a text in which all do has a value. -/
def readText? (whole : Bool) (half : Option Nat) (done : List Char) :
    List Char → Option (Option String × List Char)
  | [] => none
  | '"' :: cs =>
    some (if whole && half.isNone then some (String.ofList done.reverse) else none, cs)
  | '\\' :: 'u' :: a :: b :: c :: d :: cs => do
    let code ← hexQuad? a b c d
    if isHighHalf code then readText? (whole && half.isNone) (some code) done cs
    else if isLowHalf code then
      match half with
      | some high => readText? whole none (charOfPair high code :: done) cs
      | none => readText? false none done cs
    else readText? (whole && half.isNone) none (Char.ofNat code :: done) cs
  | '\\' :: c :: cs => do readText? (whole && half.isNone) none ((← unescape? c) :: done) cs
  | c :: cs =>
    if c.toNat < 0x20 || c = '\\' then none
    else readText? (whole && half.isNone) none (c :: done) cs

/-! ### Numbers -/

/-- Split off the leading digits of a text. -/
def spanDigits : List Char → List Char × List Char
  | c :: cs => if c.isDigit then ((c :: (spanDigits cs).1), (spanDigits cs).2) else ([], c :: cs)
  | [] => ([], [])

/-- The number written by some digits. -/
def digitsValue (cs : List Char) : Nat := cs.foldl (fun n c => n * 10 + Decimal.digitValue c) 0

/-- The exponent of a number, zero if none is written; the mark `e` must be followed by a digit. -/
def exponent? : List Char → Option (Int × List Char)
  | c :: cs =>
    if c = 'e' ∨ c = 'E' then
      let (negative, cs) := match cs with
        | '+' :: cs => (false, cs)
        | '-' :: cs => (true, cs)
        | cs => (false, cs)
      match spanDigits cs with
      | ([], _) => none
      | (ds, rest) => some (if negative then -(digitsValue ds : Int) else digitsValue ds, rest)
    else some (0, c :: cs)
  | [] => some (0, [])

/-- The fraction of a number: from the significand and its exponent so far, those with the digits
behind the point. A point must be followed by a digit. -/
def fraction? (significand : Nat) (exponent : Int) : List Char → Option (Nat × Int × List Char)
  | '.' :: cs =>
    match spanDigits cs with
    | ([], _) => none
    | (ds, rest) =>
      let (value, count, _) := Decimal.takeDigits significand ds
      some (value, exponent - count, rest)
  | cs => some (significand, exponent, cs)

/-- A float, if it is one. -/
def ofFloat (x : Float) : Json := if x.isFinite then .float x else .unreadable

/-- Read a number whose sign has been read. -/
def readNumber? (negative : Bool) (cs : List Char) : Option (Json × List Char) :=
  match spanDigits cs with
  | ([], _) => none
  | (ds, rest) =>
    if ds.head? = some '0' ∧ 1 < ds.length then none
    else do
      let (significand, count, _) := Decimal.takeDigits 0 ds
      let dropped := ds.length - count
      let (significand', exponent, rest') ← fraction? significand dropped rest
      let (power, rest'') ← exponent? rest'
      let value := Decimal.toFloat negative significand' (exponent + power)
      if rest''.length < rest.length || 0 < dropped then return (ofFloat value, rest'')
      else if !negative then return (.int significand, rest'')
      else if significand = 0 || Nat.pow 2 63 < significand then return (.float value, rest'')
      else return (.int (-significand), rest'')

/-! ### Values -/

mutual

/-- Read a value; `fuel` bounds the number of steps. -/
def readValue? : (fuel : Nat) → List Char → Option (Json × List Char)
  | 0, _ => none
  | fuel + 1, cs =>
    match skipBlanks cs with
    | 'n' :: 'u' :: 'l' :: 'l' :: rest => some (.null, rest)
    | 't' :: 'r' :: 'u' :: 'e' :: rest => some (.bool true, rest)
    | 'f' :: 'a' :: 'l' :: 's' :: 'e' :: rest => some (.bool false, rest)
    | '"' :: rest => do
      let (text, rest) ← readText? true none [] rest
      return (text.elim .unreadable .string, rest)
    | '[' :: rest =>
      match skipBlanks rest with
      | ']' :: rest => some (.array [], rest)
      | rest => do
        let (items, rest) ← readItems? fuel rest
        return (.array items, rest)
    | '\x7b' :: rest =>
      match skipBlanks rest with
      | '\x7d' :: rest => some (.object [], rest)
      | rest => do
        let (members, rest) ← readMembers? fuel rest
        return (members.elim .unreadable .object, rest)
    | '-' :: rest => readNumber? true rest
    | rest => readNumber? false rest

/-- Read the items of a list and its closing bracket. -/
def readItems? : (fuel : Nat) → List Char → Option (List Json × List Char)
  | 0, _ => none
  | fuel + 1, cs => do
    let (item, rest) ← readValue? fuel cs
    match skipBlanks rest with
    | ',' :: rest =>
      let (items, rest) ← readItems? fuel rest
      return (item :: items, rest)
    | ']' :: rest => return ([item], rest)
    | _ => none

/-- Read the members of an object and its closing brace. They have no value if one of their names
has none. -/
def readMembers? : (fuel : Nat) → List Char → Option (Option (List (String × Json)) × List Char)
  | 0, _ => none
  | fuel + 1, cs =>
    match skipBlanks cs with
    | '"' :: rest => do
      let (key, rest) ← readText? true none [] rest
      match skipBlanks rest with
      | ':' :: rest =>
        let (value, rest) ← readValue? fuel rest
        let member := key.map fun key => (key, value)
        match skipBlanks rest with
        | ',' :: rest =>
          let (members, rest) ← readMembers? fuel rest
          return (member.bind fun m => members.map (m :: ·), rest)
        | '\x7d' :: rest => return (member.map ([·]), rest)
        | _ => none
      | _ => none
    | _ => none

end

/-- Read a document: one value between blanks. Every step takes at least one character, so a step
for each and a last one suffice. -/
def parse? (document : String) : Option Json := do
  let cs := document.toList
  let (value, rest) ← readValue? (cs.length + 1) cs
  if skipBlanks rest = [] then some value else none

end Json

end QueryFold
