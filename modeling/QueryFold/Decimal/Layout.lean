import QueryFold.Decimal.Shortest

/-!
# Layouts of decimals

Two ways to write a float. In messages and query texts it is written with all its
places and never with an exponent: `1`, `0.00001`, `100000000000000000000`. In
documents an integral value keeps a fraction `.0`, and very large and very small
values are written with an exponent, which has a sign: `1.0`, `0.00001`, `1e+20`,
`1e-7`.
-/

namespace QueryFold

namespace Decimal

/-- A run of zeros. -/
def zeros (n : Nat) : String := String.ofList (List.replicate n '0')

/-- The digits of a decimal, first digit first. -/
def digitChars (d : Decimal) : List Char := Nat.toDigits 10 d.digits

/-- How many places the decimal point stands to the right of the first digit's left edge. -/
def point (d : Decimal) : Int := d.digitChars.length + d.exponent

/-- The digits with a point among them, for a point inside the digits. -/
def splitText (d : Decimal) : String :=
  let cs := d.digitChars
  let whole := d.point.toNat
  String.ofList (cs.take whole) ++ "." ++ String.ofList (cs.drop whole)

/-- The digits after `0.` and the zeros between, for a point left of the digits. -/
def fractionText (d : Decimal) : String :=
  "0." ++ zeros (-d.point).toNat ++ String.ofList d.digitChars

/-- All places of a decimal, without an exponent. -/
def positional (d : Decimal) : String :=
  if 0 ≤ d.exponent then String.ofList d.digitChars ++ zeros d.exponent.toNat
  else if 0 < d.point then d.splitText
  else d.fractionText

/-- One digit, a fraction if there are more digits, and the exponent of the first digit with its
sign. -/
def scientific (d : Decimal) : String :=
  let exponent := (if d.point < 1 then "-" else "+") ++ toString (d.point - 1).natAbs
  match d.digitChars with
  | [] => "0e" ++ exponent
  | [c] => String.ofList [c] ++ "e" ++ exponent
  | c :: cs => String.ofList (c :: '.' :: cs) ++ "e" ++ exponent

/-- The layout of documents: integral values below `10^16` end in `.0`, values down to
`10^-5` are written with all their places, and all others with an exponent. -/
def documentText (d : Decimal) : String :=
  if 0 ≤ d.exponent ∧ d.point ≤ 16 then
    String.ofList d.digitChars ++ zeros d.exponent.toNat ++ ".0"
  else if 0 < d.point ∧ d.point ≤ 16 then d.splitText
  else if -5 < d.point ∧ d.point ≤ 0 then d.fractionText
  else d.scientific

/-- The sign of a float, which zero has too. -/
def signText (x : Float) : String := if x.toBits >>> 63 = 1 then "-" else ""

/-- A float in query texts and messages: all places of its shortest decimal, where of two
equally near decimals the larger one is taken. -/
def displayText (x : Float) : String :=
  if x.isNaN then "NaN"
  else if x.isInf then signText x ++ "inf"
  else if x == 0 then signText x ++ "0"
  else signText x ++ (shortest .up x).positional

/-- A float in documents; a value that is no number is written `null`. -/
def jsonText (x : Float) : String :=
  if x.isNaN || x.isInf then "null"
  else if x == 0 then signText x ++ "0.0"
  else signText x ++ (shortest .even x).documentText

end Decimal

end QueryFold
