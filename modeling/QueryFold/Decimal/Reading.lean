/-!
# Reading decimals

A decimal in a document is read as a float in one step: its first digits, as many as
fit in sixty-four bits, are converted to a float, and this is multiplied or divided by
a power of ten. A value too large for a float is read as infinity.
-/

namespace QueryFold

namespace Decimal

/-- The value of a decimal digit. -/
def digitValue (c : Char) : Nat := c.toNat - '0'.toNat

/-- Append the leading digits of a text to a number as long as it fits in sixty-four bits.
The result is the number, how many digits were taken, and the text behind them. -/
def takeDigits : (value : Nat) → List Char → Nat × Nat × List Char
  | value, [] => (value, 0, [])
  | value, c :: cs =>
    if c.isDigit ∧ value * 10 + digitValue c < UInt64.size then
      let (total, count, rest) := takeDigits (value * 10 + digitValue c) cs
      (total, count + 1, rest)
    else (value, 0, c :: cs)

/-- The power `10^k` as a float, for `k` up to 308. -/
def powerOfTen (k : Nat) : Float := Float.ofScientific 1 false k

/-- The magnitude of `significand · 10^exponent`. A power beyond 308 makes any value but zero too
large; one below -308 is applied in portions of 308. -/
def scale (significand : Float) (exponent : Int) : (portions : Nat) → Float
  | 0 => 0
  | portions + 1 =>
    if exponent.natAbs ≤ 308 then
      if 0 ≤ exponent then significand * powerOfTen exponent.natAbs
      else significand / powerOfTen exponent.natAbs
    else if significand == 0 then significand
    else if 0 ≤ exponent then 1.0 / 0.0
    else scale (significand / powerOfTen 308) (exponent + 308) portions

/-- The float written as `significand · 10^exponent`, for a significand of sixty-four bits: it
vanishes after three portions at the latest. -/
def toFloat (negative : Bool) (significand : Nat) (exponent : Int) : Float :=
  let magnitude := scale (UInt64.ofNat significand).toFloat exponent 4
  if negative then -magnitude else magnitude

end Decimal

end QueryFold
