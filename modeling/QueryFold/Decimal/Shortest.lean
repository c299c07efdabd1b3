/-!
# Shortest decimals

The shortest decimal of a binary floating-point number is the decimal with the
fewest digits that reads back as that number and, among those, the nearest one.

A positive finite number is `m · 2^q`. The reals that round to it form an
interval around it which reaches half way to its neighbours; the ends belong to
the interval exactly when `m` is even. On the grid of multiples of `10^k` only
the two points next to the number have to be tried: if any point of the grid lies
in the interval, so does one of these.
-/

namespace QueryFold

/-- A decimal `digits · 10^exponent`. -/
structure Decimal where
  /-- The significant digits, read as one number. -/
  digits : Nat
  /-- The power of ten of the last digit. -/
  exponent : Int
  deriving DecidableEq, Repr

namespace Decimal

/-- Which of two equally near decimals is taken. -/
inductive Tie where
  /-- The larger one. -/
  | up
  /-- The one whose last digit is even. -/
  | even

/-- A positive binary number `mantissa · 2^exponent`. -/
structure Binary where
  /-- The integral significand. -/
  mantissa : Nat
  /-- The power of two of the last bit. -/
  exponent : Int
  /-- Whether the neighbour below is only half a step away, as below a power of two. -/
  narrowBelow : Bool

/-- The magnitude of a finite double: its fields are eleven exponent bits above fifty-two
bits of fraction, and an exponent field of zero stands for a number without a leading one. -/
def Binary.ofFloat (x : Float) : Binary :=
  let magnitude := x.toBits.toNat % Nat.pow 2 63
  let fraction := magnitude % Nat.pow 2 52
  match magnitude / Nat.pow 2 52 with
  | 0 => ⟨fraction, -1074, false⟩
  | field + 1 => ⟨fraction + Nat.pow 2 52, field - 1074, fraction == 0 && field != 0⟩

/-- A positive number as a fraction, with the reach of its rounding interval on both
sides. All four share the denominator. -/
structure Interval where
  /-- The numerator of the number. -/
  value : Nat
  /-- How far the interval reaches below. -/
  below : Nat
  /-- How far the interval reaches above. -/
  above : Nat
  /-- The common denominator. -/
  denominator : Nat
  /-- Whether the ends round to the number as well. -/
  closed : Bool

/-- The rounding interval in quarters of a step, so that the reach of half a step, or of a
quarter below a power of two, is integral. -/
def Binary.interval (b : Binary) : Interval :=
  let step := Nat.pow 2 (b.exponent - 2).toNat
  { value := 4 * b.mantissa * step
    below := (if b.narrowBelow then 1 else 2) * step
    above := 2 * step
    denominator := Nat.pow 2 (2 - b.exponent).toNat
    closed := b.mantissa % 2 == 0 }

/-- The number of decimal digits of `n`. -/
def digitCount (n : Nat) : Nat := (Nat.toDigits 10 n).length

/-- The exponent `e` with `10^e ≤ value < 10^(e+1)`. -/
def Interval.magnitude (i : Interval) : Int :=
  if i.denominator ≤ i.value then digitCount (i.value / i.denominator) - 1
  else -(digitCount ((i.denominator + i.value - 1) / i.value - 1) : Int)

/-- The interval with all numbers multiplied by `10^(-k)`, so that the multiples of `10^k`
become the integers. -/
def Interval.rescale (i : Interval) (k : Int) : Interval :=
  let up := Nat.pow 10 (-k).toNat
  { value := i.value * up
    below := i.below * up
    above := i.above * up
    denominator := i.denominator * Nat.pow 10 k.toNat
    closed := i.closed }

/-- Whether the integer `c` lies in the interval. -/
def Interval.contains (i : Interval) (c : Nat) : Bool :=
  let point := c * i.denominator
  if i.closed then i.value ≤ point + i.below && point ≤ i.value + i.above
  else i.value < point + i.below && point < i.value + i.above

/-- The integer of the interval that is nearest to its number, if there is one. -/
def Interval.nearest? (i : Interval) (tie : Tie) : Option Nat :=
  let c := i.value / i.denominator
  let rest := i.value % i.denominator
  match i.contains c, i.contains (c + 1) with
  | false, false => none
  | true, false => some c
  | false, true => some (c + 1)
  | true, true =>
    match compare (2 * rest) i.denominator with
    | .lt => some c
    | .gt => some (c + 1)
    | .eq => match tie with
      | .up => some (c + 1)
      | .even => if c % 2 == 0 then some c else some (c + 1)

/-- The first decimal found when the count of digits runs upward from `count`; `tries` bounds
the search, and seventeen digits always suffice for a double. -/
def Interval.search (i : Interval) (tie : Tie) (magnitude : Int) : (tries count : Nat) → Decimal
  | 0, _ => ⟨0, 0⟩
  | tries + 1, count =>
    let k := magnitude + 1 - count
    match (i.rescale k).nearest? tie with
    | some c => if c = Nat.pow 10 count then ⟨1, k + count⟩ else ⟨c, k⟩
    | none => i.search tie magnitude tries (count + 1)

/-- The shortest decimal of the magnitude of a finite float that is not zero. -/
def shortest (tie : Tie) (x : Float) : Decimal :=
  let i := (Binary.ofFloat x).interval
  i.search tie i.magnitude 17 1

end Decimal

end QueryFold
