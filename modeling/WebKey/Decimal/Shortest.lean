/-
The shortest decimal that identifies a binary floating-point number.

Every positive number of the binary64 format stands for an interval of reals, namely
those that round to it. Among the decimals in that interval the shortest is selected,
and of several shortest ones the nearest to the number, a tie going to the even one.

All arithmetic is exact. The number and the ends of its interval are written as
naturals over the common denominator `2 ^ 1076 * 10 ^ 400`, which every binary64 number
and every decimal that is tried divides evenly.

* **`Rounding.ofBits`** — a number with the interval of reals that round to it;
* **`Rounding.shortest`** — the selected decimal.
-/

namespace WebKey.Decimal

/-- The decimal `digits * 10 ^ exponent`. -/
structure Scientific where
  digits : Nat
  exponent : Int
deriving DecidableEq

/-- The binary part of the common denominator. -/
def binaryUnit : Nat := Nat.pow 2 1076

/-- The decimal part of the common denominator is `10 ^ decimalPlaces`. -/
def decimalPlaces : Nat := 400

/-- A positive number and the interval of reals that round to it, as numerators over
`binaryUnit * 10 ^ decimalPlaces`. -/
structure Rounding where
  low : Nat
  value : Nat
  high : Nat
  /-- Do the ends themselves round to the number? -/
  closed : Bool

namespace Rounding

/-- The number with these bits, which are those of a finite positive number. -/
def ofBits (bits : UInt64) : Rounding :=
  let exponent := (bits >>> 52 &&& 0x7FF).toNat
  let fraction := (bits &&& 0xFFFFFFFFFFFFF).toNat
  let mantissa := if exponent = 0 then fraction else Nat.pow 2 52 + fraction
  -- below a power of two the neighbour is only half as far away
  let below := if fraction = 0 ∧ 1 < exponent then 1 else 2
  let scale := Nat.pow 2 (exponent - 1) * Nat.pow 10 decimalPlaces
  { low := (4 * mantissa - below) * scale
    value := 4 * mantissa * scale
    high := (4 * mantissa + 2) * scale
    closed := mantissa % 2 = 0 }

/-- Does the decimal with this numerator round to the number? -/
def contains (x : Rounding) (numerator : Nat) : Bool :=
  if x.closed then x.low ≤ numerator ∧ numerator ≤ x.high
  else x.low < numerator ∧ numerator < x.high

/-- The number is below `10 ^ magnitude` and not below a tenth of it, counted in units of
`10 ^ (-decimalPlaces)`. -/
def magnitude (x : Rounding) : Nat := (Nat.toDigits 10 (x.value / binaryUnit)).length

/-- The decimal on the grid of step `10 ^ place` that is in the interval, if one is: of
the two neighbours of the number the nearer, if both are. -/
def onGrid? (x : Rounding) (place : Nat) : Option Nat :=
  let step := Nat.pow 10 place * binaryUnit
  let below := x.value / step
  let above := below + 1
  match x.contains (below * step), x.contains (above * step) with
  | true, true =>
    if 2 * x.value < (below + above) * step then some below
    else if (below + above) * step < 2 * x.value then some above
    else if below % 2 = 0 then some below
    else some above
  | true, false => some below
  | false, true => some above
  | false, false => none

/-- The shortest decimal in the interval. Seventeen digits always suffice. -/
def shortest (x : Rounding) : Scientific :=
  let places := (List.range 17).map fun used => x.magnitude - (used + 1)
  let select place := (x.onGrid? place).map fun digits =>
    (⟨digits, (place : Int) - decimalPlaces⟩ : Scientific)
  (places.findSome? select).getD ⟨x.value / binaryUnit, -decimalPlaces⟩

end Rounding

end WebKey.Decimal
