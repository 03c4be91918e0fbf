/-
Reading a decimal as a binary floating-point number by one scaling step.

The digits of a decimal are gathered into a significand of 64 bits. Digits of the whole
part that no longer fit count as powers of ten only, and digits of the fraction that no
longer fit are left out. The significand is then multiplied or divided once by a power
of ten, each of the three being rounded to the nearest binary64 number. The result may
therefore be a neighbour of the nearest number.

* **`gather`** — the significand of a list of digits, and the digits that did not fit;
* **`scale?`** — a number times a power of ten, unless it overflows.
-/

namespace WebKey.Decimal

/-- Appends digits to a significand as long as it stays below `2 ^ 64`. Returns it with
the digits that were left over. -/
def gather (significand : Nat) : List Nat → Nat × List Nat
  | [] => (significand, [])
  | digit :: rest =>
    if significand * 10 + digit < Nat.pow 2 64 then gather (significand * 10 + digit) rest
    else (significand, digit :: rest)

/-- The value of a number written in decimal. -/
def natOfDigits (digits : List Nat) : Nat :=
  digits.foldl (fun value digit => value * 10 + digit) 0

/-- The largest power of ten that is used in one step. -/
def largestPower : Nat := 308

/-- The binary64 number nearest to a natural. -/
def nearest (n : Nat) : Float := Float.ofScientific n false 0

/-- The binary64 number nearest to a power of ten. -/
def powerOfTen (exponent : Nat) : Float := Float.ofScientific 1 false exponent

/-- A number times a power of ten, or nothing where it overflows. A negative power beyond
the largest is taken in several steps. -/
def scale? (x : Float) (exponent : Int) : Option Float :=
  if exponent.natAbs ≤ largestPower then
    if 0 ≤ exponent then
      let product := x * powerOfTen exponent.natAbs
      if product.isInf then none else some product
    else some (x / powerOfTen exponent.natAbs)
  else if x == 0 then some x
  else if 0 ≤ exponent then none
  else scale? (x / powerOfTen largestPower) (exponent + largestPower)
termination_by exponent.natAbs
decreasing_by
  simp only [largestPower] at *
  omega

/-- The number that is written with the digits `whole` before and `fraction` after the
point, times `10 ^ exponent`. -/
def read? (whole fraction : List Nat) (exponent : Int) : Option Float :=
  let (significand, dropped) := gather 0 whole
  let (significand, unused) := gather significand fraction
  let used := fraction.length - unused.length
  scale? (nearest significand) (exponent + dropped.length - used)

end WebKey.Decimal
