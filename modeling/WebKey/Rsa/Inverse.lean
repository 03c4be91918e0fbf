/-
Inverses modulo a number.

Euclid's algorithm runs on `a` and `m` and carries along, for each remainder, a
coefficient `s` such that the remainder is `s * a` modulo `m`. When the last remainder
is one, its coefficient is the inverse.

* **`inverse?`** — the inverse of `a` modulo `m`, reduced, if `a` and `m` are coprime.
-/

namespace WebKey

/-- Euclid's algorithm on two remainders with their coefficients. Returns the greatest
common divisor with its coefficient. -/
def euclid (r r' : Nat) (s s' : Int) : Nat × Int :=
  if r' = 0 then (r, s) else euclid r' (r % r') s' (s - (r / r' : Nat) * s')
termination_by r'
decreasing_by exact Nat.mod_lt r (by omega)

/-- The inverse of `a` modulo a positive `m`, which exists when the two are coprime. -/
def inverse? (a m : Nat) : Option Nat :=
  let (divisor, coefficient) := euclid a m 1 0
  if divisor = 1 then some (coefficient % m).toNat else none

end WebKey
