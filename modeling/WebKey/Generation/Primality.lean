/-
A test for primes.

A number `n` above one that no small prime divides is tested by the strong test: with
`n - 1 = d * 2 ^ k` and `d` odd, a base passes if its power `d` is one modulo `n`, or if
squaring that power fewer than `k` times reaches `n - 1`. A prime passes for every base,
and a composite number for few of them.

* **`powMod`** — a power modulo a number;
* **`isProbablePrime`** — the test for the first twenty primes as bases.
-/

namespace WebKey.Generation

/-- The power `base ^ exponent` modulo `modulus`, by repeated squaring. -/
def powMod (base exponent modulus : Nat) : Nat :=
  if exponent = 0 then 1 % modulus
  else
    let root := powMod base (exponent / 2) modulus
    let square := root * root % modulus
    if exponent % 2 = 0 then square else square * base % modulus
termination_by exponent

/-- How often two divides a positive number. -/
def twos (n : Nat) : Nat :=
  if n = 0 ∨ n % 2 = 1 then 0 else twos (n / 2) + 1
termination_by n

/-- Is `target` among the first `count` of the repeated squares of `x` modulo `n`? -/
def squaresReach (n target : Nat) : (count x : Nat) → Bool
  | 0, _ => false
  | count + 1, x => x == target || squaresReach n target count (x * x % n)

/-- Does a base pass the strong test for `n`? -/
def passesStrongTest (n base : Nat) : Bool :=
  let count := twos (n - 1)
  let power := powMod base ((n - 1) / Nat.pow 2 count) n
  power == 1 || squaresReach n (n - 1) count power

/-- The bases of the test. -/
def testBases : List Nat :=
  [2, 3, 5, 7, 11, 13, 17, 19, 23, 29, 31, 37, 41, 43, 47, 53, 59, 61, 67, 71]

/-- Is the number prime, as far as the test tells? -/
def isProbablePrime (n : Nat) : Bool :=
  1 < n && (testBases.contains n ||
    (testBases.all (fun base => n % base ≠ 0) && testBases.all (passesStrongTest n)))

end WebKey.Generation
