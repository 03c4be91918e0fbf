/-
Generating private keys.

A pass draws as many primes as asked for, with sizes that divide the size of the modulus
as evenly as possible. It succeeds if the primes differ, if their product has exactly the
size of the modulus, and if the public exponent has an inverse modulo the product of the
primes less one, which is the private exponent. Otherwise a new pass begins.

* **`checkRequest`** — refuses fewer than two primes, and sizes for which there are too
  few primes;
* **`drawPrimes`** and **`assess`** — the two halves of a pass;
* **`generate`** — a private key from a source of primes, within so many passes.
-/
import WebKey.Generation.PrimeSource
import WebKey.Rsa.KeyFactory

namespace WebKey.Generation

/-- Why no key was generated. -/
inductive Failure where
  /-- the request, or the key that was found, is refused -/
  | refused (error : RsaError)
  /-- a prime would have fewer than two bits -/
  | primeTooSmall
  /-- the source of primes gave up, or no pass succeeded -/
  | exhausted

/-- The text for a prime of fewer than two bits. -/
def primeTooSmallMessage : String := "prime size must be at least 2-bit"

/-- The public exponent that is used where none is given. -/
def defaultExponent : Nat := 65537

/-! ### The request -/

/-- The natural logarithm of two, in units of `logUnit`. -/
def logTwo : Nat := 693147180559945309

/-- The unit of `logTwo`. -/
def logUnit : Nat := Nat.pow 10 18

/-- Are there enough primes for this many of them in a modulus of this size? There are
about `2 ^ k / (k * log 2 - 1)` primes below `2 ^ k`. A quarter of them has its two highest
bits set, and twice as many as needed have to be there. -/
def enoughPrimes (count size : Nat) : Bool :=
  let k := size / count
  logUnit < k * logTwo && 8 * count * (k * logTwo - logUnit) ≤ Nat.pow 2 k * logUnit

/-- Checks the number of primes and the size of the modulus. -/
def checkRequest (count size : Nat) : Except RsaError Unit :=
  if count < 2 then .error .tooFewFactors
  else if size < 64 && !enoughPrimes count size then .error .tooFewPrimes
  else .ok ()

/-! ### A pass -/

/-- Sizes are kept in words of 64 bits, which hold the numbers below this. -/
def wordBound : Nat := Nat.pow 2 64

/-- The sum of two sizes. If it is too large for a word, only the excess is kept. -/
def addSizes (m n : Nat) : Nat := (m + n) % wordBound

/-- The sizes of the primes add up to this. For many primes it is above the size of the
modulus, as a product of numbers with their two highest bits set loses some bits. -/
def totalSize (count size : Nat) : Nat :=
  if 7 ≤ count then addSizes size ((count - 2) / 5) else size

/-- Draws primes, the next one always with an even share of the bits that remain. -/
def drawPrimes {σ : Type} (source : PrimeSource σ) :
    (count remaining : Nat) → σ → Except Failure (List Nat × σ)
  | 0, _, state => .ok ([], state)
  | count + 1, remaining, state =>
    let size := remaining / (count + 1)
    if size < 2 then .error .primeTooSmall
    else
      match source.draw size state with
      | none => .error .exhausted
      | some (prime, state) => do
        let (primes, state) ← drawPrimes source count (remaining - bitLength prime) state
        return (prime :: primes, state)

/-- The numbers of a generated key. -/
structure Components where
  n : Nat
  e : Nat
  d : Nat
  primes : List Nat
deriving DecidableEq

/-- The product of the primes, each less one. -/
def totient (primes : List Nat) : Nat := productOf (primes.map (· - 1))

/-- The numbers of the key with these primes, unless the pass fails. -/
def assess (size exponent : Nat) (primes : List Nat) : Option Components :=
  if primes.Nodup ∧ bitLength (productOf primes) = size then
    (inverse? exponent (totient primes)).map fun d => ⟨productOf primes, exponent, d, primes⟩
  else none

/-- Makes passes until one succeeds. -/
def search {σ : Type} (source : PrimeSource σ) (count size exponent : Nat) :
    (passes : Nat) → σ → Except Failure (Components × σ)
  | 0, _ => .error .exhausted
  | passes + 1, state => do
    let (primes, state) ← drawPrimes source count (totalSize count size) state
    match assess size exponent primes with
    | some components => return (components, state)
    | none => search source count size exponent passes state

/-! ### Keys -/

/-- The private key with these numbers. -/
def Components.toKey (components : Components) : Except RsaError PrivateKey :=
  PrivateKey.ofComponents components.n components.e components.d components.primes

/-- Generates a private key with this many primes, a modulus of this size and this public
exponent. -/
def generate {σ : Type} (source : PrimeSource σ) (passes count size exponent : Nat) (state : σ) :
    Except Failure PrivateKey := do
  (checkRequest count size).mapError .refused
  let (components, _) ← search source count size exponent passes state
  components.toKey.mapError .refused

end WebKey.Generation
