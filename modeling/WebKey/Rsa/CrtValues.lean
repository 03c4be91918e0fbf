/-
The values of the Chinese remainder theorem, computed from the private exponent and the
prime factors.

The first two primes `p` and `q` have the exponents `d mod (p - 1)` and `d mod (q - 1)`
and the inverse of `q` modulo `p`. Every later prime `r` has the exponent `d mod (r - 1)`
and the inverse, modulo `r`, of the product of all primes before it.

* **`crtValues`** — the values for a list of primes;
* **`KeySpec.ofComponents`** — the specification of a key with these values.
-/
import WebKey.Rsa.Inverse
import WebKey.RsaError

namespace WebKey

/-- The product of the factors. -/
def productOf (factors : List Nat) : Nat := factors.foldl (· * ·) 1

/-- The values of the primes after the second, where `product` is that of all before. -/
def otherPrimes (d product : Nat) : List Nat → Except RsaError (List OtherPrime)
  | [] => .ok []
  | prime :: rest =>
    match inverse? product prime with
    | none => .error .invalidCoefficient
    | some coefficient => do
      let others ← otherPrimes d (product * prime) rest
      return ⟨prime, d % (prime - 1), coefficient⟩ :: others

/-- The values of a list of primes, of which there have to be two. -/
def crtValues (d : Nat) : List Nat → Except RsaError (CrtValues × List OtherPrime)
  | p :: q :: rest =>
    if (p :: q :: rest).any (· ≤ 1) then .error .invalidPrime
    else
      match inverse? q p with
      | none => .error .invalidPrime
      | some qi => do
        let others ← otherPrimes d (p * q) rest
        return (⟨p, q, d % (p - 1), d % (q - 1), qi⟩, others)
  | _ => .error .tooFewFactors

/-- The specification of the key with this modulus, these exponents and these primes. -/
def KeySpec.ofComponents (n e d : Nat) (primes : List Nat) : Except RsaError KeySpec := do
  let (crt, others) ← crtValues d primes
  return if others.isEmpty then .twoPrime n e d crt else .multiPrime n e d crt others

end WebKey
