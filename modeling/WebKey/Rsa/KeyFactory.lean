/-
Key factories: what turns numbers into keys.

A key factory decides which public keys and which specifications of private keys it
accepts. `KeyFactory.checking` accepts those that are consistent and whose modulus is
not too large.

* **`PublicKey.check`** — a modulus of at most the given size that is odd and at least
  three, and a public exponent within its bounds;
* **`KeySpec.check`** — for a plain key that the private exponent is positive and below
  the modulus; for the other shapes that the public key is good, that the primes multiply
  to the modulus, that the exponents are inverse modulo each prime less one, and that
  every further value is the one computed from the private exponent and the primes.
-/
import WebKey.Rsa.CrtValues

namespace WebKey

/-- Turns numbers into keys, or refuses them. -/
structure KeyFactory where
  publicKey : (n e : Nat) → Except RsaError PublicKey
  privateKey : KeySpec → Except RsaError PrivateKey

/-! ### Public keys -/

namespace PublicKey

/-- The least public exponent that is accepted. -/
def minExponent : Nat := 2

/-- The greatest public exponent that is accepted. -/
def maxExponent : Nat := Nat.pow 2 33 - 1

/-- The size of the largest modulus that is accepted by default, in bits. -/
def defaultMaxSize : Nat := 4096

/-- Checks a modulus. -/
def checkModulus (maxSize n : Nat) : Except RsaError Unit :=
  if maxSize < bitLength n then .error .modulusTooLarge
  else if n < 3 ∨ n % 2 = 0 then .error .invalidModulus
  else .ok ()

/-- Checks a modulus, then a public exponent. -/
def check (maxSize n e : Nat) : Except RsaError Unit := do
  checkModulus maxSize n
  if e < minExponent then .error .publicExponentTooSmall
  else if maxExponent < e then .error .publicExponentTooLarge
  else .ok ()

/-- The public key with these numbers, if they pass the check. -/
def ofNumbers (maxSize n e : Nat) : Except RsaError PublicKey := do
  check maxSize n e
  return ⟨n, e⟩

end PublicKey

/-! ### Private keys -/

/-- Checks the values of the later primes against those that were computed. -/
def checkOthers : (expected actual : List OtherPrime) → Except RsaError Unit
  | x :: expected, y :: actual =>
    if x.exponent ≠ y.exponent then .error .invalidExponent
    else if x.coefficient ≠ y.coefficient then .error .invalidCoefficient
    else checkOthers expected actual
  | _, _ => .ok ()

/-- Checks the primes and their values against the modulus and the exponents. -/
def checkFactors (n e d : Nat) (crt : CrtValues) (others : List OtherPrime) :
    Except RsaError Unit :=
  let primes := crt.p :: crt.q :: others.map OtherPrime.prime
  if primes.any (· ≤ 1) then .error .invalidPrime
  else if productOf primes ≠ n then .error .invalidModulus
  else if primes.any (fun prime => e * d % (prime - 1) ≠ 1) then .error .invalidExponent
  else do
    let (expected, expectedOthers) ← crtValues d primes
    if expected.dp ≠ crt.dp ∨ expected.dq ≠ crt.dq then .error .invalidExponent
    else if expected.qi ≠ crt.qi then .error .invalidCoefficient
    else checkOthers expectedOthers others

/-- Checks the specification of a private key. -/
def KeySpec.check (maxSize : Nat) : KeySpec → Except RsaError Unit
  | .plain n d => do
    PublicKey.checkModulus maxSize n
    if d = 0 ∨ n ≤ d then .error .invalidExponent else .ok ()
  | .twoPrime n e d crt => do
    PublicKey.check maxSize n e
    checkFactors n e d crt []
  | .multiPrime n e d crt others =>
    if others.isEmpty then .error .noOtherPrimes
    else do
      PublicKey.check maxSize n e
      checkFactors n e d crt others

/-- The private key with this specification, if it passes the check. -/
def PrivateKey.ofSpec (maxSize : Nat) (spec : KeySpec) : Except RsaError PrivateKey := do
  spec.check maxSize
  return ⟨spec⟩

/-! ### Factories -/

namespace KeyFactory

/-- The factory that accepts what passes the checks with this size limit. -/
def checking (maxSize : Nat) : KeyFactory where
  publicKey := PublicKey.ofNumbers maxSize
  privateKey := PrivateKey.ofSpec maxSize

/-- The factory that is used where none is named. -/
def standard : KeyFactory := checking PublicKey.defaultMaxSize

end KeyFactory

/-- The private key with this modulus, these exponents and these primes, if it passes the
check with the default size limit. -/
def PrivateKey.ofComponents (n e d : Nat) (primes : List Nat) : Except RsaError PrivateKey := do
  KeyFactory.standard.privateKey (← KeySpec.ofComponents n e d primes)

end WebKey
