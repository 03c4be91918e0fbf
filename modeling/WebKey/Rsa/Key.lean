/-
RSA keys.

A private key has one of three shapes. The plain shape holds the modulus and the private
exponent only. The other two also hold the public exponent and the prime factors, with
the values of the Chinese remainder theorem for each: two factors in the first, more in
the second.

* **`KeySpec`** — the numbers of a private key, in one of the shapes;
* **`PrivateKey`** — a specification that a key factory has accepted;
* **`KeySpec.wipe`** — the specification with its secrets set to zero.
-/

namespace WebKey

/-- The number of binary digits, none for zero. -/
def bitLength (n : Nat) : Nat := if n = 0 then 0 else n.log2 + 1

/-- A public key. -/
structure PublicKey where
  modulus : Nat
  exponent : Nat
deriving DecidableEq

/-- The size of the modulus in octets. -/
def PublicKey.size (key : PublicKey) : Nat := (bitLength key.modulus + 7) / 8

/-- The first two prime factors with their values for the Chinese remainder theorem. -/
structure CrtValues where
  /-- the first prime factor -/
  p : Nat
  /-- the second prime factor -/
  q : Nat
  /-- the private exponent modulo `p - 1` -/
  dp : Nat
  /-- the private exponent modulo `q - 1` -/
  dq : Nat
  /-- the inverse of `q` modulo `p` -/
  qi : Nat
deriving DecidableEq

/-- The third or a later prime factor with its values for the Chinese remainder theorem. -/
structure OtherPrime where
  prime : Nat
  /-- the private exponent modulo the prime less one -/
  exponent : Nat
  /-- the inverse, modulo the prime, of the product of all factors before it -/
  coefficient : Nat
deriving DecidableEq

/-- The shape of a private key. -/
inductive KeyShape where
  | plain
  | twoPrime
  | multiPrime
deriving DecidableEq

/-- The shape as messages name it. -/
def KeyShape.name : KeyShape → String
  | .plain => "plain"
  | .twoPrime => "two-prime CRT"
  | .multiPrime => "multi-prime CRT"

/-- The numbers of a private key. -/
inductive KeySpec where
  | plain (n d : Nat)
  | twoPrime (n e d : Nat) (crt : CrtValues)
  | multiPrime (n e d : Nat) (crt : CrtValues) (others : List OtherPrime)
deriving DecidableEq

namespace KeySpec

def shape : KeySpec → KeyShape
  | .plain .. => .plain
  | .twoPrime .. => .twoPrime
  | .multiPrime .. => .multiPrime

def modulus : KeySpec → Nat
  | .plain n _ | .twoPrime n _ _ _ | .multiPrime n _ _ _ _ => n

def privateExponent : KeySpec → Nat
  | .plain _ d | .twoPrime _ _ d _ | .multiPrime _ _ d _ _ => d

/-- The public exponent, which the plain shape does not hold. -/
def publicExponent? : KeySpec → Option Nat
  | .plain .. => none
  | .twoPrime _ e _ _ | .multiPrime _ e _ _ _ => some e

def crt? : KeySpec → Option CrtValues
  | .plain .. => none
  | .twoPrime _ _ _ crt | .multiPrime _ _ _ crt _ => some crt

def others : KeySpec → List OtherPrime
  | .multiPrime _ _ _ _ others => others
  | _ => []

/-- The prime factors that the specification holds, in order. -/
def primes (spec : KeySpec) : List Nat :=
  (match spec.crt? with
    | some crt => [crt.p, crt.q]
    | none => []) ++ spec.others.map OtherPrime.prime

/-- The number of prime factors that the specification holds. -/
def primeCount (spec : KeySpec) : Nat :=
  match spec.crt? with
  | some _ => 2 + spec.others.length
  | none => 0

end KeySpec

/-- A private key: a specification that a key factory has accepted. -/
structure PrivateKey where
  spec : KeySpec
deriving DecidableEq

namespace PrivateKey

/-- The public key, if the shape of the private key holds its exponent. It is not checked. -/
def publicKey? (key : PrivateKey) : Option PublicKey :=
  key.spec.publicExponent?.map fun e => ⟨key.spec.modulus, e⟩

end PrivateKey

/-! ### Wiping secrets -/

/-- All values zero. -/
def CrtValues.wipe (_ : CrtValues) : CrtValues := ⟨0, 0, 0, 0, 0⟩

/-- All values zero. -/
def OtherPrime.wipe (_ : OtherPrime) : OtherPrime := ⟨0, 0, 0⟩

/-- The specification without its secrets: the modulus and the public exponent stay, the
list of other primes becomes empty, and all other values become zero. -/
def KeySpec.wipe : KeySpec → KeySpec
  | .plain n _ => .plain n 0
  | .twoPrime n e _ crt => .twoPrime n e 0 crt.wipe
  | .multiPrime n e _ crt _ => .multiPrime n e 0 crt.wipe []

end WebKey
