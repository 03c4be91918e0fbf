/-
JSON Web Keys of RSA private keys.

A private key is written together with its public half, so it can only be written if its
public exponent is known: a plain key needs its public key beside it.

* **`PrivateJwk.ofKey`** — the JSON Web Key of a private key;
* **`PrivateJwk.ofFields`** — the private key of a field set, made by a key factory. The
  values of the first two primes stand together or not at all, and the list of other
  primes counts only beside them. The field set is kept, with the key type at its end if
  it has no member of that name;
* **`PrivateJwk.supports`** — does a field set look like a private key?
-/
import WebKey.Event
import WebKey.Jwk.OtherPrimes
import WebKey.Jwk.PublicJwk

namespace WebKey

/-- A private key with its field set and its public half. -/
structure PrivateJwk where
  fields : FieldSet
  key : PrivateKey
  publicHalf : PublicJwk

namespace PrivateJwk

/-- Does a field set look like a private key? It has a private exponent and, if it has a
key type, that of RSA keys. -/
def supports (fields : FieldSet) : Bool :=
  fields.hasField Param.privateExponent.id && fields.checkKeyType.isOk

/-- The same test, recorded. -/
def gate (fields : FieldSet) : Logged Bool := do
  Logged.record (.gate fields.names (supports fields))
  return supports fields

/-! ### Writing -/

/-- The public exponent of a private key whose shape holds it. -/
def publicExponent (key : PrivateKey) : Except RsaError Nat :=
  match key.spec.publicExponent? with
  | some e => .ok e
  | none => .error (.publicExponentUnknown key.spec.shape)

/-- The public key of a private key whose shape holds the public exponent. -/
def derivePublicKey (key : PrivateKey) (factory : KeyFactory) : Except RsaError PublicKey := do
  let e ← publicExponent key
  (factory.publicKey key.spec.modulus e).mapError (.derivedKeyRefused key.spec.shape)

/-- The public key to write beside a private key: the one given, which has to have the
same modulus, or else the one derived from it. -/
def choosePublicKey (key : PrivateKey) (given : Option PublicKey) (factory : KeyFactory) :
    Except RsaError PublicKey :=
  match given with
  | some publicKey =>
    if publicKey.modulus ≠ key.spec.modulus then .error (.modulusMismatch key.spec.shape)
    else .ok publicKey
  | none => derivePublicKey key factory

/-- Adds the values of the first two primes. -/
def putCrt (fields : FieldSet) (crt : CrtValues) : FieldSet :=
  ((((fields.putInteger .firstPrime crt.p).putInteger .secondPrime crt.q).putInteger
    .firstCrtExponent crt.dp).putInteger .secondCrtExponent crt.dq).putInteger
    .firstCrtCoefficient crt.qi

/-- Adds the list of other primes, unless it is empty. -/
def putOthers (fields : FieldSet) (others : List OtherPrime) : FieldSet :=
  if others.isEmpty then fields
  else fields.put .otherPrimesInfo (OtherPrime.listToJson others)

/-- Adds the private values of a specification. -/
def putPrivate (fields : FieldSet) (spec : KeySpec) : FieldSet :=
  let fields := fields.putInteger .privateExponent spec.privateExponent
  match spec.crt? with
  | none => fields
  | some crt => putOthers (putCrt fields crt) spec.others

/-- The JSON Web Key of a private key, with the public key that is given or derived. -/
def ofKey (key : PrivateKey) (given : Option PublicKey) (factory : KeyFactory) :
    Logged PrivateJwk := do
  let publicHalf := PublicJwk.ofKey (← choosePublicKey key given factory)
  let fields := putPrivate publicHalf.fields key.spec
  Logged.record (.encoded key.spec.shape fields.names)
  return ⟨fields, key, publicHalf⟩

/-! ### Reading -/

/-- Is one of the values of the first two primes present? -/
def hasCrt (fields : FieldSet) : Bool := Param.crtParams.any fun param => fields.hasField param.id

/-- Reads the values of the first two primes. -/
def readCrt (fields : FieldSet) : Except RsaError CrtValues := do
  let p ← fields.requiredInteger .firstPrime
  let q ← fields.requiredInteger .secondPrime
  let dp ← fields.requiredInteger .firstCrtExponent
  let dq ← fields.requiredInteger .secondCrtExponent
  let qi ← fields.requiredInteger .firstCrtCoefficient
  return ⟨p, q, dp, dq, qi⟩

/-- Reads the specification of a private key with this public key and private exponent. -/
def readSpec (fields : FieldSet) (publicKey : PublicKey) (d : Nat) : Except RsaError KeySpec :=
  if hasCrt fields then do
    let crt ← readCrt fields
    match fields.field? Param.otherPrimesInfo.id with
    | none => return .twoPrime publicKey.modulus publicKey.exponent d crt
    | some value =>
      return .multiPrime publicKey.modulus publicKey.exponent d crt (← OtherPrime.listOfJson value)
  else return .plain publicKey.modulus d

/-- Is there a list of other primes that does not count? -/
def ignoresOtherPrimes (fields : FieldSet) : Bool :=
  !hasCrt fields && fields.hasField Param.otherPrimesInfo.id

/-- What a key factory's refusal of a specification means for the field set it was read
from: it is passed on if it says that the key is not supported, and explained otherwise. -/
def refusal (fields : FieldSet) (shape : KeyShape) (cause : RsaError) : RsaError :=
  if cause.isUnsupported then cause else .privateKeyRefused shape fields.names cause

/-- Reads the private key of a field set. -/
def ofFields (fields : FieldSet) (factory : KeyFactory) : Logged PrivateJwk := do
  let d ← fields.requiredInteger .privateExponent
  let publicHalf ← PublicJwk.ofFields (fields.without Param.privateParams) factory
  let spec ← readSpec fields publicHalf.key d
  if ignoresOtherPrimes fields then Logged.record .ignoredOtherPrimes
  let key ← (factory.privateKey spec).mapError (refusal fields spec.shape)
  let merged := fields.extend publicHalf.fields
  Logged.record (.decoded spec.shape merged.names)
  return ⟨merged, key, publicHalf⟩

/-- Equality up to the order of members. -/
def same (jwk other : PrivateJwk) : Bool :=
  jwk.fields.same other.fields && jwk.key == other.key && jwk.publicHalf.same other.publicHalf

end PrivateJwk

end WebKey
