/-
JSON Web Keys of RSA public keys.

* **`PublicJwk.ofKey`** — the JSON Web Key of a public key;
* **`PublicJwk.ofFields`** — the public key of a field set, made by a key factory. The
  field set is kept, with the key type in front if it has no member of that name.
-/
import WebKey.Integer
import WebKey.Rsa.KeyFactory

namespace WebKey

/-- A public key with its field set. -/
structure PublicJwk where
  fields : FieldSet
  key : PublicKey

/-- Is the key type present? It has to be that of RSA keys if it is. -/
def FieldSet.checkKeyType (fields : FieldSet) : Except RsaError Bool :=
  match fields.field? Param.keyType.id with
  | none => .ok false
  | some (.string text) =>
    if text = rsaKeyType then .ok true else .error (.keyTypeNotRsa (.string text))
  | some value => .error (.keyTypeNotRsa value)

namespace PublicJwk

/-- The field set that holds the key type and nothing else. -/
def keyTypeFields : FieldSet := FieldSet.empty.put .keyType (.string rsaKeyType)

/-- The JSON Web Key of a public key. -/
def ofKey (key : PublicKey) : PublicJwk where
  fields := (keyTypeFields.putInteger .modulus key.modulus).putInteger .publicExponent key.exponent
  key := key

/-- Reads the public key of a field set. -/
def ofFields (fields : FieldSet) (factory : KeyFactory) : Except RsaError PublicJwk := do
  let _ ← fields.checkKeyType
  let n ← fields.requiredInteger .modulus
  let e ← fields.requiredInteger .publicExponent
  let key ← (factory.publicKey n e).mapError (.publicKeyRefused fields.names)
  return ⟨keyTypeFields.extend fields, key⟩

/-- The names of the members that reading a public key uses. -/
def usedNames (fields : FieldSet) : List String :=
  (Param.publicParams.filter fun param => param ≠ .keyType ∨ fields.hasField param.id).map Param.id

/-- Equality up to the order of members. -/
def same (jwk other : PublicJwk) : Bool := jwk.fields.same other.fields && jwk.key == other.key

end PublicJwk

end WebKey
