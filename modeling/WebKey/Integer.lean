/-
Integers in a JSON Web Key.

An integer is the Base64url text of its big-endian octets. It is written with as few
octets as possible; texts with zero octets in front are read all the same.

* **`Integer.encode`** and **`Integer.decode`** — an integer and its text;
* **`Members.requiredInteger`** — the integer of a parameter, which has to be present
  and positive.
-/
import WebKey.Base64Url
import WebKey.FieldSet
import WebKey.Octets
import WebKey.RsaError

namespace WebKey

namespace Integer

/-- The text of an integer. -/
def encode (value : Nat) : String := Base64Url.encode (Octets.ofNat value)

/-- The integer that a text stands for. -/
def decode (text : String) : Except MemberFault Nat :=
  match Base64Url.decode? text with
  | none => .error .notBase64Url
  | some [] => .error .noOctets
  | some octets => .ok (Octets.toNat octets)

end Integer

/-- The positive integer that a value stands for. -/
def Json.positiveInteger (param : Param) : Json → Except MemberFault Nat
  | .string text =>
    match Integer.decode text with
    | .ok 0 => .error (.notPositive param)
    | result => result
  | value => .error (.notString param value.kind)

/-- The positive integer of a required parameter. -/
def Members.requiredInteger (members : Members) (param : Param) : Except RsaError Nat :=
  match members.field? param.id with
  | none => .error (.malformed param.id (.missing param))
  | some value => (value.positiveInteger param).mapError (.malformed param.id)

/-- The positive integer of a required parameter. -/
def FieldSet.requiredInteger (fields : FieldSet) (param : Param) : Except RsaError Nat :=
  fields.members.requiredInteger param

/-- Sets the member of an integer parameter. -/
def FieldSet.putInteger (fields : FieldSet) (param : Param) (value : Nat) : FieldSet :=
  fields.put param (.string (Integer.encode value))

end WebKey
