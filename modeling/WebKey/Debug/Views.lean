/-
The debug texts of keys, field sets and errors.

Private values are never shown: in field sets the values of private members, in private
keys the private exponent and all values of the prime factors.

Each view is a document; its layout is chosen where it is written.
-/
import WebKey.Debug.Doc
import WebKey.Jwk.PrivateJwk

namespace WebKey

namespace Debug

/-! ### Numbers and values -/

/-- The digits of a number to the base `2 ^ 64`, least significant first, none for zero. -/
def words (n : Nat) : List Nat :=
  if n = 0 then [] else n % Nat.pow 2 64 :: words (n / Nat.pow 2 64)
termination_by n

/-- A large number by its words. -/
def natural (n : Nat) : Doc :=
  .record "BigUint" [("data", .list ((words n).map fun word => .atom (toString word)))]

mutual

/-- A JSON value. -/
def json : Json → Doc
  | .null => .atom "Null"
  | .bool b => .atom (if b then "Bool(true)" else "Bool(false)")
  | .number x => .atom ("Number(" ++ x.text ++ ")")
  | .string s => .atom ("String(" ++ quoted s ++ ")")
  | .array items => .tagged "Array" (.list (jsonItems items))
  | .object members => .tagged "Object" (.table (jsonMembers members))

def jsonItems : List Json → List Doc
  | [] => []
  | item :: rest => json item :: jsonItems rest

def jsonMembers : List (String × Json) → List (String × Doc)
  | [] => []
  | (name, value) :: rest => (name, json value) :: jsonMembers rest

end

/-- The value of a member, unless it is private. -/
def member (name : String) (value : Json) : Doc :=
  if Param.isPrivateId name then .redacted else json value

end Debug

/-! ### Parameters and errors -/

open Debug

def Param.debug (param : Param) : Doc :=
  .record "Param"
    [("id", .text param.id), ("name", .text param.title), ("secret", .flag param.isSecret)]

def RsaError.debug (error : RsaError) : Doc :=
  match error.report with
  | .unsupported reason => .record error.kind.name [("reason", .text reason)]
  | .malformed member reason =>
    .record error.kind.name [("field", .text member), ("reason", .text reason)]
  | .plain _ => .record error.kind.name []

/-! ### Keys -/

def KeyShape.debug : KeyShape → Doc
  | .plain => .atom "Plain"
  | .twoPrime => .atom "Crt"
  | .multiPrime => .atom "MultiPrimeCrt"

def CrtValues.debug (_ : CrtValues) : Doc := .withheld "CrtParams"

def OtherPrime.debug (_ : OtherPrime) : Doc := .withheld "OtherPrimeInfo"

def PublicKey.debug (key : PublicKey) : Doc :=
  .record "RsaPublicKey" [("n", natural key.modulus), ("e", natural key.exponent)]

def KeySpec.debug : KeySpec → Doc
  | .plain n _ => .record "Plain" [("n", natural n), ("d", .redacted)]
  | .twoPrime n e _ crt =>
    .record "Crt" [("n", natural n), ("e", natural e), ("d", .redacted), ("crt", crt.debug)]
  | .multiPrime n e _ crt others =>
    .record "MultiPrimeCrt"
      [("n", natural n), ("e", natural e), ("d", .redacted), ("crt", crt.debug),
        ("other_primes", .list (others.map OtherPrime.debug))]

def PrivateKey.debug (key : PrivateKey) : Doc := .record "RsaPrivateKey" [("spec", key.spec.debug)]

/-- The checking key factory with this size limit. -/
def KeyFactory.debugChecking (maxSize : Nat) : Doc :=
  .record "DefaultKeyFactory" [("max_size", .atom (toString maxSize))]

/-! ### Field sets and JSON Web Keys -/

def FieldSet.debug (fields : FieldSet) : Doc :=
  .table (fields.members.map fun (name, value) => (name, member name value))

def PublicJwk.debug (jwk : PublicJwk) : Doc :=
  .record "RsaPublicJwk" [("fields", jwk.fields.debug), ("key", jwk.key.debug)]

def PrivateJwk.debug (jwk : PrivateJwk) : Doc :=
  .record "RsaPrivateJwk"
    [("fields", jwk.fields.debug), ("key", jwk.key.debug), ("public", jwk.publicHalf.debug)]

end WebKey
