/-
What can go wrong with an RSA key or its JSON Web Key.

Errors are causes. The wording of every message is in this file: the faults of a single
member in `MemberFault.reason`, all others in `RsaError.report`.

* **`RsaError.kind`** — the kind of an error;
* **`RsaError.message`** — the text of an error;
* **`RsaError.member?`** — the member that a malformed value was found in.
-/
import WebKey.Json.Printer
import WebKey.Json.Members
import WebKey.Param
import WebKey.Rsa.Key

namespace WebKey

/-! ### Faults of a member -/

/-- What is wrong with the value of a member. -/
inductive MemberFault where
  /-- a required parameter is absent -/
  | missing (param : Param)
  /-- an integer parameter is not a string -/
  | notString (param : Param) (found : Json.Kind)
  /-- the text is not in the Base64url alphabet, or not in its strict form -/
  | notBase64Url
  /-- the text stands for no octets -/
  | noOctets
  /-- an integer parameter is zero -/
  | notPositive (param : Param)
  /-- the list of other primes is not an array -/
  | notArray (found : Json.Kind)
  /-- the list of other primes has no elements -/
  | noElements
  /-- an element of the list of other primes is null -/
  | nullElement
  /-- an element of the list of other primes is not an object -/
  | notObject (found : Json.Kind)
  /-- an element of the list of other primes has no members -/
  | emptyElement
  /-- a reason of a key factory's own -/
  | other (reason : String)

/-- The reason that messages give for a fault. -/
def MemberFault.reason : MemberFault → String
  | .missing param => s!"RSA JWK is missing required {param.label} value"
  | .notString param found => s!"{param.label} must be a string, found {found.name}"
  | .notBase64Url => "value is not a Base64url encoded integer"
  | .noOctets => "value cannot be empty"
  | .notPositive param => s!"{param.label} must be a positive integer"
  | .notArray found => s!"{Param.otherPrimesInfo.label} must be an array, found {found.name}"
  | .noElements =>
    s!"{Param.otherPrimesInfo.label} cannot be empty, omit it for two-prime keys"
  | .nullElement => "Other Prime Info element cannot be null"
  | .notObject found =>
    s!"Other Prime Info list must contain objects of name/value pairs, found {found.name}"
  | .emptyElement => "Other Prime Info element cannot be empty"
  | .other reason => reason

/-! ### Errors -/

/-- What can go wrong. The first group are keys that are not supported, each with its cause. -/
inductive RsaError where
  /-- the key type is present and not RSA -/
  | keyTypeNotRsa (value : Json)
  /-- the key factory refused the public key of a key with these members -/
  | publicKeyRefused (names : List String) (cause : RsaError)
  /-- the key factory refused the private key of a key with these members -/
  | privateKeyRefused (shape : KeyShape) (names : List String) (cause : RsaError)
  /-- a private key of this shape does not hold the public exponent -/
  | publicExponentUnknown (shape : KeyShape)
  /-- the key factory refused the public key derived from a private key -/
  | derivedKeyRefused (shape : KeyShape) (cause : RsaError)
  /-- the public key beside a private key has another modulus -/
  | modulusMismatch (shape : KeyShape)
  /-- a multi-prime specification lists no other primes -/
  | noOtherPrimes
  /-- a reason of a key factory's own -/
  | unsupported (reason : String)
  /-- the value of a member is absent or malformed -/
  | malformed (member : String) (fault : MemberFault)
  | tooFewFactors
  | tooFewPrimes
  | invalidPrime
  | invalidModulus
  | invalidExponent
  | invalidCoefficient
  | modulusTooLarge
  | publicExponentTooSmall
  | publicExponentTooLarge

namespace RsaError

/-- The kinds of errors. -/
inductive Kind where
  | unsupportedKeyShape
  | malformedField
  | nprimesTooSmall
  | tooFewPrimes
  | invalidPrime
  | invalidModulus
  | invalidExponent
  | invalidCoefficient
  | modulusTooLarge
  | publicExponentTooSmall
  | publicExponentTooLarge
deriving DecidableEq

/-- The name of a kind. -/
def Kind.name : Kind → String
  | .unsupportedKeyShape => "UnsupportedKeyShape"
  | .malformedField => "MalformedField"
  | .nprimesTooSmall => "NprimesTooSmall"
  | .tooFewPrimes => "TooFewPrimes"
  | .invalidPrime => "InvalidPrime"
  | .invalidModulus => "InvalidModulus"
  | .invalidExponent => "InvalidExponent"
  | .invalidCoefficient => "InvalidCoefficient"
  | .modulusTooLarge => "ModulusTooLarge"
  | .publicExponentTooSmall => "PublicExponentTooSmall"
  | .publicExponentTooLarge => "PublicExponentTooLarge"

/-- The kind of an error. -/
def kind : RsaError → Kind
  | .keyTypeNotRsa _ | .publicKeyRefused .. | .privateKeyRefused .. | .publicExponentUnknown _
  | .derivedKeyRefused .. | .modulusMismatch _ | .noOtherPrimes | .unsupported _ =>
    .unsupportedKeyShape
  | .malformed .. => .malformedField
  | .tooFewFactors => .nprimesTooSmall
  | .tooFewPrimes => .tooFewPrimes
  | .invalidPrime => .invalidPrime
  | .invalidModulus => .invalidModulus
  | .invalidExponent => .invalidExponent
  | .invalidCoefficient => .invalidCoefficient
  | .modulusTooLarge => .modulusTooLarge
  | .publicExponentTooSmall => .publicExponentTooSmall
  | .publicExponentTooLarge => .publicExponentTooLarge

/-- Is the key not supported? -/
def isUnsupported (error : RsaError) : Bool := error.kind == .unsupportedKeyShape

/-- Is a member absent or malformed? -/
def isMalformed (error : RsaError) : Bool := error.kind == .malformedField

/-- The member that is absent or malformed. -/
def member? : RsaError → Option String
  | .malformed member _ => some member
  | _ => none

/-! ### Messages -/

/-- What the text of an error is made of. -/
inductive Report where
  | unsupported (reason : String)
  | malformed (member reason : String)
  /-- an error that its kind says all about -/
  | plain (text : String)

/-- The text of a report. -/
def Report.message : Report → String
  | .unsupported reason => "unsupported RSA key: " ++ reason
  | .malformed member reason => s!"malformed RSA JWK '{member}' value: {reason}"
  | .plain text => text

/-- The advice for keys whose public exponent is not known. -/
def explicitPublicKeyAdvice : String :=
  "Supported keys have the PrivateKeySpec::Crt or PrivateKeySpec::MultiPrimeCrt shape. " ++
  "If the private key cannot have one of these two shapes, you must explicitly provide an " ++
  "RsaPublicKey in addition to the RsaPrivateKey, as the [JWA RFC, Section 6.3.2]" ++
  "(https://datatracker.ietf.org/doc/html/rfc7518#section-6.3.2) requires public values " ++
  "to be present in private RSA JWKs."

/-- The report of an error. -/
def report : RsaError → Report
  | .keyTypeNotRsa value => .unsupported
      s!"JWK {Param.keyType.label} value {value.compact} is not supported, expected \"{rsaKeyType}\""
  | .publicKeyRefused names cause => .unsupported
      (s!"unable to create RSA public key from JWK {Members.describe names}: " ++
        cause.report.message)
  | .privateKeyRefused shape names cause => .unsupported
      (s!"unable to create {shape.name} RSA private key from JWK {Members.describe names}: " ++
        cause.report.message)
  | .publicExponentUnknown shape => .unsupported
      (s!"unable to derive an RSA public key from a {shape.name} RSA private key. " ++
        explicitPublicKeyAdvice)
  | .derivedKeyRefused shape cause => .unsupported
      (s!"unable to derive an RSA public key from a {shape.name} RSA private key: " ++
        cause.report.message)
  | .modulusMismatch shape => .unsupported
      s!"the public key modulus does not match the modulus of the {shape.name} RSA private key"
  | .noOtherPrimes => .unsupported
      "multi-prime CRT key without other primes, use the two-prime CRT shape"
  | .unsupported reason => .unsupported reason
  | .malformed member fault => .malformed member fault.reason
  | .tooFewFactors => .plain "nprimes must be >= 2"
  | .tooFewPrimes => .plain "too few primes of given length to generate an RSA key"
  | .invalidPrime => .plain "invalid prime value"
  | .invalidModulus => .plain "invalid modulus"
  | .invalidExponent => .plain "invalid exponent"
  | .invalidCoefficient => .plain "invalid coefficient"
  | .modulusTooLarge => .plain "modulus too large"
  | .publicExponentTooSmall => .plain "public exponent too small"
  | .publicExponentTooLarge => .plain "public exponent too large"

/-- The text of an error. -/
def message (error : RsaError) : String := error.report.message

end RsaError

end WebKey
