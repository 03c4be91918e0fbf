/-
The parameters of RSA keys in a JSON Web Key.

* **`Param.id`** — the member name that a parameter has;
* **`Param.label`** — the parameter as messages name it;
* **`Param.privateParams`**, **`Param.crtParams`**, **`Param.rsaParams`** — the parameters
  that only private keys have, those of them that stand together or not at all, and all
  parameters of a whole key.

The elements of the list of other primes have three parameters of their own. One of them
shares its member name with the private exponent.
-/

namespace WebKey

/-- A parameter of an RSA key, or of an element of its list of other primes. -/
inductive Param where
  | keyType
  | modulus
  | publicExponent
  | privateExponent
  | firstPrime
  | secondPrime
  | firstCrtExponent
  | secondCrtExponent
  | firstCrtCoefficient
  | otherPrimesInfo
  | primeFactor
  | factorCrtExponent
  | factorCrtCoefficient
deriving DecidableEq

namespace Param

/-- The member name of the parameter. -/
def id : Param → String
  | .keyType => "kty"
  | .modulus => "n"
  | .publicExponent => "e"
  | .privateExponent => "d"
  | .firstPrime => "p"
  | .secondPrime => "q"
  | .firstCrtExponent => "dp"
  | .secondCrtExponent => "dq"
  | .firstCrtCoefficient => "qi"
  | .otherPrimesInfo => "oth"
  | .primeFactor => "r"
  | .factorCrtExponent => "d"
  | .factorCrtCoefficient => "t"

/-- The parameter's name for readers. -/
def title : Param → String
  | .keyType => "Key Type"
  | .modulus => "Modulus"
  | .publicExponent => "Public Exponent"
  | .privateExponent => "Private Exponent"
  | .firstPrime => "First Prime Factor"
  | .secondPrime => "Second Prime Factor"
  | .firstCrtExponent => "First Factor CRT Exponent"
  | .secondCrtExponent => "Second Factor CRT Exponent"
  | .firstCrtCoefficient => "First CRT Coefficient"
  | .otherPrimesInfo => "Other Primes Info"
  | .primeFactor => "Prime Factor"
  | .factorCrtExponent => "Factor CRT Exponent"
  | .factorCrtCoefficient => "Factor CRT Coefficient"

/-- Does the parameter hold private key material? -/
def isSecret : Param → Bool
  | .keyType | .modulus | .publicExponent => false
  | _ => true

/-- The parameter as messages name it. -/
def label (param : Param) : String := "'" ++ param.id ++ "' (" ++ param.title ++ ")"

/-! ### Groups of parameters -/

/-- The parameters that a public key has. -/
def publicParams : List Param := [.keyType, .modulus, .publicExponent]

/-- The parameters of the first two primes, which stand together or not at all. -/
def crtParams : List Param :=
  [.firstPrime, .secondPrime, .firstCrtExponent, .secondCrtExponent, .firstCrtCoefficient]

/-- The parameters that only private keys have. -/
def privateParams : List Param := .privateExponent :: crtParams ++ [.otherPrimesInfo]

/-- The parameters of a whole key. -/
def rsaParams : List Param := publicParams ++ privateParams

/-- The parameters of an element of the list of other primes. -/
def elementParams : List Param := [.primeFactor, .factorCrtExponent, .factorCrtCoefficient]

/-- Every parameter. -/
def all : List Param := rsaParams ++ elementParams

/-- Is this the member name of private key material? -/
def isPrivateId (name : String) : Bool :=
  rsaParams.any fun param => param.isSecret && param.id == name

end Param

/-- The value of the key type parameter in RSA keys. -/
def rsaKeyType : String := "RSA"

end WebKey
