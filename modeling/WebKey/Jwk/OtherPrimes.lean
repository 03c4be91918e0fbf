/-
The list of other primes in a JSON Web Key.

An element is an object with the prime, its exponent and its coefficient, in that order.

* **`OtherPrime.toMembers`** and **`OtherPrime.ofJson`** — one element;
* **`OtherPrime.listToJson`** and **`OtherPrime.listOfJson`** — the whole list, which is
  only read if it has elements.
-/
import WebKey.Integer

namespace WebKey.OtherPrime

/-- The members of an element. -/
def toMembers (info : OtherPrime) : Members :=
  [(Param.primeFactor.id, .string (Integer.encode info.prime)),
    (Param.factorCrtExponent.id, .string (Integer.encode info.exponent)),
    (Param.factorCrtCoefficient.id, .string (Integer.encode info.coefficient))]

/-- The error for a fault of the list or of one of its elements. -/
def listError (fault : MemberFault) : RsaError := .malformed Param.otherPrimesInfo.id fault

/-- Reads an element. -/
def ofJson : Json → Except RsaError OtherPrime
  | .null => .error (listError .nullElement)
  | .object [] => .error (listError .emptyElement)
  | .object members => do
    let prime ← Members.requiredInteger members .primeFactor
    let exponent ← Members.requiredInteger members .factorCrtExponent
    let coefficient ← Members.requiredInteger members .factorCrtCoefficient
    return ⟨prime, exponent, coefficient⟩
  | value => .error (listError (.notObject value.kind))

/-- The list as a JSON array. -/
def listToJson (others : List OtherPrime) : Json :=
  .array (others.map fun info => .object info.toMembers)

/-- Reads the list. -/
def listOfJson : Json → Except RsaError (List OtherPrime)
  | .array [] => .error (listError .noElements)
  | .array items => items.mapM ofJson
  | value => .error (listError (.notArray value.kind))

end WebKey.OtherPrime
