/-
Events, and computations that record them.

Encoding and decoding private keys record what they did. An event names the members of
a field set, never their values.

* **`Event`** — what is recorded, with its level and its text;
* **`Logged`** — a computation that may fail, with the events it recorded. Events that
  were recorded before a failure stay.
-/
import WebKey.RsaError

namespace WebKey

/-- What is recorded. -/
inductive Event where
  /-- a field set was tested for being a private key -/
  | gate (names : List String) (supported : Bool)
  /-- a private key was encoded -/
  | encoded (shape : KeyShape) (names : List String)
  /-- a list of other primes was left out, as there are no values of the first two -/
  | ignoredOtherPrimes
  /-- a private key was decoded -/
  | decoded (shape : KeyShape) (names : List String)
deriving DecidableEq

namespace Event

/-- How much detail an event is. -/
inductive Level where
  | debug
  | trace
deriving DecidableEq

/-- The value of an attribute of an event. -/
inductive Value where
  | text (text : String)
  | flag (flag : Bool)
deriving DecidableEq

def level : Event → Level
  | .gate .. => .trace
  | _ => .debug

/-- The text of an event. -/
def message : Event → String
  | .gate .. => "private RSA JWK gate"
  | .encoded .. => "encoded RSA private JWK"
  | .ignoredOtherPrimes => "ignoring RSA JWK 'oth' without first and second prime CRT values"
  | .decoded .. => "decoded RSA private JWK"

/-- The attributes of an event, by name. -/
def attributes : Event → List (String × Value)
  | .gate names supported =>
    [("fields", .text (Members.describe names)), ("supported", .flag supported)]
  | .encoded shape names | .decoded shape names =>
    [("shape", .text shape.name), ("fields", .text (Members.describe names))]
  | .ignoredOtherPrimes => []

end Event

/-! ### Computations that record events -/

/-- A result, or a failure, with the events recorded on the way. -/
structure Logged (α : Type) where
  events : List Event
  result : Except RsaError α

namespace Logged

variable {α β : Type}

/-- A result without events. -/
def ofExcept (result : Except RsaError α) : Logged α := ⟨[], result⟩

/-- Records one event. -/
def record (event : Event) : Logged Unit := ⟨[event], .ok ()⟩

/-- Goes on with the result, unless there is none. -/
def andThen (first : Logged α) (next : α → Logged β) : Logged β :=
  match first.result with
  | .ok value => ⟨first.events ++ (next value).events, (next value).result⟩
  | .error error => ⟨first.events, .error error⟩

instance : Monad Logged where
  pure value := ofExcept (.ok value)
  bind := andThen

instance : MonadLift (Except RsaError) Logged := ⟨ofExcept⟩

end Logged

end WebKey
