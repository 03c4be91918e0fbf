/-
JSON values.

An object keeps its members in the order in which they were written. Numbers without
fraction and exponent that fit 64 bits are kept as integers, all others as binary
floating-point numbers; `1` and `1.0` are different values.

* **`Json.kind`** — the kind of a value, with the name used for it in messages;
* **`Json.same`** — equality up to the order of members, at every level.
-/

namespace WebKey

/-- A JSON number. -/
inductive Number where
  | int (value : Int)
  | real (value : Float)
deriving DecidableEq

/-- Numbers are the same when their kind and their value are; the two zeros have one value. -/
def Number.same : Number → Number → Bool
  | .int x, .int y => x == y
  | .real x, .real y => x == y
  | _, _ => false

/-- A JSON value. -/
inductive Json where
  | null
  | bool (value : Bool)
  | number (value : Number)
  | string (value : String)
  | array (items : List Json)
  | object (members : List (String × Json))

namespace Json

/-! ### Kinds -/

/-- The kinds of JSON values. -/
inductive Kind where
  | null
  | boolean
  | number
  | string
  | array
  | object
deriving DecidableEq

/-- The name of a kind in messages. -/
def Kind.name : Kind → String
  | .null => "null"
  | .boolean => "boolean"
  | .number => "number"
  | .string => "string"
  | .array => "array"
  | .object => "object"

/-- The kind of a value. -/
def kind : Json → Kind
  | .null => .null
  | .bool _ => .boolean
  | .number _ => .number
  | .string _ => .string
  | .array _ => .array
  | .object _ => .object

theorem kind_eq_null_iff {value : Json} : value.kind = .null ↔ value = .null := by
  cases value <;> simp [kind]

theorem kind_eq_string_iff {value : Json} : value.kind = .string ↔ ∃ text, value = .string text := by
  cases value <;> simp [kind]

theorem kind_eq_array_iff {value : Json} : value.kind = .array ↔ ∃ items, value = .array items := by
  cases value <;> simp [kind]

theorem kind_eq_object_iff {value : Json} :
    value.kind = .object ↔ ∃ members, value = .object members := by
  cases value <;> simp [kind]

/-- Is this the value `null`? -/
def isNull : Json → Bool
  | .null => true
  | _ => false

/-! ### Sameness -/

mutual

/-- Equality of values, where the order of members does not count. -/
def same : Json → Json → Bool
  | .null, .null => true
  | .bool a, .bool b => a == b
  | .number a, .number b => a.same b
  | .string a, .string b => a == b
  | .array a, .array b => sameItems a b
  | .object a, .object b => a.length == b.length && sameMembers a b
  | _, _ => false

/-- Do two lists hold the same values in the same order? -/
def sameItems : List Json → List Json → Bool
  | [], [] => true
  | a :: as, b :: bs => same a b && sameItems as bs
  | _, _ => false

/-- Does each of these members have the same value among those? -/
def sameMembers : List (String × Json) → List (String × Json) → Bool
  | [], _ => true
  | (name, a) :: rest, those =>
    (match those.lookup name with
      | some b => same a b
      | none => false) && sameMembers rest those

end

end Json

end WebKey
