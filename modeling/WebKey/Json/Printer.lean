/-
Compact JSON text.

* **`Json.quoted`** — a string with the escapes that JSON asks for: quote, backslash and
  the characters below U+0020; everything else is written as it is;
* **`Number.text`** — integers in decimal; other numbers with the fewest digits that
  identify them, always with a fraction or an exponent;
* **`Json.compact`** — a value without any blanks, members in their order.
-/
import WebKey.Json.Basic
import WebKey.Decimal.Shortest

namespace WebKey

/-! ### Numbers -/

namespace Number

/-- Numbers whose leading digit stands at these powers of ten are written positionally,
those beyond with an exponent. -/
def positional (power : Int) : Bool := -5 ≤ power ∧ power < 16

/-- The digits of a decimal without the zeros at their end. -/
def significantDigits (digits : Nat) : List Char :=
  ((Nat.toDigits 10 digits).reverse.dropWhile (· = '0')).reverse

/-- Lays digits out with the point before position `point`, counted from the first digit. -/
def layoutPositional (digits : List Char) (point : Int) : List Char :=
  if point ≤ 0 then '0' :: '.' :: (List.replicate point.natAbs '0' ++ digits)
  else
    let whole := digits.take point.toNat
    let fraction := digits.drop point.toNat
    whole ++ List.replicate (point.toNat - digits.length) '0' ++
      '.' :: (if fraction.isEmpty then ['0'] else fraction)

/-- Lays digits out with one digit before the point and a signed exponent. -/
def layoutScientific (digits : List Char) (power : Int) : List Char :=
  let fraction := digits.drop 1
  digits.take 1 ++ (if fraction.isEmpty then [] else '.' :: fraction) ++
    'e' :: (if 0 ≤ power then '+' else '-') :: Nat.toDigits 10 power.natAbs

/-- The digits of a positive decimal in the layout for its size. -/
def layout (x : Decimal.Scientific) : List Char :=
  let point := x.exponent + (Nat.toDigits 10 x.digits).length
  let digits := significantDigits x.digits
  if positional (point - 1) then layoutPositional digits point
  else layoutScientific digits (point - 1)

/-- The text of a floating-point number. -/
def realText (x : Float) : String :=
  let bits := x.toBits
  let sign := if bits >>> 63 = 1 then ['-'] else []
  let size := bits &&& 0x7FFFFFFFFFFFFFFF
  String.ofList
    (sign ++ if size = 0 then ['0', '.', '0'] else layout (Decimal.Rounding.ofBits size).shortest)

/-- The text of a number. -/
def text : Number → String
  | .int value => toString value
  | .real value => realText value

end Number

/-! ### Strings and values -/

namespace Json

/-- A hexadecimal digit, in lower case. -/
def hexDigit (n : Nat) : Char :=
  if n < 10 then Char.ofNat (48 + n) else Char.ofNat (97 + (n - 10))

/-- A character inside a quoted string. -/
def escape (c : Char) : List Char :=
  if c = '"' then ['\\', '"']
  else if c = '\\' then ['\\', '\\']
  else if c = '\x08' then ['\\', 'b']
  else if c = '\x0c' then ['\\', 'f']
  else if c = '\n' then ['\\', 'n']
  else if c = '\r' then ['\\', 'r']
  else if c = '\t' then ['\\', 't']
  else if c.toNat < 0x20 then
    ['\\', 'u', '0', '0', hexDigit (c.toNat / 16), hexDigit (c.toNat % 16)]
  else [c]

/-- A string in quotes. -/
def quoted (s : String) : String :=
  String.ofList ('"' :: s.toList.flatMap escape ++ ['"'])

mutual

/-- The text of a value, without blanks. -/
def compact : Json → String
  | .null => "null"
  | .bool true => "true"
  | .bool false => "false"
  | .number x => x.text
  | .string s => quoted s
  | .array items => "[" ++ String.intercalate "," (compactItems items) ++ "]"
  | .object members => "\x7b" ++ String.intercalate "," (compactMembers members) ++ "\x7d"

/-- The texts of the items of an array. -/
def compactItems : List Json → List String
  | [] => []
  | item :: rest => compact item :: compactItems rest

/-- The texts of the members of an object. -/
def compactMembers : List (String × Json) → List String
  | [] => []
  | (name, value) :: rest => (quoted name ++ ":" ++ compact value) :: compactMembers rest

end

end Json

end WebKey
