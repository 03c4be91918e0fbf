/-
Reading JSON text.

The grammar is the strict one: no blanks but space, tab, carriage return and line feed,
no control characters inside strings, no comma at the end of a list, no zero in front of
a number, and a value nested at most `maxDepth` levels deep. An escape for half of a
surrogate pair is refused, as is a number too large for the floating-point format. A
name that occurs again within an object keeps its first position and takes its last value.

* **`Json.parse?`** — the value of a text;
* **`Json.Scan`** — the scanners for the leaves: strings and numbers. Each returns what
  it has read and the characters that follow.
-/
import WebKey.Decimal.Scaled
import WebKey.Json.Members

namespace WebKey.Json

namespace Scan

/-- May this character stand between the parts of a text? -/
def isBlank (c : Char) : Bool := c = ' ' || c = '\t' || c = '\n' || c = '\r'

/-- Drops the blanks in front. -/
def skipBlanks (cs : List Char) : List Char := cs.dropWhile isBlank

/-! ### Strings -/

/-- The value of a hexadecimal digit, in either case. -/
def hexValue? (c : Char) : Option Nat :=
  if '0' ≤ c ∧ c ≤ '9' then some (c.toNat - 48)
  else if 'a' ≤ c ∧ c ≤ 'f' then some (c.toNat - 97 + 10)
  else if 'A' ≤ c ∧ c ≤ 'F' then some (c.toNat - 65 + 10)
  else none

/-- The 16-bit unit that four hexadecimal digits stand for. -/
def hexUnit? (a b c d : Char) : Option Nat := do
  return (← hexValue? a) * 4096 + (← hexValue? b) * 256 + (← hexValue? c) * 16 + (← hexValue? d)

/-- The character that a letter after a backslash stands for. -/
def unescape? : Char → Option Char
  | '"' => some '"'
  | '\\' => some '\\'
  | '/' => some '/'
  | 'b' => some '\x08'
  | 'f' => some '\x0c'
  | 'n' => some '\n'
  | 'r' => some '\r'
  | 't' => some '\t'
  | _ => none

/-- Does this unit open a surrogate pair? -/
def opensPair (unit : Nat) : Bool := 0xD800 ≤ unit && unit < 0xDC00

/-- Does this unit close a surrogate pair? -/
def closesPair (unit : Nat) : Bool := 0xDC00 ≤ unit && unit < 0xE000

/-- Puts a character in front of a text that was read. -/
def prepend (c : Char) (result : Option (List Char × List Char)) :
    Option (List Char × List Char) :=
  result.map fun (text, rest) => (c :: text, rest)

/-- Reads a string after its opening quote, up to and without its closing quote. -/
def string? : List Char → Option (List Char × List Char)
  | [] => none
  | '"' :: rest => some ([], rest)
  | '\\' :: 'u' :: a :: b :: c :: d :: rest =>
    match hexUnit? a b c d with
    | none => none
    | some unit =>
      if opensPair unit then
        match rest with
        | '\\' :: 'u' :: e :: f :: g :: h :: rest =>
          match hexUnit? e f g h with
          | none => none
          | some next =>
            if closesPair next then
              prepend (Char.ofNat (0x10000 + (unit - 0xD800) * 1024 + (next - 0xDC00)))
                (string? rest)
            else none
        | _ => none
      else if closesPair unit then none
      else prepend (Char.ofNat unit) (string? rest)
  | '\\' :: c :: rest =>
    match unescape? c with
    | none => none
    | some c => prepend c (string? rest)
  | c :: rest => if c.toNat < 0x20 || c = '\\' then none else prepend c (string? rest)

/-! ### Numbers -/

/-- Reads as many decimal digits as there are. -/
def digits (cs : List Char) : List Nat × List Char :=
  ((cs.takeWhile Char.isDigit).map fun c => c.toNat - 48, cs.dropWhile Char.isDigit)

/-- The digits of a whole number: at least one, and a zero in front only alone. -/
def isWhole : List Nat → Bool
  | [] => false
  | [_] => true
  | first :: _ => first ≠ 0

/-- Reads the point and the digits after it, where there is a point. -/
def fraction? : List Char → Option (Option (List Nat) × List Char)
  | '.' :: rest =>
    let (fraction, rest) := digits rest
    if fraction.isEmpty then none else some (some fraction, rest)
  | rest => some (none, rest)

/-- Reads the digits of an exponent after its sign. -/
def exponentDigits? (sign : Int) (cs : List Char) : Option (Option Int × List Char) :=
  let (exponent, rest) := digits cs
  if exponent.isEmpty then none
  else some (some (sign * Decimal.natOfDigits exponent), rest)

/-- Reads an exponent with its mark, where there is one. -/
def exponent? : List Char → Option (Option Int × List Char)
  | c :: rest =>
    if c = 'e' || c = 'E' then
      match rest with
      | '+' :: rest => exponentDigits? 1 rest
      | '-' :: rest => exponentDigits? (-1) rest
      | rest => exponentDigits? 1 rest
    else some (none, c :: rest)
  | [] => some (none, [])

/-- The integers that are kept as integers: those of 64 bits, with or without sign. -/
def integer? (negative : Bool) (size : Nat) : Option Int :=
  if negative then
    if 0 < size ∧ size ≤ Nat.pow 2 63 then some (-size) else none
  else
    if size < Nat.pow 2 64 then some size else none

/-- The number with these parts. -/
def assemble? (negative : Bool) (whole : List Nat) (fraction : Option (List Nat))
    (exponent : Option Int) : Option Number :=
  let real := (Decimal.read? whole (fraction.getD []) (exponent.getD 0)).map fun size =>
    Number.real (if negative then -size else size)
  match fraction, exponent with
  | none, none =>
    match integer? negative (Decimal.natOfDigits whole) with
    | some value => some (.int value)
    | none => real
  | _, _ => real

/-- Reads a number. -/
def number? (cs : List Char) : Option (Number × List Char) := do
  let (negative, cs) := match cs with
    | '-' :: rest => (true, rest)
    | rest => (false, rest)
  let (whole, cs) := digits cs
  if isWhole whole then
    let (fraction, cs) ← fraction? cs
    let (exponent, cs) ← exponent? cs
    let value ← assemble? negative whole fraction exponent
    some (value, cs)
  else none

end Scan

/-! ### Values -/

/-- The deepest nesting of arrays and objects that is read. -/
def maxDepth : Nat := 127

mutual

/-- Reads a value, with `depth` levels of nesting still allowed. Every second step reads a
character, so the steps suffice for a text of half their number. -/
def value? (steps depth : Nat) (cs : List Char) : Option (Json × List Char) :=
  match steps with
  | 0 => none
  | steps + 1 =>
    match Scan.skipBlanks cs with
    | 'n' :: 'u' :: 'l' :: 'l' :: rest => some (.null, rest)
    | 't' :: 'r' :: 'u' :: 'e' :: rest => some (.bool true, rest)
    | 'f' :: 'a' :: 'l' :: 's' :: 'e' :: rest => some (.bool false, rest)
    | '"' :: rest => (Scan.string? rest).map fun (text, rest) => (.string (String.ofList text), rest)
    | '[' :: rest =>
      match depth, Scan.skipBlanks rest with
      | 0, _ => none
      | _ + 1, ']' :: rest => some (.array [], rest)
      | depth + 1, rest => (items? steps depth rest).map fun (items, rest) => (.array items, rest)
    | '\x7b' :: rest =>
      match depth, Scan.skipBlanks rest with
      | 0, _ => none
      | _ + 1, '\x7d' :: rest => some (.object [], rest)
      | depth + 1, rest =>
        (members? steps depth [] rest).map fun (members, rest) => (.object members, rest)
    | rest => (Scan.number? rest).map fun (x, rest) => (.number x, rest)

/-- Reads the items of an array that has at least one, and its closing bracket. -/
def items? (steps depth : Nat) (cs : List Char) : Option (List Json × List Char) :=
  match steps with
  | 0 => none
  | steps + 1 =>
    match value? steps depth cs with
    | none => none
    | some (item, rest) =>
      match Scan.skipBlanks rest with
      | ',' :: rest => (items? steps depth rest).map fun (items, rest) => (item :: items, rest)
      | ']' :: rest => some ([item], rest)
      | _ => none

/-- Reads the members of an object that has at least one more, and its closing brace. -/
def members? (steps depth : Nat) (before : Members) (cs : List Char) :
    Option (Members × List Char) :=
  match steps with
  | 0 => none
  | steps + 1 =>
    match Scan.skipBlanks cs with
    | '"' :: rest =>
      match Scan.string? rest with
      | none => none
      | some (name, rest) =>
        match Scan.skipBlanks rest with
        | ':' :: rest =>
          match value? steps depth rest with
          | none => none
          | some (value, rest) =>
            let members := before.insert (String.ofList name) value
            match Scan.skipBlanks rest with
            | ',' :: rest => members? steps depth members rest
            | '\x7d' :: rest => some (members, rest)
            | _ => none
        | _ => none
    | _ => none

end

/-- The value that a text stands for. -/
def parse? (text : String) : Option Json :=
  let cs := text.toList
  match value? (2 * cs.length + 2) maxDepth cs with
  | some (value, rest) => if (Scan.skipBlanks rest).isEmpty then some value else none
  | none => none

end WebKey.Json
