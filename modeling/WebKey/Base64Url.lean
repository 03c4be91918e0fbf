/-
Octets as text in the URL-safe Base64 alphabet, without padding.

Three octets are written as four characters of six bits each. A last group of one or
two octets is written as two or three characters, whose unused low bits are zero.

* **`Base64Url.encode`** — the text of a list of octets;
* **`Base64Url.decode?`** — the octets of a text. It is strict: a character outside the
  alphabet, a length of one modulo four and unused bits that are not zero are refused,
  so no octets have two texts.
-/

namespace WebKey.Base64Url

/-! ### The alphabet -/

/-- The character that stands for six bits. -/
def letter (sextet : Nat) : Char :=
  if sextet < 26 then Char.ofNat (65 + sextet)
  else if sextet < 52 then Char.ofNat (97 + (sextet - 26))
  else if sextet < 62 then Char.ofNat (48 + (sextet - 52))
  else if sextet = 62 then '-'
  else '_'

/-- The six bits that a character of the alphabet stands for. -/
def sextet? (c : Char) : Option Nat :=
  if 'A' ≤ c ∧ c ≤ 'Z' then some (c.toNat - 65)
  else if 'a' ≤ c ∧ c ≤ 'z' then some (c.toNat - 97 + 26)
  else if '0' ≤ c ∧ c ≤ '9' then some (c.toNat - 48 + 52)
  else if c = '-' then some 62
  else if c = '_' then some 63
  else none

/-! ### Groups -/

/-- Cuts octets into sextets, three octets to four sextets. -/
def sextets : List UInt8 → List Nat
  | x :: y :: z :: rest =>
    let bits := x.toNat * 65536 + y.toNat * 256 + z.toNat
    bits / 262144 :: bits / 4096 % 64 :: bits / 64 % 64 :: bits % 64 :: sextets rest
  | [x, y] =>
    let bits := (x.toNat * 256 + y.toNat) * 4
    [bits / 4096, bits / 64 % 64, bits % 64]
  | [x] =>
    let bits := x.toNat * 16
    [bits / 64, bits % 64]
  | [] => []

/-- Joins sextets to octets, unless bits are left over. -/
def octets? : List Nat → Option (List UInt8)
  | a :: b :: c :: d :: rest =>
    let bits := a * 262144 + b * 4096 + c * 64 + d
    (octets? rest).map fun octets =>
      UInt8.ofNat (bits / 65536) :: UInt8.ofNat (bits / 256 % 256) :: UInt8.ofNat (bits % 256) ::
        octets
  | [a, b, c] =>
    let bits := a * 4096 + b * 64 + c
    if bits % 4 = 0 then some [UInt8.ofNat (bits / 1024), UInt8.ofNat (bits / 4 % 256)] else none
  | [a, b] =>
    let bits := a * 64 + b
    if bits % 16 = 0 then some [UInt8.ofNat (bits / 16)] else none
  | [_] => none
  | [] => some []

/-! ### Texts -/

/-- The text of a list of octets. -/
def encode (octets : List UInt8) : String :=
  String.ofList ((sextets octets).map letter)

/-- The octets that a text stands for. -/
def decode? (text : String) : Option (List UInt8) :=
  (text.toList.mapM sextet?).bind octets?

end WebKey.Base64Url
