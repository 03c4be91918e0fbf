/-
Field sets that hold the three numbers of a plain key.

Without any of the values of the first two primes a key is plain, whatever else the field set has.
Three functions look at its numbers: the public half is asked for a good modulus and a good public
exponent, the key itself for a good modulus again, and then for a private exponent that is neither
zero nor above the modulus. Zero is not even a positive integer, so the upper bound alone decides,
and a private exponent of one goes through, with which the private operation does nothing.

* **`PrivateJwk.HoldsPlain`** — the field sets that hold the numbers of a plain key;
* **`PrivateJwk.HoldsPlain.ofFields_eq_ok_iff`** — the keys that are read from them;
* **`PrivateJwk.plain_numbers_are_bounded`** — the bounds of the three numbers;
* **`PrivateJwk.privateExponent_one_is_read`** — a key whose private exponent is one.
-/
import WebKey.Proofs.Jwk.Grammar

namespace WebKey

namespace PrivateJwk

/-- There are the three numbers of a key, and none of the values of its first two primes. -/
structure HoldsPlain (fields : FieldSet) (n e d : ℕ) : Prop where
  keyType : fields.HoldsKeyType
  modulus : fields.members.HoldsInteger .modulus n
  publicExponent : fields.members.HoldsInteger .publicExponent e
  privateExponent : fields.members.HoldsInteger .privateExponent d
  withoutCrt : ∀ param ∈ Param.crtParams, fields.members.Absent param.id

section HoldsPlain

variable {maxSize n e d : ℕ} {fields : FieldSet}

/-- Reading makes the plain key of these numbers, if the public ones are good and the private
exponent is below the modulus. -/
theorem HoldsPlain.ofFields_eq_ok_iff (h : HoldsPlain fields n e d) {key : PrivateKey}
    {publicKey : PublicKey} :
    (∃ jwk, (ofFields fields (KeyFactory.checking maxSize)).result = .ok jwk ∧ jwk.key = key ∧
        jwk.publicHalf.key = publicKey) ↔
      (PublicKey.GoodModulus maxSize n ∧ PublicKey.GoodExponent e ∧ d < n) ∧
        key = ⟨.plain n d⟩ ∧ publicKey = ⟨n, e⟩ := by
  rw [PrivateJwk.ofFields_eq_ok_iff]
  constructor
  · rintro ⟨n', e', d', spec, hd, -, hn, he, hpublic, hspec, hkey⟩
    obtain rfl := hn.unique h.modulus
    obtain rfl := he.unique h.publicExponent
    obtain rfl := hd.unique h.privateExponent
    obtain ⟨⟨hmodulus, hexponent⟩, rfl⟩ := PublicKey.ofNumbers_eq_ok_iff.mp hpublic
    obtain rfl := hspec.unique (.plain h.withoutCrt)
    obtain ⟨⟨-, -, hlt⟩, hspec⟩ := PrivateKey.ofSpec_eq_ok_iff.mp hkey
    exact ⟨⟨hmodulus, hexponent, hlt⟩, congrArg PrivateKey.mk hspec, rfl⟩
  · rintro ⟨⟨hmodulus, hexponent, hlt⟩, rfl, rfl⟩
    exact ⟨n, e, d, .plain n d, h.privateExponent, h.keyType, h.modulus, h.publicExponent,
      PublicKey.ofNumbers_eq_ok_iff.mpr ⟨⟨hmodulus, hexponent⟩, rfl⟩, .plain h.withoutCrt,
      PrivateKey.ofSpec_eq_ok_iff.mpr ⟨⟨hmodulus, h.privateExponent.1, hlt⟩, rfl⟩⟩

theorem HoldsPlain.exists_ofFields_iff (h : HoldsPlain fields n e d) :
    (∃ jwk, (ofFields fields (KeyFactory.checking maxSize)).result = .ok jwk) ↔
      PublicKey.GoodModulus maxSize n ∧ PublicKey.GoodExponent e ∧ d < n := by
  constructor
  · rintro ⟨jwk, hjwk⟩
    exact (h.ofFields_eq_ok_iff.mp ⟨jwk, hjwk, rfl, rfl⟩).1
  · intro hgood
    obtain ⟨jwk, hjwk, -⟩ := h.ofFields_eq_ok_iff.mpr ⟨hgood, rfl, rfl⟩
    exact ⟨jwk, hjwk⟩

/-- **The bounds of the numbers of a plain key.** With the checking factory the modulus has to be
odd, at least three and of at most `maxSize` bits, the public exponent within its bounds, and the
private exponent positive and below the modulus. The key that is read is the plain one of these
numbers. The private exponents that are read without being above one are those that are one, beside
any good public numbers. -/
theorem plain_numbers_are_bounded (h : HoldsPlain fields n e d) :
    ((∃ jwk, (ofFields fields (KeyFactory.checking maxSize)).result = .ok jwk) ↔
      Odd n ∧ 3 ≤ n ∧ bitLength n ≤ maxSize ∧ 2 ≤ e ∧ e ≤ 2 ^ 33 - 1 ∧ 0 < d ∧ d < n) ∧
    (∀ jwk, (ofFields fields (KeyFactory.checking maxSize)).result = .ok jwk →
      jwk.key.spec = .plain n d ∧ jwk.publicHalf.key = ⟨n, e⟩) ∧
    ((∃ jwk, (ofFields fields (KeyFactory.checking maxSize)).result = .ok jwk) ∧ ¬1 < d ↔
      d = 1 ∧ Odd n ∧ 3 ≤ n ∧ bitLength n ≤ maxSize ∧ 2 ≤ e ∧ e ≤ 2 ^ 33 - 1) := by
  have hpos := h.privateExponent.1
  rw [h.exists_ofFields_iff, PublicKey.goodModulus_iff, PublicKey.goodExponent_iff,
    bitLength_le_iff]
  refine ⟨?_, fun jwk hjwk => ?_, ?_⟩
  · constructor
    · rintro ⟨⟨hsize, hthree, hodd⟩, ⟨htwo, hmax⟩, hlt⟩
      exact ⟨hodd, hthree, hsize, htwo, hmax, hpos, hlt⟩
    · rintro ⟨hodd, hthree, hsize, htwo, hmax, -, hlt⟩
      exact ⟨⟨hsize, hthree, hodd⟩, ⟨htwo, hmax⟩, hlt⟩
  · obtain ⟨-, hkey, hpublic⟩ := h.ofFields_eq_ok_iff.mp ⟨jwk, hjwk, rfl, rfl⟩
    exact ⟨congrArg PrivateKey.spec hkey, hpublic⟩
  · constructor
    · rintro ⟨⟨⟨hsize, hthree, hodd⟩, ⟨htwo, hmax⟩, -⟩, hle⟩
      exact ⟨by omega, hodd, hthree, hsize, htwo, hmax⟩
    · rintro ⟨rfl, hodd, hthree, hsize, htwo, hmax⟩
      exact ⟨⟨⟨hsize, hthree, hodd⟩, ⟨htwo, hmax⟩, by omega⟩, lt_irrefl 1⟩

/-- A plain key as others may write it: the key type and the first prime are `null`, and there is a
list of other primes that is none. -/
def strayPlainFields : FieldSet where
  members :=
    [("oth", .string "none"), ("kty", .null), ("n", .string "DKE"), ("e", .string "EQ"),
      ("p", .null), ("d", .string "AZ0")]
  nodup := by decide

/-- It is read. -/
theorem strayPlainFields_are_read :
    HoldsPlain strayPlainFields 3233 17 413 ∧
    ∃ jwk, (ofFields strayPlainFields (KeyFactory.checking 12)).result = .ok jwk ∧
      jwk.key.spec = .plain 3233 413 := by
  have hplain : HoldsPlain strayPlainFields 3233 17 413 :=
    { keyType := .inl (.inr rfl)
      modulus := .of_octets [12, 161] rfl (by decide)
      publicExponent := .of_octets [17] rfl (by decide)
      privateExponent := .of_octets [1, 157] rfl (by decide)
      withoutCrt := hasCrt_eq_false_iff.mp rfl }
  obtain ⟨hread, hkey, -⟩ := @plain_numbers_are_bounded 12 3233 17 413 strayPlainFields hplain
  obtain ⟨jwk, hjwk⟩ := hread.mpr (by decide)
  exact ⟨hplain, jwk, hjwk, (hkey jwk hjwk).1⟩

/-- A plain key whose private exponent is one. -/
def unitFields : FieldSet where
  members :=
    [("kty", .string "RSA"), ("n", .string "DKE"), ("e", .string "EQ"), ("d", .string "AQ")]
  nodup := by decide

/-- It is read, although one is not above one. -/
theorem privateExponent_one_is_read :
    HoldsPlain unitFields 3233 17 1 ∧
    (∃ jwk, (ofFields unitFields (KeyFactory.checking 12)).result = .ok jwk ∧
      jwk.key.spec = .plain 3233 1) ∧
    ¬((∃ jwk, (ofFields unitFields (KeyFactory.checking 12)).result = .ok jwk) ↔
      Odd 3233 ∧ 3 ≤ 3233 ∧ bitLength 3233 ≤ 12 ∧ 2 ≤ 17 ∧ 17 ≤ 2 ^ 33 - 1 ∧
        1 < 1 ∧ 1 < 3233) := by
  have hplain : HoldsPlain unitFields 3233 17 1 :=
    { keyType := .inr rfl
      modulus := .of_octets [12, 161] rfl (by decide)
      publicExponent := .of_octets [17] rfl (by decide)
      privateExponent := .of_octets [1] rfl (by decide)
      withoutCrt := hasCrt_eq_false_iff.mp rfl }
  have hgood : PublicKey.GoodModulus 12 3233 ∧ PublicKey.GoodExponent 17 ∧ 1 < 3233 := by decide
  obtain ⟨jwk, hjwk, hkey, -⟩ := hplain.ofFields_eq_ok_iff.mpr ⟨hgood, rfl, rfl⟩
  refine ⟨hplain, ⟨jwk, hjwk, congrArg PrivateKey.spec hkey⟩, fun hbounds => ?_⟩
  obtain ⟨-, -, -, -, -, hone, -⟩ := hbounds.mp ⟨jwk, hjwk⟩
  exact lt_irrefl 1 hone

end HoldsPlain

end PrivateJwk

end WebKey
