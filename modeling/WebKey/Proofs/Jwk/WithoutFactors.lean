/-
Private keys without their prime factors.

The values of the prime factors make operations faster, and a key can be used without them. If
they are left out of the fields, the key is read as a plain one. A plain key is asked for a
private exponent below its modulus, while a key with factors is asked for one that fits each
factor, so the plain key is refused if the private exponent has not been reduced.

* **`PrivateJwk.withoutFactors`** — the fields without the values of the prime factors;
* **`PrivateJwk.result_ofFields_withoutFactors`** — how they are read, whatever the key factory;
* **`PrivateJwk.result_ofFields_withoutFactors_checking`**,
  **`PrivateJwk.ofFields_withoutFactors_iff`** — with the checking factory they are read if the
  private exponent is below the modulus;
* **`PrivateJwk.unreducedFields_need_factors`** — a key that is read with its factors only.
-/
import WebKey.Proofs.Jwk.Grammar
import WebKey.Proofs.Jwk.RoundTrip
import WebKey.Proofs.Merge

namespace WebKey

/-- The parameters that hold the values of the prime factors. -/
def Param.factorParams : List Param := crtParams ++ [.otherPrimesInfo]

theorem Param.factorParams_subset : factorParams ⊆ privateParams :=
  fun _ => List.mem_cons_of_mem _

/-- A plain key with a good modulus is refused for its private exponent only. -/
theorem PrivateKey.ofSpec_plain {maxSize n d : ℕ} (hn : PublicKey.GoodModulus maxSize n)
    (hd : d ≠ 0) :
    ofSpec maxSize (.plain n d) =
      if n ≤ d then .error .invalidExponent else .ok ⟨.plain n d⟩ := by
  rw [ofSpec, KeySpec.check, PublicKey.checkModulus_eq_ok_iff.mpr hn]
  by_cases hle : n ≤ d
  · rw [if_pos hle, if_pos (.inr hle)]
    rfl
  · rw [if_neg hle, if_neg (not_or.mpr ⟨hd, hle⟩)]
    rfl

namespace PrivateJwk

/-! ### Leaving the factors out -/

/-- The fields without the values of the prime factors. -/
def withoutFactors (fields : FieldSet) : FieldSet := fields.without Param.factorParams

section WithoutFactors

variable {fields : FieldSet} {factory : KeyFactory}

theorem hasCrt_withoutFactors (fields : FieldSet) : hasCrt (withoutFactors fields) = false := by
  refine hasCrt_eq_false_iff.mpr fun param hparam => .inl ?_
  have hany : Param.factorParams.any (·.id == param.id) = true :=
    List.any_eq_true.mpr ⟨param, List.mem_append_left _ hparam, by simp⟩
  exact (fields.lookup_without_eq Param.factorParams param.id).trans (if_pos hany)

theorem requiredInteger_withoutFactors (fields : FieldSet) :
    (withoutFactors fields).requiredInteger .privateExponent =
      fields.requiredInteger .privateExponent :=
  FieldSet.requiredInteger_congr (FieldSet.field?_congr (fields.lookup_without (by decide)))

/-- Without the factors the private exponent and the public half are read as before, and the
key factory is asked for the plain key. -/
theorem result_ofFields_withoutFactors {d : ℕ} {half : PublicJwk}
    (hd : fields.requiredInteger .privateExponent = .ok d)
    (hhalf : PublicJwk.ofFields (fields.without Param.privateParams) factory = .ok half) :
    (ofFields (withoutFactors fields) factory).result =
      ((factory.privateKey (.plain half.key.modulus d)).mapError
        (refusal (withoutFactors fields) .plain)).map
          fun key => ⟨(withoutFactors fields).extend half.fields, key, half⟩ := by
  have hpublic : (withoutFactors fields).without Param.privateParams =
      fields.without Param.privateParams :=
    FieldSet.without_without Param.factorParams_subset fields
  have hspec : readSpec (withoutFactors fields) half.key d = .ok (.plain half.key.modulus d) := by
    rw [readSpec, hasCrt_withoutFactors]
    rfl
  rw [result_ofFields, requiredInteger_withoutFactors, hd, hpublic, hhalf]
  show (readSpec (withoutFactors fields) half.key d >>= _) = _
  rw [hspec]
  show (Except.mapError _ (factory.privateKey (.plain half.key.modulus d)) >>= _) = _
  cases factory.privateKey (.plain half.key.modulus d) with
  | error cause => rfl
  | ok key => rfl

end WithoutFactors

/-! ### Keys that need their factors -/

/-- The checking factory has accepted the modulus already and the private exponent is not zero, so
one test is left. -/
theorem result_ofFields_withoutFactors_checking {maxSize : ℕ} {fields : FieldSet}
    {jwk : PrivateJwk} (h : (ofFields fields (KeyFactory.checking maxSize)).result = .ok jwk) :
    (ofFields (withoutFactors fields) (KeyFactory.checking maxSize)).result =
      if jwk.key.spec.modulus ≤ jwk.key.spec.privateExponent then
        .error (.privateKeyRefused .plain (withoutFactors fields).names .invalidExponent)
      else
        .ok ⟨(withoutFactors fields).extend jwk.publicHalf.fields,
          ⟨.plain jwk.key.spec.modulus jwk.key.spec.privateExponent⟩, jwk.publicHalf⟩ := by
  obtain ⟨d, half, spec, key, hd, hhalf, hspec, hkey, rfl⟩ := result_ofFields_eq_ok_iff.mp h
  obtain ⟨hacceptable, rfl⟩ := PrivateKey.ofSpec_eq_ok_iff.mp hkey
  obtain ⟨hmodulus, rfl, -⟩ := (readSpec_eq_ok_iff.mp hspec).numbers
  have hplain : (KeyFactory.checking maxSize).privateKey
      (.plain half.key.modulus key.spec.privateExponent) = _ :=
    PrivateKey.ofSpec_plain (hmodulus ▸ hacceptable.goodModulus)
      hacceptable.positive.privateExponent
  rw [result_ofFields_withoutFactors hd hhalf, hplain, ← hmodulus]
  by_cases hle : key.spec.modulus ≤ key.spec.privateExponent
  · rw [if_pos hle, if_pos hle]
    rfl
  · rw [if_neg hle, if_neg hle]
    rfl

/-- **A key that is read with its factors is read without them exactly if its private exponent is
below its modulus.** It is then the plain key with the same modulus, private exponent and public
half. Otherwise the private exponent is reported. -/
theorem ofFields_withoutFactors_iff {maxSize : ℕ} {fields : FieldSet} {jwk : PrivateJwk}
    (h : (ofFields fields (KeyFactory.checking maxSize)).result = .ok jwk) :
    ((∃ plain, (ofFields (withoutFactors fields) (KeyFactory.checking maxSize)).result =
        .ok plain) ↔ jwk.key.spec.privateExponent < jwk.key.spec.modulus) ∧
    (∀ plain, (ofFields (withoutFactors fields) (KeyFactory.checking maxSize)).result = .ok plain →
      plain.key.spec = .plain jwk.key.spec.modulus jwk.key.spec.privateExponent ∧
        plain.publicHalf = jwk.publicHalf) ∧
    (jwk.key.spec.modulus ≤ jwk.key.spec.privateExponent →
      (ofFields (withoutFactors fields) (KeyFactory.checking maxSize)).result =
        .error (.privateKeyRefused .plain (withoutFactors fields).names .invalidExponent)) := by
  rw [result_ofFields_withoutFactors_checking h]
  by_cases hle : jwk.key.spec.modulus ≤ jwk.key.spec.privateExponent
  · rw [if_pos hle]
    refine ⟨⟨?_, fun hlt => absurd hle (not_le.mpr hlt)⟩, ?_, fun _ => rfl⟩
    · rintro ⟨plain, hread⟩
      exact absurd hread.symm ok_ne_error
    · intro plain hread
      exact absurd hread.symm ok_ne_error
  · rw [if_neg hle]
    refine ⟨⟨fun _ => not_le.mp hle, fun _ => ⟨_, rfl⟩⟩, ?_, fun hle' => absurd hle' hle⟩
    intro plain hread
    obtain rfl := Except.ok.inj hread
    exact ⟨rfl, rfl⟩

/-- `PrivateKey.threeFactor` is read without its factors. -/
theorem foreignFields_without_factors :
    ∃ jwk, (ofFields foreignFields (KeyFactory.checking 12)).result = .ok jwk ∧
      jwk.key = .threeFactor ∧
      ∃ plain, (ofFields (withoutFactors foreignFields) (KeyFactory.checking 12)).result =
        .ok plain ∧ plain.key.spec = .plain 2431 103 ∧ plain.publicHalf = jwk.publicHalf := by
  obtain ⟨jwk, hjwk, hkey, -⟩ := exists_of_foreignFields
  obtain ⟨hread, hnumbers, -⟩ := ofFields_withoutFactors_iff hjwk
  rw [hkey] at hread hnumbers
  obtain ⟨plain, hplain⟩ := hread.mpr (by decide)
  obtain ⟨hspec, hhalf⟩ := hnumbers plain hplain
  exact ⟨jwk, hjwk, hkey, plain, hplain, hspec, hhalf⟩

/-- The key with the factors 61 and 53 and a private exponent that is inverse to the public one
modulo each factor less one, but is not below the modulus. -/
def unreducedFields : FieldSet where
  members :=
    [("kty", .string "RSA"), ("n", .string "DKE"), ("e", .string "EQ"), ("d", .string "Dc0"),
      ("p", .string "PQ"), ("q", .string "NQ"), ("dp", .string "NQ"), ("dq", .string "MQ"),
      ("qi", .string "Jg")]
  nodup := by decide

theorem exists_of_unreducedFields :
    ∃ jwk, (ofFields unreducedFields (KeyFactory.checking 12)).result = .ok jwk ∧
      jwk.key = ⟨.twoPrime 3233 17 3533 ⟨61, 53, 53, 49, 38⟩⟩ ∧
      jwk.publicHalf.key = ⟨3233, 17⟩ := by
  have hcrt : HoldsCrt unreducedFields.members ⟨61, 53, 53, 49, 38⟩ :=
    { p := .of_octets [61] rfl (by decide)
      q := .of_octets [53] rfl (by decide)
      dp := .of_octets [53] rfl (by decide)
      dq := .of_octets [49] rfl (by decide)
      qi := .of_octets [38] rfl (by decide) }
  exact ofFields_eq_ok_iff.mpr ⟨3233, 17, 3533, .twoPrime 3233 17 3533 ⟨61, 53, 53, 49, 38⟩,
    .of_octets [13, 205] rfl (by decide), .inr rfl, .of_octets [12, 161] rfl (by decide),
    .of_octets [17] rfl (by decide), PublicKey.ofNumbers_eq_ok_iff.mpr ⟨by decide, rfl⟩,
    .twoPrime hcrt (.inl rfl), PrivateKey.ofSpec_eq_ok_iff.mpr ⟨by decide, rfl⟩⟩

/-- It is read with its factors, and not without them. -/
theorem unreducedFields_need_factors :
    (∃ jwk, (ofFields unreducedFields (KeyFactory.checking 12)).result = .ok jwk ∧
      jwk.key.spec.shape = .twoPrime) ∧
    ¬∃ plain, (ofFields (withoutFactors unreducedFields) (KeyFactory.checking 12)).result =
      .ok plain := by
  obtain ⟨jwk, hjwk, hkey, -⟩ := exists_of_unreducedFields
  have hle : jwk.key.spec.modulus ≤ jwk.key.spec.privateExponent := by
    rw [hkey]
    decide
  refine ⟨⟨jwk, hjwk, ?_⟩, ?_⟩
  · rw [hkey]
    rfl
  · rintro ⟨plain, hread⟩
    rw [result_ofFields_withoutFactors_checking hjwk, if_pos hle] at hread
    exact absurd hread.symm ok_ne_error

end PrivateJwk

end WebKey
