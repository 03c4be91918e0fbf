/-
A public key that is given beside a private key.

Writing compares its modulus with that of the private key and asks nothing else of it.
What is written holds its exponent, and reading makes both keys with this exponent.

* **`KeySpec.Acceptable.withPublicExponent_iff`** — the exponents with which an accepted
  private key is still accepted;
* **`PrivateJwk.ofFields_ofKey_some_iff`** — the public keys with which the written fields
  can be read, and those with which the two keys come back;
* **`PrivateJwk.explicit_publicKey_unreadable`** — a public key that the factory accepts,
  beside a private key that it accepts, for which the written fields cannot be read.
-/
import WebKey.Proofs.Jwk.RoundTrip

namespace WebKey

/-! ### Another public exponent -/

/-- The public exponent of a consistent key bears on the congruences only. -/
theorem Consistent.publicExponent_iff {n e e' d : ℕ} {crt : CrtValues} {others : List OtherPrime}
    (h : Consistent n e d crt others) :
    Consistent n e' d crt others ↔ ∀ r ∈ factorsOf crt others, e' * d ≡ 1 [MOD r - 1] := by
  constructor
  · intro h' r hr
    exact (h'.mul_modEq_one r hr).2
  · intro hmul
    exact { h with mul_modEq_one := fun r hr => ⟨(h.mul_modEq_one r hr).1, hmul r hr⟩ }

namespace KeySpec

variable {maxSize e : ℕ} {spec : KeySpec}

theorem Acceptable.withPublicExponent_iff (h : spec.Acceptable maxSize)
    (he : PublicKey.GoodExponent e) :
    (spec.withPublicExponent e).Acceptable maxSize ↔
      ∀ r ∈ spec.primes, e * spec.privateExponent ≡ 1 [MOD r - 1] := by
  cases spec with
  | plain n d =>
    -- a plain key lists no primes and holds no public exponent
    exact ⟨fun _ r hr => absurd hr (by simp [primes, crt?, others]), fun _ => h⟩
  | twoPrime n e' d crt =>
    obtain ⟨hn, -, hconsistent⟩ := h
    rw [primes_eq_factorsOf rfl]
    constructor
    · rintro ⟨-, -, hother⟩
      exact hconsistent.publicExponent_iff.mp hother
    · intro hmul
      exact ⟨hn, he, hconsistent.publicExponent_iff.mpr hmul⟩
  | multiPrime n e' d crt others =>
    obtain ⟨hne, hn, -, hconsistent⟩ := h
    rw [primes_eq_factorsOf rfl]
    constructor
    · rintro ⟨-, -, -, hother⟩
      exact hconsistent.publicExponent_iff.mp hother
    · intro hmul
      exact ⟨hne, hn, he, hconsistent.publicExponent_iff.mpr hmul⟩

theorem withPublicExponent_eq_self_iff :
    spec.withPublicExponent e = spec ↔ ∀ e', spec.publicExponent? = some e' → e = e' := by
  constructor
  · intro h e' he'
    rw [← h] at he'
    cases spec with
    | plain n d => exact absurd he' (by simp [withPublicExponent, publicExponent?])
    | twoPrime n e d crt => exact Option.some_inj.mp he'
    | multiPrime n e d crt others => exact Option.some_inj.mp he'
  · exact withPublicExponent_eq_self

end KeySpec

/-! ### Reading back -/

namespace PrivateJwk

/-- Writing beside a given public key goes by its modulus. -/
theorem result_ofKey_some_eq_ok_iff {key : PrivateKey} {publicKey : PublicKey}
    {factory : KeyFactory} {jwk : PrivateJwk} :
    (ofKey key (some publicKey) factory).result = .ok jwk ↔
      publicKey.modulus = key.spec.modulus ∧ jwk = written key publicKey := by
  rw [result_ofKey, choosePublicKey]
  by_cases h : publicKey.modulus = key.spec.modulus
  · rw [if_neg (not_not.mpr h)]
    constructor
    · intro hjwk
      exact ⟨h, (Except.ok.inj hjwk).symm⟩
    · rintro ⟨-, rfl⟩
      rfl
  · rw [if_pos h]
    constructor
    · intro hjwk
      exact absurd hjwk (by simp [Except.map])
    · rintro ⟨hmodulus, -⟩
      exact absurd hmodulus h

/-- **What is written beside a given public key** can be read exactly if its exponent is
within the bounds and still inverse to the private exponent modulo each factor less one.
The two keys come back exactly if it is within the bounds and is the exponent that the
private key holds, if it holds one. -/
theorem ofFields_ofKey_some_iff {maxSize : ℕ} {key : PrivateKey} {publicKey : PublicKey}
    {jwk : PrivateJwk} (haccepted : (KeyFactory.checking maxSize).privateKey key.spec = .ok key)
    (hwritten : (ofKey key (some publicKey) (KeyFactory.checking maxSize)).result = .ok jwk) :
    ((∃ read, (ofFields jwk.fields (KeyFactory.checking maxSize)).result = .ok read) ↔
      PublicKey.GoodExponent publicKey.exponent ∧
        ∀ r ∈ key.spec.primes, publicKey.exponent * key.spec.privateExponent ≡ 1 [MOD r - 1]) ∧
    ((∃ read, (ofFields jwk.fields (KeyFactory.checking maxSize)).result = .ok read ∧
        read.key = key ∧ read.publicHalf.key = publicKey) ↔
      PublicKey.GoodExponent publicKey.exponent ∧
        ∀ e, key.spec.publicExponent? = some e → publicKey.exponent = e) := by
  have hacceptable := (PrivateKey.ofSpec_eq_ok_iff.mp haccepted).1
  obtain ⟨hmodulus, rfl⟩ := result_ofKey_some_eq_ok_iff.mp hwritten
  -- the modulus of the public key is that of an accepted key, so its exponent decides
  have hgood : PublicKey.GoodModulus maxSize publicKey.modulus :=
    hmodulus ▸ hacceptable.goodModulus
  simp only [ofFields_written_eq_ok_iff hacceptable.positive hmodulus]
  constructor
  · constructor
    · rintro ⟨read, ⟨-, he⟩, hread, -⟩
      exact ⟨he, (hacceptable.withPublicExponent_iff he).mp hread⟩
    · rintro ⟨he, hmul⟩
      exact ⟨_, ⟨hgood, he⟩, (hacceptable.withPublicExponent_iff he).mpr hmul, rfl⟩
  · constructor
    · rintro ⟨read, ⟨⟨-, he⟩, -, rfl⟩, hkey, -⟩
      exact ⟨he, KeySpec.withPublicExponent_eq_self_iff.mp (congrArg PrivateKey.spec hkey)⟩
    · rintro ⟨he, hexponent⟩
      have hself := KeySpec.withPublicExponent_eq_self hexponent
      refine ⟨_, ⟨⟨hgood, he⟩, by rwa [hself], rfl⟩, ?_, rfl⟩
      rw [hself]
      rfl

/-- `PrivateKey.threeFactor` and its own public key come back. -/
theorem threeFactor_key_and_publicKey_come_back :
    (KeyFactory.checking 12).privateKey PrivateKey.threeFactor.spec = .ok .threeFactor ∧
    ∃ jwk, (ofKey .threeFactor (some ⟨2431, 7⟩) (KeyFactory.checking 12)).result = .ok jwk ∧
      ∃ read, (ofFields jwk.fields (KeyFactory.checking 12)).result = .ok read ∧
        read.key = .threeFactor ∧ read.publicHalf.key = ⟨2431, 7⟩ := by
  have hwritten : (ofKey .threeFactor (some ⟨2431, 7⟩) (KeyFactory.checking 12)).result =
      .ok (written .threeFactor ⟨2431, 7⟩) :=
    result_ofKey_some_eq_ok_iff.mpr ⟨rfl, rfl⟩
  have hexponent : ∀ e, PrivateKey.threeFactor.spec.publicExponent? = some e → 7 = e := by
    intro e he
    exact Option.some_inj.mp he
  exact ⟨PrivateKey.threeFactor_accepted, _, hwritten,
    (ofFields_ofKey_some_iff PrivateKey.threeFactor_accepted hwritten).2.mpr
      ⟨by decide, hexponent⟩⟩

/-- The public key with exponent 7 is accepted and has the modulus of the private key with
the factors 61 and 53, whose own exponent is 17. Beside it the private key is written, but
what is written cannot be read. -/
theorem explicit_publicKey_unreadable :
    (KeyFactory.checking 12).privateKey (.twoPrime 3233 17 413 ⟨61, 53, 53, 49, 38⟩) =
      .ok ⟨.twoPrime 3233 17 413 ⟨61, 53, 53, 49, 38⟩⟩ ∧
    (KeyFactory.checking 12).publicKey 3233 7 = .ok ⟨3233, 7⟩ ∧
    ∃ jwk, (ofKey ⟨.twoPrime 3233 17 413 ⟨61, 53, 53, 49, 38⟩⟩ (some ⟨3233, 7⟩)
        (KeyFactory.checking 12)).result = .ok jwk ∧
      ¬∃ read, (ofFields jwk.fields (KeyFactory.checking 12)).result = .ok read := by
  have hacceptable : (KeySpec.twoPrime 3233 17 413 ⟨61, 53, 53, 49, 38⟩).Acceptable 12 := by decide
  refine ⟨PrivateKey.ofSpec_eq_ok_iff.mpr ⟨hacceptable, rfl⟩,
    PublicKey.ofNumbers_eq_ok_iff.mpr ⟨by decide, rfl⟩, _,
    result_ofKey_some_eq_ok_iff.mpr ⟨rfl, rfl⟩, ?_⟩
  rintro ⟨read, hread⟩
  -- reading would make a key with the exponent 7, to which 413 is not inverse
  have hother := ((ofFields_written_eq_ok_iff hacceptable.positive rfl).mp hread).2.1
  exact absurd hother (by decide)

end PrivateJwk

end WebKey
