/-
Private keys survive being written and read.

* **`KeySpec.Acceptable.positive`** — the values of an accepted key can be read back;
* **`PrivateJwk.ofFields_written_eq_ok_iff`** — when what was written for a private key and
  a public key is read, and what comes out;
* **`PrivateJwk.Suits`** — the public keys that may be given beside a private key;
* **`PrivateJwk.ofFields_ofKey_roundTrip`** — an accepted key comes back with its fields
  and its public half.
-/
import WebKey.Proofs.Jwk.Writing
import WebKey.Proofs.Rsa.Consistency

namespace WebKey

/-! ### Accepted values are positive -/

theorem Consistent.crt_positive {n e d : ℕ} {crt : CrtValues} {others : List OtherPrime}
    (h : Consistent n e d crt others) : crt.Positive := by
  have hp := h.two_le crt.p (by simp [factorsOf])
  have hq := h.two_le crt.q (by simp [factorsOf])
  have hqi := h.qi_inverse.one_le
  exact
    { p := by omega
      q := by omega
      dp := h.dp_eq ▸ h.mod_pred_ne_zero (by simp [factorsOf])
      dq := h.dq_eq ▸ h.mod_pred_ne_zero (by simp [factorsOf])
      qi := by omega }

theorem Consistent.others_positive {n e d : ℕ} {crt : CrtValues} {others : List OtherPrime}
    (h : Consistent n e d crt others) : ∀ info ∈ others, info.Positive := by
  intro info hinfo
  have hmem : info.prime ∈ factorsOf crt others := by
    simp only [factorsOf, List.mem_cons, List.mem_map]
    exact .inr (.inr ⟨info, hinfo, rfl⟩)
  obtain ⟨i, hi, rfl⟩ := List.getElem_of_mem hinfo
  have hprime := h.two_le _ hmem
  have hcoefficient := (h.coefficient_inverse i hi).one_le
  exact
    { prime := by omega
      exponent := h.exponent_eq i hi ▸ h.mod_pred_ne_zero hmem
      coefficient := by omega }

theorem Consistent.privateExponent_ne_zero {n e d : ℕ} {crt : CrtValues} {others : List OtherPrime}
    (h : Consistent n e d crt others) : d ≠ 0 := by
  rintro rfl
  exact h.mod_pred_ne_zero (r := crt.p) (by simp [factorsOf]) (Nat.zero_mod _)

/-- No private value of an accepted key is zero. -/
theorem KeySpec.Acceptable.positive {maxSize : ℕ} {spec : KeySpec} (h : spec.Acceptable maxSize) :
    spec.Positive := by
  cases spec with
  | plain n d =>
    exact ⟨Nat.pos_iff_ne_zero.mp h.2.1, by simp [KeySpec.crt?], by simp [KeySpec.others],
      by simp [KeySpec.shape]⟩
  | twoPrime n e d crt =>
    have hcrt : ∀ crt', some crt = some crt' → crt'.Positive :=
      fun _ hcrt' => Option.some_inj.mp hcrt' ▸ h.2.2.crt_positive
    exact ⟨h.2.2.privateExponent_ne_zero, hcrt, h.2.2.others_positive, by simp [KeySpec.shape]⟩
  | multiPrime n e d crt others =>
    have hcrt : ∀ crt', some crt = some crt' → crt'.Positive :=
      fun _ hcrt' => Option.some_inj.mp hcrt' ▸ h.2.2.2.crt_positive
    exact ⟨h.2.2.2.privateExponent_ne_zero, hcrt, h.2.2.2.others_positive, fun _ => h.1⟩

/-! ### Public exponents -/

namespace KeySpec

variable {maxSize e : ℕ} {spec : KeySpec}

theorem exists_publicExponent (h : spec.crt? ≠ none) : ∃ e, spec.publicExponent? = some e := by
  cases spec with
  | plain n d => exact absurd rfl h
  | twoPrime n e d crt => exact ⟨e, rfl⟩
  | multiPrime n e d crt others => exact ⟨e, rfl⟩

theorem withPublicExponent_eq_self (h : ∀ e', spec.publicExponent? = some e' → e = e') :
    spec.withPublicExponent e = spec := by
  cases spec with
  | plain n d => rfl
  | twoPrime n e' d crt => rw [withPublicExponent, h e' rfl]
  | multiPrime n e' d crt others => rw [withPublicExponent, h e' rfl]

theorem Acceptable.goodModulus (h : spec.Acceptable maxSize) :
    PublicKey.GoodModulus maxSize spec.modulus := by
  cases spec with
  | plain n d => exact h.1
  | twoPrime n e d crt => exact h.1
  | multiPrime n e d crt others => exact h.2.1

theorem Acceptable.goodExponent (h : spec.Acceptable maxSize)
    (he : spec.publicExponent? = some e) : PublicKey.GoodExponent e := by
  cases spec with
  | plain n d => exact absurd he (by simp [publicExponent?])
  | twoPrime n e' d crt => exact Option.some_inj.mp he ▸ h.2.1
  | multiPrime n e' d crt others => exact Option.some_inj.mp he ▸ h.2.2.1

end KeySpec

namespace PrivateJwk

/-! ### Reading what was written -/

theorem names_ofKey (publicKey : PublicKey) :
    (PublicJwk.ofKey publicKey).fields.names = Param.publicParams.map Param.id := rfl

/-- The public half is read back when the factory accepts its public key. -/
theorem publicHalf_eq_ok_iff {maxSize : ℕ} {publicKey : PublicKey} {half : PublicJwk} :
    PublicJwk.ofFields (PublicJwk.ofKey publicKey).fields (KeyFactory.checking maxSize) = .ok half ↔
      (PublicKey.GoodModulus maxSize publicKey.modulus ∧
        PublicKey.GoodExponent publicKey.exponent) ∧ half = PublicJwk.ofKey publicKey := by
  have hn : (PublicJwk.ofKey publicKey).fields.requiredInteger .modulus = _ :=
    @Members.requiredInteger_of_field? _ .modulus publicKey.modulus rfl
  have he : (PublicJwk.ofKey publicKey).fields.requiredInteger .publicExponent = _ :=
    @Members.requiredInteger_of_field? _ .publicExponent publicKey.exponent rfl
  rw [PublicJwk.ofFields_eq_ok_iff, hn, he]
  simp only [ite_error_eq_ok_iff, Except.ok.injEq]
  constructor
  · rintro ⟨-, n, e, ⟨-, rfl⟩, ⟨-, rfl⟩, key, hkey, rfl⟩
    obtain ⟨hgood, rfl⟩ := PublicKey.ofNumbers_eq_ok_iff.mp hkey
    exact ⟨hgood, rfl⟩
  · rintro ⟨⟨hmodulus, hexponent⟩, rfl⟩
    have hthree := hmodulus.three_le
    have htwo := hexponent.two_le
    exact ⟨⟨true, rfl⟩, _, _, ⟨by omega, rfl⟩, ⟨by omega, rfl⟩, publicKey,
      PublicKey.ofNumbers_eq_ok_iff.mpr ⟨⟨hmodulus, hexponent⟩, rfl⟩, rfl⟩

/-- What was written for a private key beside a public key is read when the factory accepts
the public key, and the private key with the public exponent that was written. That is
the private key that comes out. -/
theorem ofFields_written_eq_ok_iff {maxSize : ℕ} {key : PrivateKey} {publicKey : PublicKey}
    {jwk : PrivateJwk} (hpositive : key.spec.Positive)
    (hmodulus : publicKey.modulus = key.spec.modulus) :
    (ofFields (written key publicKey).fields (KeyFactory.checking maxSize)).result = .ok jwk ↔
      (PublicKey.GoodModulus maxSize publicKey.modulus ∧
        PublicKey.GoodExponent publicKey.exponent) ∧
      (key.spec.withPublicExponent publicKey.exponent).Acceptable maxSize ∧
      jwk = written ⟨key.spec.withPublicExponent publicKey.exponent⟩ publicKey := by
  have hd : (written key publicKey).fields.requiredInteger .privateExponent =
      .ok key.spec.privateExponent := requiredInteger_putPrivate _ hpositive.privateExponent
  have hwithout : (written key publicKey).fields.without Param.privateParams =
      (PublicJwk.ofKey publicKey).fields := (without_putPrivate _ _).trans rfl
  have hextend : (written key publicKey).fields.extend (PublicJwk.ofKey publicKey).fields =
      (written key publicKey).fields := extend_putPrivate _ (names_ofKey publicKey ▸ by decide)
  have hspec : readSpec (written key publicKey).fields publicKey key.spec.privateExponent =
      .ok (key.spec.withPublicExponent publicKey.exponent) :=
    readSpec_putPrivate rfl rfl hpositive hmodulus
  -- the fields that were written do not show the public exponent that the private key held
  have hwritten : written ⟨key.spec.withPublicExponent publicKey.exponent⟩ publicKey =
      ⟨(written key publicKey).fields, ⟨key.spec.withPublicExponent publicKey.exponent⟩,
        PublicJwk.ofKey publicKey⟩ := by
    rw [written, putPrivate_withPublicExponent]
    rfl
  rw [result_ofFields_eq_ok_iff, hd, hwithout, hwritten]
  simp only [publicHalf_eq_ok_iff]
  constructor
  · rintro ⟨d, half, spec, key', ⟨⟩, ⟨hgood, rfl⟩, hread, hkey, rfl⟩
    obtain rfl := Except.ok.inj (hspec.symm.trans hread)
    obtain ⟨hacceptable, hkey⟩ := PrivateKey.ofSpec_eq_ok_iff.mp hkey
    exact ⟨hgood, hacceptable, by rw [hextend, ← hkey]⟩
  · rintro ⟨hgood, hacceptable, rfl⟩
    exact ⟨_, _, _, ⟨key.spec.withPublicExponent publicKey.exponent⟩, rfl, ⟨hgood, rfl⟩, hspec,
      PrivateKey.ofSpec_eq_ok_iff.mpr ⟨hacceptable, rfl⟩, by rw [hextend]⟩

/-- What was written for an accepted private key beside a public key that the factory
accepts is read again, if the public key has the exponent that the private key holds. -/
theorem ofFields_written {maxSize : ℕ} {key : PrivateKey} {publicKey : PublicKey}
    (hacceptable : key.spec.Acceptable maxSize) (hmodulus : publicKey.modulus = key.spec.modulus)
    (hgood : PublicKey.GoodExponent publicKey.exponent)
    (hexponent : ∀ e, key.spec.publicExponent? = some e → publicKey.exponent = e) :
    (ofFields (written key publicKey).fields (KeyFactory.checking maxSize)).result =
      .ok (written key publicKey) := by
  have hself := KeySpec.withPublicExponent_eq_self hexponent
  rw [ofFields_written_eq_ok_iff hacceptable.positive hmodulus, hself]
  exact ⟨⟨hmodulus ▸ hacceptable.goodModulus, hgood⟩, hacceptable, rfl⟩

/-! ### The public key beside a private key -/

/-- What may be given as the public key beside a private key: nothing if the private key
holds its public exponent, or else a public key with the same modulus that the factory
accepts, and whose exponent is the one that the private key holds, if it holds one. -/
def Suits (factory : KeyFactory) (key : PrivateKey) : Option PublicKey → Prop
  | none => key.spec.crt? ≠ none
  | some publicKey =>
    publicKey.modulus = key.spec.modulus ∧
    factory.publicKey publicKey.modulus publicKey.exponent = .ok publicKey ∧
    ∀ e, key.spec.publicExponent? = some e → publicKey.exponent = e

theorem choosePublicKey_some {key : PrivateKey} {publicKey : PublicKey} (factory : KeyFactory)
    (h : publicKey.modulus = key.spec.modulus) :
    choosePublicKey key (some publicKey) factory = .ok publicKey :=
  if_neg (not_not.mpr h)

/-- The public key of an accepted private key with factors is the one that is derived. -/
theorem choosePublicKey_none {maxSize e : ℕ} {key : PrivateKey}
    (hacceptable : key.spec.Acceptable maxSize) (he : key.spec.publicExponent? = some e) :
    choosePublicKey key none (KeyFactory.checking maxSize) = .ok ⟨key.spec.modulus, e⟩ := by
  have hkey : (KeyFactory.checking maxSize).publicKey key.spec.modulus e =
      .ok ⟨key.spec.modulus, e⟩ :=
    PublicKey.ofNumbers_eq_ok_iff.mpr
      ⟨⟨hacceptable.goodModulus, hacceptable.goodExponent he⟩, rfl⟩
  rw [choosePublicKey, derivePublicKey, publicExponent, he]
  show Except.mapError _ _ = _
  rw [hkey]
  rfl

/-- **An accepted private key comes back from being written and read**, with its fields,
their order and its public half. Its own public key need not be given. -/
theorem ofFields_ofKey_roundTrip {maxSize : ℕ} {key : PrivateKey} {given : Option PublicKey}
    (haccepted : (KeyFactory.checking maxSize).privateKey key.spec = .ok key)
    (hgiven : Suits (KeyFactory.checking maxSize) key given) :
    (∃ jwk, (ofKey key given (KeyFactory.checking maxSize)).result = .ok jwk ∧ jwk.key = key ∧
      given.or key.publicKey? = some jwk.publicHalf.key ∧
      (ofFields jwk.fields (KeyFactory.checking maxSize)).result = .ok jwk) ∧
    (key.spec.crt? ≠ none → (ofKey key none (KeyFactory.checking maxSize)).result =
      (ofKey key key.publicKey? (KeyFactory.checking maxSize)).result) := by
  have hacceptable := (PrivateKey.ofSpec_eq_ok_iff.mp haccepted).1
  constructor
  · -- either way the key is `written` beside a public key with its own exponent
    cases given with
    | none =>
      obtain ⟨e, he⟩ := KeySpec.exists_publicExponent hgiven
      refine ⟨written key ⟨key.spec.modulus, e⟩, ?_, rfl, ?_, ?_⟩
      · rw [result_ofKey, choosePublicKey_none hacceptable he]
        rfl
      · rw [PrivateKey.publicKey?, he]
        rfl
      · refine ofFields_written hacceptable rfl (hacceptable.goodExponent he) ?_
        intro e' he'
        exact Option.some_inj.mp (he.symm.trans he')
    | some publicKey =>
      obtain ⟨hmodulus, hpublic, hexponent⟩ := hgiven
      refine ⟨written key publicKey, ?_, rfl, rfl, ?_⟩
      · rw [result_ofKey, choosePublicKey_some _ hmodulus]
        rfl
      · exact ofFields_written hacceptable hmodulus
          (PublicKey.ofNumbers_eq_ok_iff.mp hpublic).1.2 hexponent
  · intro hcrt
    obtain ⟨e, he⟩ := KeySpec.exists_publicExponent hcrt
    rw [PrivateKey.publicKey?, he, result_ofKey, result_ofKey, choosePublicKey_none hacceptable he,
      Option.map_some, choosePublicKey_some _ rfl]

/-- `PrivateKey.threeFactor` comes back without its public key being given. -/
theorem threeFactor_key_comes_back :
    (KeyFactory.checking 12).privateKey PrivateKey.threeFactor.spec = .ok .threeFactor ∧
    Suits (KeyFactory.checking 12) .threeFactor none ∧
    ∃ jwk, (ofKey .threeFactor none (KeyFactory.checking 12)).result = .ok jwk ∧
      (ofFields jwk.fields (KeyFactory.checking 12)).result = .ok jwk := by
  have hgiven : Suits (KeyFactory.checking 12) .threeFactor none := Option.some_ne_none _
  obtain ⟨jwk, hjwk, -, -, hread⟩ :=
    (ofFields_ofKey_roundTrip PrivateKey.threeFactor_accepted hgiven).1
  exact ⟨PrivateKey.threeFactor_accepted, hgiven, jwk, hjwk, hread⟩

end PrivateJwk

end WebKey
