/-
When writing and reading private keys succeed.

* **`PrivateJwk.result_ofKey`** — the result of writing is `PrivateJwk.written`, given the
  public key to write beside the private one;
* **`PublicJwk.ofFields_eq_ok_iff`**, **`PrivateJwk.result_ofFields_eq_ok_iff`** — reading
  succeeds when each of its steps does;
* **`PrivateJwk.readCrt_congr`**, **`PrivateJwk.hasCrt_congr`**,
  **`PrivateJwk.readSpec_congr`** — the values of the primes are read by the look-ups of their
  parameters.
-/
import WebKey.Proofs.Computation
import WebKey.Proofs.FieldSet
import WebKey.Jwk.PrivateJwk

namespace WebKey

/-! ### Public keys -/

theorem PublicJwk.ofFields_eq_ok_iff {fields : FieldSet} {factory : KeyFactory} {half : PublicJwk} :
    ofFields fields factory = .ok half ↔
      (∃ present, fields.checkKeyType = .ok present) ∧
      ∃ n e, fields.requiredInteger .modulus = .ok n ∧
        fields.requiredInteger .publicExponent = .ok e ∧
        ∃ key, factory.publicKey n e = .ok key ∧ half = ⟨keyTypeFields.extend fields, key⟩ := by
  simp only [ofFields, bind_eq_ok_iff, mapError_eq_ok_iff]
  constructor
  · rintro ⟨present, hpresent, n, hn, e, he, key, hkey, hhalf⟩
    exact ⟨⟨present, hpresent⟩, n, e, hn, he, key, hkey, (Except.ok.inj hhalf).symm⟩
  · rintro ⟨⟨present, hpresent⟩, n, e, hn, he, key, hkey, rfl⟩
    exact ⟨present, hpresent, n, hn, e, he, key, hkey, rfl⟩

namespace PrivateJwk

/-! ### Private keys -/

/-- The JSON Web Key that is written for a private key beside a public key. -/
def written (key : PrivateKey) (publicKey : PublicKey) : PrivateJwk :=
  ⟨putPrivate (PublicJwk.ofKey publicKey).fields key.spec, key, PublicJwk.ofKey publicKey⟩

theorem result_ofKey (key : PrivateKey) (given : Option PublicKey) (factory : KeyFactory) :
    (ofKey key given factory).result = (choosePublicKey key given factory).map (written key) := by
  rw [ofKey, Logged.result_bind, Logged.result_lift]
  cases choosePublicKey key given factory with
  | error e => rfl
  | ok publicKey => rfl

theorem result_ofFields (fields : FieldSet) (factory : KeyFactory) :
    (ofFields fields factory).result = do
      let d ← fields.requiredInteger .privateExponent
      let publicHalf ← PublicJwk.ofFields (fields.without Param.privateParams) factory
      let spec ← readSpec fields publicHalf.key d
      let key ← (factory.privateKey spec).mapError (refusal fields spec.shape)
      return ⟨fields.extend publicHalf.fields, key, publicHalf⟩ := by
  simp only [ofFields, Logged.result_bind, Logged.result_lift]
  refine bind_congr fun d => bind_congr fun publicHalf => bind_congr fun spec => ?_
  -- an ignored list of other primes is recorded, which leaves the result as it is
  split
  · simp only [Logged.result_bind, Logged.result_lift, Logged.result_record]
    rfl
  · simp only [Logged.result_bind, Logged.result_lift, Logged.result_record]
    rfl

theorem result_ofFields_eq_ok_iff {fields : FieldSet} {factory : KeyFactory} {jwk : PrivateJwk} :
    (ofFields fields factory).result = .ok jwk ↔
      ∃ d half spec key, fields.requiredInteger .privateExponent = .ok d ∧
        PublicJwk.ofFields (fields.without Param.privateParams) factory = .ok half ∧
        readSpec fields half.key d = .ok spec ∧ factory.privateKey spec = .ok key ∧
        jwk = ⟨fields.extend half.fields, key, half⟩ := by
  simp only [result_ofFields, bind_eq_ok_iff, mapError_eq_ok_iff]
  constructor
  · rintro ⟨d, hd, half, hhalf, spec, hspec, key, hkey, hjwk⟩
    exact ⟨d, half, spec, key, hd, hhalf, hspec, hkey, (Except.ok.inj hjwk).symm⟩
  · rintro ⟨d, half, spec, key, hd, hhalf, hspec, hkey, rfl⟩
    exact ⟨d, hd, half, hhalf, spec, hspec, key, hkey, rfl⟩

/-! ### The values of the primes -/

section Congruence

variable {fields others : FieldSet}

theorem readCrt_congr
    (h : ∀ param ∈ Param.crtParams, fields.field? param.id = others.field? param.id) :
    readCrt fields = readCrt others := by
  have hread : ∀ param ∈ Param.crtParams,
      fields.requiredInteger param = others.requiredInteger param := by
    intro param hparam
    exact FieldSet.requiredInteger_congr (h param hparam)
  simp only [Param.crtParams, List.forall_mem_cons] at hread
  obtain ⟨hp, hq, hdp, hdq, hqi, -⟩ := hread
  rw [readCrt, readCrt, hp, hq, hdp, hdq, hqi]

theorem hasCrt_congr
    (h : ∀ param ∈ Param.crtParams, fields.field? param.id = others.field? param.id) :
    hasCrt fields = hasCrt others := by
  rw [Bool.eq_iff_iff, hasCrt, hasCrt, List.any_eq_true, List.any_eq_true]
  refine exists_congr fun param => and_congr_right fun hparam => ?_
  show (fields.field? param.id).isSome = true ↔ (others.field? param.id).isSome = true
  rw [h param hparam]

/-- A specification is read by the look-ups of the parameters that hold prime factors. -/
theorem readSpec_congr
    (h : ∀ param ∈ Param.crtParams ++ [.otherPrimesInfo],
      fields.field? param.id = others.field? param.id) (publicKey : PublicKey) (d : ℕ) :
    readSpec fields publicKey d = readSpec others publicKey d := by
  rw [List.forall_mem_append, List.forall_mem_singleton] at h
  rw [readSpec, readSpec, hasCrt_congr h.1, readCrt_congr h.1, h.2]

end Congruence

end PrivateJwk

end WebKey
