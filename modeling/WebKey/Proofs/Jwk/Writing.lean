/-
Reading back the values that writing a private key puts into a field set.

* **`KeySpec.Positive`** — no private value is zero and a multi-prime key lists primes:
  what it takes for the values to be read back;
* **`OtherPrime.listOfJson_listToJson`** — the list of other primes;
* **`PrivateJwk.readSpec_putPrivate`** — the specification, whose public exponent becomes
  the one that was written;
* **`PrivateJwk.without_putPrivate`**, **`PrivateJwk.extend_putPrivate`** — without the
  private parameters the fields are as before, and merging them in again changes nothing.
-/
import WebKey.Proofs.Jwk.Reading

namespace WebKey

/-! ### Positive values -/

structure CrtValues.Positive (crt : CrtValues) : Prop where
  p : crt.p ≠ 0
  q : crt.q ≠ 0
  dp : crt.dp ≠ 0
  dq : crt.dq ≠ 0
  qi : crt.qi ≠ 0

structure OtherPrime.Positive (info : OtherPrime) : Prop where
  prime : info.prime ≠ 0
  exponent : info.exponent ≠ 0
  coefficient : info.coefficient ≠ 0

/-- No private value is zero, and a multi-prime key lists other primes. -/
structure KeySpec.Positive (spec : KeySpec) : Prop where
  privateExponent : spec.privateExponent ≠ 0
  crt : ∀ crt, spec.crt? = some crt → crt.Positive
  others : ∀ info ∈ spec.others, info.Positive
  others_ne_nil : spec.shape = .multiPrime → spec.others ≠ []

/-- The specification with another public exponent, where its shape holds one. -/
def KeySpec.withPublicExponent (e : ℕ) : KeySpec → KeySpec
  | .plain n d => .plain n d
  | .twoPrime n _ d crt => .twoPrime n e d crt
  | .multiPrime n _ d crt others => .multiPrime n e d crt others

/-! ### The list of other primes -/

namespace OtherPrime

theorem ofJson_toMembers {info : OtherPrime} (h : info.Positive) :
    ofJson (.object info.toMembers) = .ok info := by
  have hprime : info.toMembers.requiredInteger .primeFactor = .ok info.prime :=
    (Members.requiredInteger_of_field? rfl).trans (if_neg h.prime)
  have hexponent : info.toMembers.requiredInteger .factorCrtExponent = .ok info.exponent :=
    (Members.requiredInteger_of_field? rfl).trans (if_neg h.exponent)
  have hcoefficient : info.toMembers.requiredInteger .factorCrtCoefficient = .ok info.coefficient :=
    (Members.requiredInteger_of_field? rfl).trans (if_neg h.coefficient)
  show (info.toMembers.requiredInteger .primeFactor >>= _) = _
  rw [hprime]
  show (info.toMembers.requiredInteger .factorCrtExponent >>= _) = _
  rw [hexponent]
  show (info.toMembers.requiredInteger .factorCrtCoefficient >>= _) = _
  rw [hcoefficient]
  rfl

theorem mapM_ofJson_toMembers {others : List OtherPrime} (h : ∀ info ∈ others, info.Positive) :
    (others.map fun info => Json.object info.toMembers).mapM ofJson = .ok others := by
  induction others with
  | nil => rfl
  | cons info rest ih =>
    rw [List.forall_mem_cons] at h
    rw [List.map_cons, List.mapM_cons, ofJson_toMembers h.1, ih h.2]
    rfl

/-- The list of other primes is read back, in its order. -/
theorem listOfJson_listToJson {others : List OtherPrime} (hne : others ≠ [])
    (h : ∀ info ∈ others, info.Positive) : listOfJson (listToJson others) = .ok others := by
  -- an empty list would be refused, so `listOfJson` has to see that there is an element
  cases others with
  | nil => exact absurd rfl hne
  | cons info rest => exact mapM_ofJson_toMembers h

end OtherPrime

/-! ### The values of a specification -/

namespace PrivateJwk

theorem readCrt_putCrt (fields : FieldSet) {crt : CrtValues} (h : crt.Positive) :
    readCrt (putCrt fields crt) = .ok crt := by
  simp (disch := decide) only [readCrt, putCrt, FieldSet.requiredInteger_putInteger_of_ne,
    FieldSet.requiredInteger_putInteger, if_neg h.p, if_neg h.q, if_neg h.dp, if_neg h.dq,
    if_neg h.qi]
  rfl

theorem hasCrt_putCrt (fields : FieldSet) (crt : CrtValues) :
    hasCrt (putCrt fields crt) = true := by
  -- one value is enough, and the coefficient is the last that was put
  refine List.any_eq_true.mpr ⟨.firstCrtCoefficient, by decide, ?_⟩
  show (FieldSet.field? _ _).isSome = true
  rw [putCrt, FieldSet.field?_putInteger, if_pos rfl]
  rfl

/-! ### What writing leaves alone -/

/-- The public exponent is not among the private values. -/
theorem putPrivate_withPublicExponent (fields : FieldSet) (spec : KeySpec) (e : ℕ) :
    putPrivate fields (spec.withPublicExponent e) = putPrivate fields spec := by
  cases spec with
  | plain => rfl
  | twoPrime => rfl
  | multiPrime => rfl

theorem lookup_putCrt (fields : FieldSet) (crt : CrtValues) {name : String}
    (h : ∀ param ∈ Param.crtParams, name ≠ param.id) :
    (putCrt fields crt).lookup name = fields.lookup name := by
  simp only [Param.crtParams, List.forall_mem_cons] at h
  obtain ⟨hp, hq, hdp, hdq, hqi, -⟩ := h
  rw [putCrt, FieldSet.putInteger, FieldSet.lookup_put_of_ne hqi, FieldSet.putInteger,
    FieldSet.lookup_put_of_ne hdq, FieldSet.putInteger, FieldSet.lookup_put_of_ne hdp,
    FieldSet.putInteger, FieldSet.lookup_put_of_ne hq, FieldSet.putInteger,
    FieldSet.lookup_put_of_ne hp]

theorem lookup_putOthers (fields : FieldSet) (others : List OtherPrime) {name : String}
    (h : name ≠ Param.otherPrimesInfo.id) :
    (putOthers fields others).lookup name = fields.lookup name := by
  rw [putOthers]
  split
  · rfl
  · exact FieldSet.lookup_put_of_ne h

/-- Members of other names than the private parameters stay. -/
theorem lookup_putPrivate (fields : FieldSet) (spec : KeySpec) {name : String}
    (h : ∀ param ∈ Param.privateParams, name ≠ param.id) :
    (putPrivate fields spec).lookup name = fields.lookup name := by
  have hexponent : (fields.putInteger .privateExponent spec.privateExponent).lookup name =
      fields.lookup name := FieldSet.lookup_put_of_ne (h _ (by decide))
  rw [putPrivate]
  cases spec.crt? with
  | none => exact hexponent
  | some crt =>
    have hcrt : ∀ param ∈ Param.crtParams, name ≠ param.id := by
      intro param hparam
      exact h param (by simp [Param.privateParams, hparam])
    exact (lookup_putOthers _ _ (h _ (by decide))).trans ((lookup_putCrt _ _ hcrt).trans hexponent)

theorem without_putCrt (fields : FieldSet) (crt : CrtValues) :
    (putCrt fields crt).without Param.privateParams = fields.without Param.privateParams := by
  simp (disch := decide) only [putCrt, FieldSet.putInteger, FieldSet.without_put_of_mem]

theorem without_putOthers (fields : FieldSet) (others : List OtherPrime) :
    (putOthers fields others).without Param.privateParams =
      fields.without Param.privateParams := by
  rw [putOthers]
  split
  · rfl
  · exact FieldSet.without_put_of_mem (by decide)

/-- Writing puts no parameters but private ones. -/
theorem without_putPrivate (fields : FieldSet) (spec : KeySpec) :
    (putPrivate fields spec).without Param.privateParams = fields.without Param.privateParams := by
  have hexponent : (fields.putInteger .privateExponent spec.privateExponent).without
      Param.privateParams = fields.without Param.privateParams :=
    FieldSet.without_put_of_mem (by decide)
  rw [putPrivate]
  cases spec.crt? with
  | none => exact hexponent
  | some crt => exact (without_putOthers _ _).trans ((without_putCrt _ _).trans hexponent)

/-- Merging the fields in again that the private values were put into changes nothing. -/
theorem extend_putPrivate {fields : FieldSet} (spec : KeySpec)
    (h : ∀ name ∈ fields.names, ∀ param ∈ Param.privateParams, name ≠ param.id) :
    (putPrivate fields spec).extend fields = putPrivate fields spec := by
  refine FieldSet.extend_eq_self ?_
  intro member hmember
  rw [lookup_putPrivate _ _ (h member.1 (List.mem_map_of_mem hmember))]
  exact Members.lookup_of_mem fields.nodup hmember

/-! ### Reading the specification back -/

theorem lookup_putPrivate_privateExponent (fields : FieldSet) (spec : KeySpec) :
    (putPrivate fields spec).lookup Param.privateExponent.id =
      some (.string (Integer.encode spec.privateExponent)) := by
  have hput : (fields.putInteger .privateExponent spec.privateExponent).lookup
      Param.privateExponent.id = some (.string (Integer.encode spec.privateExponent)) :=
    (fields.lookup_put _ _ _).trans (if_pos rfl)
  rw [putPrivate]
  cases spec.crt? with
  | none => exact hput
  | some crt =>
    exact (lookup_putOthers _ _ (by decide)).trans ((lookup_putCrt _ _ (by decide)).trans hput)

theorem requiredInteger_putPrivate (fields : FieldSet) {spec : KeySpec}
    (h : spec.privateExponent ≠ 0) :
    (putPrivate fields spec).requiredInteger .privateExponent = .ok spec.privateExponent := by
  have hfield : (putPrivate fields spec).field? Param.privateExponent.id = _ :=
    Members.field?_eq_some_iff.mpr ⟨lookup_putPrivate_privateExponent fields spec, rfl⟩
  exact (Members.requiredInteger_of_field? hfield).trans (if_neg h)

section ReadBack

variable {fields : FieldSet} {spec : KeySpec} {crt : CrtValues}

/-- The list of other primes bears neither on the values of the first two primes nor on
their presence. -/
theorem field?_putOthers (fields : FieldSet) (others : List OtherPrime) :
    ∀ param ∈ Param.crtParams,
      (putOthers fields others).field? param.id = fields.field? param.id := by
  intro param hparam
  exact FieldSet.field?_congr (lookup_putOthers _ _ (by revert param; decide))

theorem readCrt_putPrivate (hcrt : spec.crt? = some crt) (h : crt.Positive) :
    readCrt (putPrivate fields spec) = .ok crt := by
  rw [putPrivate, hcrt]
  exact (readCrt_congr (field?_putOthers _ _)).trans (readCrt_putCrt _ h)

theorem hasCrt_putPrivate (hcrt : spec.crt? = some crt) :
    hasCrt (putPrivate fields spec) = true := by
  rw [putPrivate, hcrt]
  exact (hasCrt_congr (field?_putOthers _ _)).trans (hasCrt_putCrt _ _)

/-- Reading a field set that the private values of a specification were put into. Besides
them nothing is read but the public key, so the fields must not hold private values already. -/
theorem readSpec_putPrivate {publicKey : PublicKey} (hcrt : hasCrt fields = false)
    (hothers : fields.field? Param.otherPrimesInfo.id = none) (h : spec.Positive)
    (hmodulus : publicKey.modulus = spec.modulus) :
    readSpec (putPrivate fields spec) publicKey spec.privateExponent =
      .ok (spec.withPublicExponent publicKey.exponent) := by
  have hexponent : ∀ param ∈ Param.crtParams ++ [.otherPrimesInfo],
      (fields.putInteger .privateExponent spec.privateExponent).field? param.id =
        fields.field? param.id := by
    intro param hparam
    exact (fields.field?_putInteger _ _ _).trans (if_neg (by revert param; decide))
  -- the shape decides which values are there: none, or those of the first two primes, without
  -- or with the list of other primes
  cases spec with
  | plain n d =>
    have hplain : hasCrt (putPrivate fields (.plain n d)) = false :=
      (hasCrt_congr fun param hparam => hexponent param (by simp [hparam])).trans hcrt
    rw [readSpec, hplain]
    exact congrArg Except.ok (congrArg (KeySpec.plain · d) hmodulus)
  | twoPrime n e d crt =>
    have hnone : (putPrivate fields (.twoPrime n e d crt)).field? Param.otherPrimesInfo.id = none :=
      (FieldSet.field?_congr (lookup_putCrt _ _ (by decide))).trans
        ((hexponent _ (by simp)).trans hothers)
    rw [readSpec, hasCrt_putPrivate rfl, readCrt_putPrivate rfl (h.crt crt rfl), hnone]
    exact congrArg Except.ok (congrArg (KeySpec.twoPrime · _ d crt) hmodulus)
  | multiPrime n e d crt others =>
    have hne : others ≠ [] := h.others_ne_nil rfl
    have hlist : (putPrivate fields (.multiPrime n e d crt others)).field?
        Param.otherPrimesInfo.id = some (OtherPrime.listToJson others) := by
      show (putOthers _ others).field? _ = _
      rw [putOthers, if_neg (by simpa using hne)]
      exact (FieldSet.field?_put _ _ rfl _).trans (if_pos rfl)
    rw [readSpec, hasCrt_putPrivate rfl, readCrt_putPrivate rfl (h.crt crt rfl), hlist]
    show (OtherPrime.listOfJson _ >>= _) = _
    rw [OtherPrime.listOfJson_listToJson hne h.others]
    exact congrArg Except.ok (congrArg (KeySpec.multiPrime · _ d crt others) hmodulus)

end ReadBack

end PrivateJwk

end WebKey
