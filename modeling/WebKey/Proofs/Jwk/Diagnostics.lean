/-
What errors and events tell about secrets.

A secret integer may be replaced by another one. Up to the point where the key factory is asked for
a private key, reading only asks whether the secrets are there and are positive integers, so it goes
on or fails in the same way. From there on it may depend on the secrets whether the checking factory
accepts the numbers, and for which of four reasons it does not, but nothing else does.

* **`Members.Related`** — members that differ in their values only;
* **`FieldSet.SecretsReplaced`** — field sets that differ in the integers of private parameters;
* **`PrivateJwk.prepare`** — what is read before the key factory is asked for a private key;
* **`PrivateJwk.exists_of_prepare`** — the numbers that a specification is read with;
* **`PrivateJwk.Run`** and **`PrivateJwk.run_ofFields`** — the result and the events of reading;
* **`PrivateJwk.prepare_agree`** — replacing secrets does not change how reading goes so far;
* **`PrivateJwk.FailsEarly`** — reading fails with a malformed member, or before that point;
* **`PrivateJwk.Judged`** — what is left for the key factory to decide;
* **`PrivateJwk.diagnostics_hide_secrets`** — what errors and events depend on.
-/
import WebKey.Proofs.Jwk.Agreement
import WebKey.Proofs.Redaction
import WebKey.Proofs.Rsa.Refusals

namespace WebKey

/-! ### Members that differ in their values -/

namespace Members

/-- The members have the same names in the same order, and related values. -/
def Related (r : String → Json → Json → Prop) (members others : Members) : Prop :=
  List.Forall₂ (fun member other => member.1 = other.1 ∧ r member.1 member.2 other.2) members others

namespace Related

variable {r : String → Json → Json → Prop} {members others : Members}

theorem names_eq (h : Related r members others) : members.names = others.names := by
  induction h with
  | nil => rfl
  | cons h _ ih => exact congrArg₂ List.cons h.1 ih

theorem lookup (h : Related r members others) (name : String) :
    Option.Rel (r name) (members.lookup name) (others.lookup name) := by
  induction h with
  | nil => exact .none
  | @cons member other rest later h _ ih =>
    obtain ⟨first, value⟩ := member
    obtain ⟨_, value'⟩ := other
    obtain ⟨rfl, hvalue⟩ := h
    by_cases hname : name = first
    · subst hname
      rw [List.lookup_cons_self, List.lookup_cons_self]
      exact .some hvalue
    · rw [List.lookup_cons, List.lookup_cons, beq_eq_false_iff_ne.mpr hname]
      exact ih

end Related

end Members

/-! ### Replacing secrets -/

namespace Json

/-- The value is the text of a positive integer. -/
def IsPositiveInteger (value : Json) : Prop :=
  ∃ text n, value = .string text ∧ Integer.decode text = .ok n ∧ 0 < n

/-- The values of a member are the same, or the member is that of one of these parameters and both
are positive integers. -/
inductive Replaced (params : List Param) (name : String) : Json → Json → Prop where
  | same (value : Json) : Replaced params name value value
  | integer {value other : Json} (hname : ∃ param ∈ params, param.id = name)
      (hvalue : value.IsPositiveInteger) (hother : other.IsPositiveInteger) :
    Replaced params name value other

/-- The elements of a list of other primes differ in the integers of their parameters. -/
inductive ElementReplaced : Json → Json → Prop where
  | same (item : Json) : ElementReplaced item item
  | object {members others : Members}
      (h : Members.Related (Replaced Param.elementParams) members others) :
    ElementReplaced (.object members) (.object others)

/-- The values of a member of a field set differ in the integers of private parameters, also within
the list of other primes. -/
inductive SecretReplaced (name : String) : Json → Json → Prop where
  | value {value other : Json}
      (h : Replaced (.privateExponent :: Param.crtParams) name value other) :
    SecretReplaced name value other
  | list (hname : name = Param.otherPrimesInfo.id) {items others : List Json}
      (h : List.Forall₂ ElementReplaced items others) :
    SecretReplaced name (.array items) (.array others)

variable {value other : Json} {params : List Param} {name : String}

theorem isPositiveInteger_of_octets {text : String} (octets : List UInt8)
    (htext : text = Base64Url.encode octets) (hpos : 0 < Octets.toNat octets) :
    (string text).IsPositiveInteger :=
  ⟨text, _, rfl, Integer.decode_eq_ok_iff.mpr (.of_octets octets htext hpos), hpos⟩

theorem IsPositiveInteger.exists_eq_ok (h : value.IsPositiveInteger) (param : Param) :
    ∃ n, value.positiveInteger param = .ok n := by
  obtain ⟨text, n, rfl, hdecode, hpos⟩ := h
  exact ⟨n, positiveInteger_eq_ok_iff.mpr ⟨hpos, text, rfl, Integer.decode_eq_ok_iff.mp hdecode⟩⟩

theorem IsPositiveInteger.isNull_eq (h : value.IsPositiveInteger) : value.isNull = false := by
  obtain ⟨text, n, rfl, -⟩ := h
  rfl

theorem Replaced.isNull_eq (h : Replaced params name value other) :
    value.isNull = other.isNull := by
  cases h with
  | same => rfl
  | integer _ hvalue hother => rw [hvalue.isNull_eq, hother.isNull_eq]

theorem SecretReplaced.isNull_eq (h : SecretReplaced name value other) :
    value.isNull = other.isNull := by
  cases h with
  | value h => exact h.isNull_eq
  | list => rfl

/-- Both values are read as positive integers, or neither is and for the same reason. -/
theorem Replaced.positiveInteger_agree (h : Replaced params name value other) (param : Param) :
    FailAlike (value.positiveInteger param) (other.positiveInteger param) := by
  cases h with
  | same => exact .refl _
  | integer _ hvalue hother =>
    obtain ⟨n, hn⟩ := hvalue.exists_eq_ok param
    obtain ⟨m, hm⟩ := hother.exists_eq_ok param
    rw [hn, hm]
    exact .ok trivial

theorem SecretReplaced.positiveInteger_agree (h : SecretReplaced name value other)
    (param : Param) : FailAlike (value.positiveInteger param) (other.positiveInteger param) := by
  cases h with
  | value h => exact h.positiveInteger_agree param
  | list => exact .error rfl

end Json

/-- The field sets have the same names in the same order, and their values differ in the integers of
private parameters, also within the list of other primes. -/
def FieldSet.SecretsReplaced (fields others : FieldSet) : Prop :=
  Members.Related Json.SecretReplaced fields.members others.members

/-! ### Reading replaced secrets -/

theorem Members.requiredInteger_agree {members others : Members} {param : Param}
    {r : Json → Json → Prop} (hnull : ∀ value other, r value other → value.isNull = other.isNull)
    (hread : ∀ value other, r value other →
      FailAlike (value.positiveInteger param) (other.positiveInteger param))
    (h : Option.Rel r (members.lookup param.id) (others.lookup param.id)) :
    FailAlike (members.requiredInteger param) (others.requiredInteger param) := by
  have hfield := field?_rel hnull h
  rw [requiredInteger, requiredInteger]
  generalize members.field? param.id = found, others.field? param.id = found' at hfield
  cases hfield with
  | none => exact .error rfl
  | some h => exact (hread _ _ h).mapError_of_eq _

namespace OtherPrime

theorem ofJson_agree {item other : Json} (h : item.ElementReplaced other) :
    FailAlike (ofJson item) (ofJson other) := by
  cases h with
  | same => exact .refl _
  | @object members others h =>
    have hread : ∀ param : Param,
        FailAlike (members.requiredInteger param) (others.requiredInteger param) := fun param =>
      Members.requiredInteger_agree (fun _ _ => Json.Replaced.isNull_eq)
        (fun _ _ h => h.positiveInteger_agree param) (h.lookup param.id)
    cases h with
    | nil => exact .error rfl
    | cons =>
      rw [ofJson_object (List.cons_ne_nil _ _), ofJson_object (List.cons_ne_nil _ _)]
      refine (hread .primeFactor).bind fun _ _ _ => ?_
      refine (hread .factorCrtExponent).bind fun _ _ _ => ?_
      refine (hread .factorCrtCoefficient).bind fun _ _ _ => ?_
      exact .ok trivial

theorem mapM_ofJson_agree {items others : List Json}
    (h : List.Forall₂ Json.ElementReplaced items others) :
    FailAlike (items.mapM ofJson) (others.mapM ofJson) := by
  induction h with
  | nil => exact .ok trivial
  | cons h _ ih =>
    rw [List.mapM_cons, List.mapM_cons]
    refine (ofJson_agree h).bind fun _ _ _ => ih.bind fun _ _ _ => ?_
    exact .ok trivial

theorem listOfJson_agree {value other : Json}
    (h : Json.SecretReplaced Param.otherPrimesInfo.id value other) :
    FailAlike (listOfJson value) (listOfJson other) := by
  cases h with
  | value h =>
    cases h with
    | same => exact .refl _
    -- the list itself is no integer
    | integer hname => exact absurd hname (by decide)
  | list _ h =>
    -- an empty list is refused before its elements are read
    cases h with
    | nil => exact .error rfl
    | cons h hrest => exact mapM_ofJson_agree (.cons h hrest)

end OtherPrime

namespace FieldSet.SecretsReplaced

variable {fields others : FieldSet}

theorem names_eq (h : fields.SecretsReplaced others) : fields.names = others.names :=
  Members.Related.names_eq h

/-- All secrets are in private members. -/
theorem samePublic (h : fields.SecretsReplaced others) : fields.SamePublic others where
  names := h.names_eq
  values := by
    intro name hpublic
    have hlookup : Option.Rel (Json.SecretReplaced name) (fields.lookup name)
        (others.lookup name) := Members.Related.lookup h name
    generalize fields.lookup name = found, others.lookup name = found' at hlookup
    cases hlookup with
    | none => rfl
    | some h =>
      cases h with
      | value h =>
        cases h with
        | same => rfl
        | integer hname =>
          obtain ⟨param, hparam, rfl⟩ := hname
          exact absurd rfl (hpublic param (List.mem_append_left _ hparam))
      | list hname => exact absurd hname.symm (hpublic .otherPrimesInfo (by decide))

theorem without_eq (h : fields.SecretsReplaced others) :
    fields.without Param.privateParams = others.without Param.privateParams :=
  (samePublic_iff_without.mp h.samePublic).2

theorem field? (h : fields.SecretsReplaced others) (name : String) :
    Option.Rel (Json.SecretReplaced name) (fields.field? name) (others.field? name) :=
  Members.field?_rel (fun _ _ => Json.SecretReplaced.isNull_eq) (Members.Related.lookup h name)

theorem hasField_eq (h : fields.SecretsReplaced others) (name : String) :
    fields.hasField name = others.hasField name :=
  Members.hasField_eq_of_rel (h.field? name)

theorem requiredInteger_agree (h : fields.SecretsReplaced others) (param : Param) :
    FailAlike (fields.requiredInteger param) (others.requiredInteger param) :=
  Members.requiredInteger_agree (fun _ _ => Json.SecretReplaced.isNull_eq)
    (fun _ _ h => h.positiveInteger_agree param) (Members.Related.lookup h param.id)

end FieldSet.SecretsReplaced

namespace PrivateJwk

section Reading

variable {fields others : FieldSet}

theorem hasCrt_eq_of_secretsReplaced (h : fields.SecretsReplaced others) :
    hasCrt fields = hasCrt others := by
  simp only [hasCrt, h.hasField_eq]

theorem readCrt_agree (h : fields.SecretsReplaced others) :
    FailAlike (readCrt fields) (readCrt others) := by
  rw [readCrt, readCrt]
  refine (h.requiredInteger_agree .firstPrime).bind fun _ _ _ => ?_
  refine (h.requiredInteger_agree .secondPrime).bind fun _ _ _ => ?_
  refine (h.requiredInteger_agree .firstCrtExponent).bind fun _ _ _ => ?_
  refine (h.requiredInteger_agree .secondCrtExponent).bind fun _ _ _ => ?_
  refine (h.requiredInteger_agree .firstCrtCoefficient).bind fun _ _ _ => ?_
  exact .ok trivial

theorem readSpec_agree (h : fields.SecretsReplaced others) (publicKey : PublicKey) (d d' : ℕ) :
    Agree Eq (fun spec other => spec.shape = other.shape) (readSpec fields publicKey d)
      (readSpec others publicKey d') := by
  have hothers := h.field? Param.otherPrimesInfo.id
  rw [readSpec, readSpec, hasCrt_eq_of_secretsReplaced h]
  by_cases hcrt : hasCrt others = true
  · rw [if_pos hcrt, if_pos hcrt]
    refine (readCrt_agree h).bind fun _ _ _ => ?_
    generalize fields.field? Param.otherPrimesInfo.id = found,
      others.field? Param.otherPrimesInfo.id = found' at hothers
    cases hothers with
    | none => exact .ok rfl
    | some h => exact (OtherPrime.listOfJson_agree h).bind fun _ _ _ => .ok rfl
  · rw [if_neg hcrt, if_neg hcrt]
    exact .ok rfl

end Reading

/-! ### A run of reading -/

/-- What is read before the key factory is asked for a private key: the public half and the
specification. -/
def prepare (fields : FieldSet) (factory : KeyFactory) :
    Except RsaError (PublicJwk × KeySpec) := do
  let d ← fields.requiredInteger .privateExponent
  let publicHalf ← PublicJwk.ofFields (fields.without Param.privateParams) factory
  let spec ← readSpec fields publicHalf.key d
  return (publicHalf, spec)

/-- A specification is read from fields that hold the numbers of a key, which the key factory has
made a public key of. -/
theorem exists_of_prepare {fields : FieldSet} {factory : KeyFactory} {half : PublicJwk}
    {spec : KeySpec} (h : prepare fields factory = .ok (half, spec)) :
    ∃ n e d, HoldsNumbers fields n e d ∧ factory.publicKey n e = .ok half.key ∧
      HoldsSpec fields half.key.modulus half.key.exponent d spec := by
  simp only [prepare, bind_eq_ok_iff, FieldSet.requiredInteger_eq_ok_iff, readSpec_eq_ok_iff] at h
  obtain ⟨d, hd, half', hhalf, spec', hspec, hok⟩ := h
  obtain ⟨rfl, rfl⟩ := Prod.mk.inj (Except.ok.inj hok)
  obtain ⟨hkty, n, e, hn, he, publicKey, hpublic, rfl⟩ := publicHalf_ofFields_eq_ok_iff.mp hhalf
  exact ⟨n, e, d, ⟨hd, hkty, hn, he⟩, hpublic, hspec⟩

/-- How reading goes on with them. -/
def conclude (fields : FieldSet) (factory : KeyFactory) (half : PublicJwk) (spec : KeySpec) :
    Logged PrivateJwk := do
  if ignoresOtherPrimes fields then Logged.record .ignoredOtherPrimes
  let key ← (factory.privateKey spec).mapError (refusal fields spec.shape)
  let merged := fields.extend half.fields
  Logged.record (.decoded spec.shape merged.names)
  return ⟨merged, key, half⟩

/-- Reading is made of these two parts. -/
theorem ofFields_eq (fields : FieldSet) (factory : KeyFactory) :
    ofFields fields factory =
      liftM (prepare fields factory) >>= fun prepared =>
        conclude fields factory prepared.1 prepared.2 := by
  rw [ofFields, prepare]
  cases fields.requiredInteger .privateExponent with
  | error error => rfl
  | ok d =>
    cases PublicJwk.ofFields (fields.without Param.privateParams) factory with
    | error error => rfl
    | ok half =>
      show (liftM (readSpec fields half.key d) >>= _ : Logged PrivateJwk) =
        (liftM (readSpec fields half.key d >>= _) >>= _)
      cases readSpec fields half.key d with
      | error error => rfl
      | ok spec => rfl

/-- The events before the key factory is asked for a private key. -/
def notices (fields : FieldSet) : List Event :=
  if ignoresOtherPrimes fields then [.ignoredOtherPrimes] else []

theorem ofFields_of_prepare_error {fields : FieldSet} {factory : KeyFactory} {error : RsaError}
    (h : prepare fields factory = .error error) :
    ofFields fields factory = ⟨[], .error error⟩ := by
  rw [ofFields_eq, h]
  rfl

theorem conclude_eq (fields : FieldSet) (factory : KeyFactory) (half : PublicJwk)
    (spec : KeySpec) :
    conclude fields factory half spec =
      match factory.privateKey spec with
      | .error cause => ⟨notices fields, .error (refusal fields spec.shape cause)⟩
      | .ok key => ⟨notices fields ++ [.decoded spec.shape (fields.extend half.fields).names],
          .ok ⟨fields.extend half.fields, key, half⟩⟩ := by
  rw [conclude, notices]
  cases ignoresOtherPrimes fields with
  | false =>
    cases factory.privateKey spec with
    | error cause => rfl
    | ok key => rfl
  | true =>
    cases factory.privateKey spec with
    | error cause => rfl
    | ok key => rfl

/-- A run of reading fails before the key factory is asked for a private key, with its refusal, or
not at all. -/
inductive Run (fields : FieldSet) (factory : KeyFactory) : Logged PrivateJwk → Prop where
  | unprepared {error : RsaError} (h : prepare fields factory = .error error) :
    Run fields factory ⟨[], .error error⟩
  | refused {half : PublicJwk} {spec : KeySpec} {cause : RsaError}
      (h : prepare fields factory = .ok (half, spec))
      (hkey : factory.privateKey spec = .error cause) :
    Run fields factory ⟨notices fields, .error (refusal fields spec.shape cause)⟩
  | read {half : PublicJwk} {spec : KeySpec} {key : PrivateKey}
      (h : prepare fields factory = .ok (half, spec)) (hkey : factory.privateKey spec = .ok key) :
    Run fields factory ⟨notices fields ++ [.decoded spec.shape (fields.extend half.fields).names],
      .ok ⟨fields.extend half.fields, key, half⟩⟩

theorem run_ofFields (fields : FieldSet) (factory : KeyFactory) :
    Run fields factory (ofFields fields factory) := by
  rw [ofFields_eq]
  cases h : prepare fields factory with
  | error error => exact .unprepared h
  | ok prepared =>
    obtain ⟨half, spec⟩ := prepared
    show Run fields factory (conclude fields factory half spec)
    rw [conclude_eq]
    cases hkey : factory.privateKey spec with
    | error cause => exact .refused h hkey
    | ok key => exact .read h hkey

/-! ### Two runs -/

section TwoRuns

variable {fields others : FieldSet} {factory : KeyFactory}

/-- **Up to the key factory's decision on the private key, reading goes the same way.** -/
theorem prepare_agree (h : fields.SecretsReplaced others) (factory : KeyFactory) :
    Agree Eq (fun prepared other => prepared.1 = other.1 ∧ prepared.2.shape = other.2.shape)
      (prepare fields factory) (prepare others factory) := by
  rw [prepare, prepare, h.without_eq]
  refine (h.requiredInteger_agree .privateExponent).bind fun d d' _ => ?_
  refine (Agree.of_eq (fun _ => rfl) rfl).bind ?_
  rintro half _ rfl
  refine (readSpec_agree h half.key d d').bind fun spec other hshape => ?_
  exact .ok ⟨rfl, hshape⟩

theorem notices_eq (h : fields.SecretsReplaced others) : notices fields = notices others := by
  rw [notices, notices, ignoresOtherPrimes, ignoresOtherPrimes, hasCrt_eq_of_secretsReplaced h,
    h.hasField_eq]

/-- A refusal says that the key is not supported, whatever its cause. -/
theorem kind_refusal (shape : KeyShape) (cause : RsaError) :
    (refusal fields shape cause).kind = .unsupportedKeyShape := by
  rw [refusal]
  split
  · rename_i h
    exact beq_iff_eq.mp h
  · rfl

/-- Reading fails with a malformed member, or before the key factory is asked for a private key. -/
def FailsEarly (fields : FieldSet) (factory : KeyFactory) : Prop :=
  (∃ error, (ofFields fields factory).result = .error error ∧ error.kind = .malformedField) ∨
    ∃ error, prepare fields factory = .error error

/-- Malformed members are found before the key factory is asked for a private key. -/
theorem failsEarly_iff :
    FailsEarly fields factory ↔ ∃ error, prepare fields factory = .error error := by
  refine ⟨?_, .inr⟩
  rintro (⟨error, herror, hkind⟩ | hprepare)
  · have hrun := run_ofFields fields factory
    generalize ofFields fields factory = run at hrun herror
    cases hrun with
    | unprepared h => exact ⟨_, h⟩
    | refused =>
      obtain rfl := Except.error.inj herror
      rw [kind_refusal] at hkind
      exact absurd hkind (by decide)
    | read => exact absurd herror ok_ne_error
  · exact hprepare

theorem not_failsEarly_of_ok {jwk : PrivateJwk} (h : (ofFields fields factory).result = .ok jwk) :
    ¬FailsEarly fields factory := by
  intro hearly
  obtain ⟨error, herror⟩ := failsEarly_iff.mp hearly
  rw [ofFields_of_prepare_error herror] at h
  exact absurd h.symm ok_ne_error

/-- That a key was decoded is recorded if it was, and else it is not. -/
theorem decoded_iff :
    (∃ shape names, .decoded shape names ∈ (ofFields fields factory).events) ↔
      ∃ jwk, (ofFields fields factory).result = .ok jwk := by
  have hnotices : ∀ shape names, .decoded shape names ∉ notices fields := by
    intro shape names
    rw [notices]
    split
    · simp
    · simp
  have hrun := run_ofFields fields factory
  generalize ofFields fields factory = run at hrun
  cases hrun with
  | unprepared => simp
  | refused => simp [hnotices]
  | @read half spec key =>
    exact iff_of_true ⟨spec.shape, _, List.mem_append_right _ (List.mem_singleton_self _)⟩ ⟨_, rfl⟩

/-- When both field sets are read, the same events are recorded. -/
theorem events_eq (h : fields.SecretsReplaced others) {jwk other : PrivateJwk}
    (hjwk : (ofFields fields factory).result = .ok jwk)
    (hother : (ofFields others factory).result = .ok other) :
    (ofFields fields factory).events = (ofFields others factory).events := by
  have hprepare := prepare_agree h factory
  have hrun := run_ofFields fields factory
  have hrun' := run_ofFields others factory
  generalize ofFields fields factory = run at hrun hjwk
  generalize ofFields others factory = run' at hrun' hother
  cases hrun with
  | unprepared => exact absurd hjwk.symm ok_ne_error
  | refused => exact absurd hjwk.symm ok_ne_error
  | read hfields =>
    cases hrun' with
    | unprepared => exact absurd hother.symm ok_ne_error
    | refused => exact absurd hother.symm ok_ne_error
    | read hothers =>
      rw [hfields, hothers] at hprepare
      cases hprepare with
      | ok hsame =>
        obtain ⟨rfl, hshape⟩ := hsame
        dsimp only at hshape ⊢
        rw [notices_eq h, hshape, FieldSet.names_extend, FieldSet.names_extend, h.names_eq]

end TwoRuns

/-! ### What is left to the key factory -/

section Judged

variable {maxSize : ℕ} {fields others : FieldSet} {half : PublicJwk} {spec : KeySpec}

theorem HoldsSpec.others_ne_nil {n e d : ℕ} (h : HoldsSpec fields n e d spec)
    (hshape : spec.shape = .multiPrime) : spec.others ≠ [] := by
  cases h with
  | plain => exact absurd hshape (by simp [KeySpec.shape])
  | twoPrime => exact absurd hshape (by simp [KeySpec.shape])
  | multiPrime hcrt hitems hne hothers =>
    rintro rfl
    exact hne (List.forall₂_nil_right_iff.mp hothers)

theorem HoldsSpec.goodPublic {n e d : ℕ} (h : HoldsSpec fields n e d spec)
    (hn : PublicKey.GoodModulus maxSize n) (he : PublicKey.GoodExponent e) :
    spec.GoodPublic maxSize := by
  obtain ⟨hmodulus, -, hexponent, -⟩ := h.numbers
  refine ⟨hmodulus ▸ hn, fun e' he' => ?_, h.others_ne_nil⟩
  exact hexponent e' he' ▸ he

/-- The public numbers of a specification have been checked with the public key. -/
theorem goodPublic_of_prepare
    (h : prepare fields (KeyFactory.checking maxSize) = .ok (half, spec)) :
    spec.GoodPublic maxSize := by
  obtain ⟨n, e, d, -, hpublic, hspec⟩ := exists_of_prepare h
  obtain ⟨⟨hn, he⟩, hkey⟩ := PublicKey.ofNumbers_eq_ok_iff.mp hpublic
  rw [hkey] at hspec
  exact hspec.goodPublic hn he

/-- The text of a refusal up to its cause. -/
def refusalOpening (shape : KeyShape) (names : List String) : String :=
  "unsupported RSA key: " ++
    s!"unable to create {shape.name} RSA private key from JWK {Members.describe names}: "

theorem message_privateKeyRefused (shape : KeyShape) (names : List String) (cause : RsaError) :
    (RsaError.privateKeyRefused shape names cause).message =
      refusalOpening shape names ++ cause.message :=
  String.append_assoc.symm

/-- Reading succeeds, or the refusal of the key factory is reported, with a text that begins in this
way and goes on with one of four causes. -/
inductive Judged (opening : String) : Except RsaError PrivateJwk → Prop where
  | read (jwk : PrivateJwk) : Judged opening (.ok jwk)
  | refused {error cause : RsaError} (hcause : cause ∈ RsaError.inconsistencies)
      (hkind : error.kind = .unsupportedKeyShape)
      (hmessage : error.message = opening ++ cause.message) :
    Judged opening (.error error)

theorem judged_of_prepare (h : prepare fields (KeyFactory.checking maxSize) = .ok (half, spec)) :
    Judged (refusalOpening spec.shape fields.names)
      (ofFields fields (KeyFactory.checking maxSize)).result := by
  have hcauses := PrivateKey.ofSpec_failsWithin (goodPublic_of_prepare h)
  have hrun := run_ofFields fields (KeyFactory.checking maxSize)
  generalize ofFields fields (KeyFactory.checking maxSize) = run at hrun
  cases hrun with
  | unprepared hfails => exact absurd (h.symm.trans hfails) ok_ne_error
  | @refused half' spec' cause hprepare hkey =>
    obtain ⟨rfl, rfl⟩ := Prod.mk.inj (Except.ok.inj (h.symm.trans hprepare))
    have hcause : cause ∈ RsaError.inconsistencies := hcauses cause hkey
    refine .refused hcause (kind_refusal _ _) ?_
    rw [refusal, RsaError.isUnsupported_of_mem_inconsistencies cause hcause, ←
      message_privateKeyRefused]
    rfl
  | read => exact .read _

/-- **Errors and events do not depend on secrets.** A failure that is not left to the key factory is
the same, with its events, whatever the secrets are. If the decision is left to the checking
factory, reading succeeds or fails with a text that is the same up to one of four causes. That a key
was decoded is recorded exactly if it was, and then all events are the same. -/
theorem diagnostics_hide_secrets (maxSize : ℕ) (fields others : FieldSet)
    (h : fields.SecretsReplaced others) :
    (FailsEarly fields (KeyFactory.checking maxSize) →
      ∃ error,
        (ofFields fields (KeyFactory.checking maxSize)).result = .error error ∧
        (ofFields others (KeyFactory.checking maxSize)).result = .error error ∧
        (ofFields fields (KeyFactory.checking maxSize)).events =
          (ofFields others (KeyFactory.checking maxSize)).events) ∧
    (¬FailsEarly fields (KeyFactory.checking maxSize) →
      ∃ shape,
        Judged (refusalOpening shape fields.names)
          (ofFields fields (KeyFactory.checking maxSize)).result ∧
        Judged (refusalOpening shape fields.names)
          (ofFields others (KeyFactory.checking maxSize)).result) ∧
    (∀ any : FieldSet,
      (∃ shape names,
        .decoded shape names ∈ (ofFields any (KeyFactory.checking maxSize)).events) ↔
      ∃ jwk, (ofFields any (KeyFactory.checking maxSize)).result = .ok jwk) ∧
    ∀ jwk other, (ofFields fields (KeyFactory.checking maxSize)).result = .ok jwk →
      (ofFields others (KeyFactory.checking maxSize)).result = .ok other →
      (ofFields fields (KeyFactory.checking maxSize)).events =
        (ofFields others (KeyFactory.checking maxSize)).events := by
  have hprepare := prepare_agree h (KeyFactory.checking maxSize)
  refine ⟨fun hearly => ?_, fun hlate => ?_, fun any => decoded_iff,
    fun jwk other => events_eq h⟩
  · obtain ⟨error, herror⟩ := failsEarly_iff.mp hearly
    rw [herror] at hprepare
    generalize hother : prepare others (KeyFactory.checking maxSize) = prepared at hprepare
    cases hprepare with
    | error hsame =>
      obtain rfl := hsame
      rw [ofFields_of_prepare_error herror, ofFields_of_prepare_error hother]
      exact ⟨error, rfl, rfl, rfl⟩
  · rw [failsEarly_iff, not_exists] at hlate
    generalize hfields : prepare fields (KeyFactory.checking maxSize) = prepared at hprepare hlate
    generalize hother : prepare others (KeyFactory.checking maxSize) = prepared' at hprepare
    cases hprepare with
    | error => exact absurd rfl (hlate _)
    | ok hsame =>
      refine ⟨_, judged_of_prepare hfields, ?_⟩
      rw [hsame.2, h.names_eq]
      exact judged_of_prepare hother

/-- The fields of `foreignFields` with another private exponent and another coefficient, which do
not fit the rest. -/
def misfitFields : FieldSet where
  members :=
    [("d", .string "Ag"), ("kty", .null), ("n", .string "CX8"), ("e", .string "Bw"),
      ("p", .string "Cw"), ("q", .string "DQ"), ("dp", .string "Aw"), ("dq", .string "Bw"),
      ("qi", .string "Bg"), ("oth", .array [.object [("kid", .null), ("t", .string "Bw"),
        ("r", .string "EQ"), ("d", .string "Bw")]])]
  nodup := by decide

theorem foreignFields_secretsReplaced : foreignFields.SecretsReplaced misfitFields := by
  have hsame : ∀ name value, Json.SecretReplaced name value value :=
    fun name value => .value (.same value)
  have hexponent : Json.SecretReplaced "d" (.string "AGc") (.string "Ag") :=
    .value (.integer ⟨.privateExponent, by decide, rfl⟩
      (Json.isPositiveInteger_of_octets [0, 103] rfl (by decide))
      (Json.isPositiveInteger_of_octets [2] rfl (by decide)))
  have hcoefficient : Json.Replaced Param.elementParams "t" (.string "BQ") (.string "Bw") :=
    .integer ⟨.factorCrtCoefficient, by decide, rfl⟩
      (Json.isPositiveInteger_of_octets [5] rfl (by decide))
      (Json.isPositiveInteger_of_octets [7] rfl (by decide))
  have helement : Json.ElementReplaced
      (.object [("kid", .null), ("t", .string "BQ"), ("r", .string "EQ"), ("d", .string "Bw")])
      (.object [("kid", .null), ("t", .string "Bw"), ("r", .string "EQ"), ("d", .string "Bw")]) :=
    .object (.cons ⟨rfl, .same _⟩ (.cons ⟨rfl, hcoefficient⟩
      (.cons ⟨rfl, .same _⟩ (.cons ⟨rfl, .same _⟩ .nil))))
  exact .cons ⟨rfl, hexponent⟩ (.cons ⟨rfl, hsame _ _⟩ (.cons ⟨rfl, hsame _ _⟩
    (.cons ⟨rfl, hsame _ _⟩ (.cons ⟨rfl, hsame _ _⟩ (.cons ⟨rfl, hsame _ _⟩
    (.cons ⟨rfl, hsame _ _⟩ (.cons ⟨rfl, hsame _ _⟩ (.cons ⟨rfl, hsame _ _⟩
    (.cons ⟨rfl, .list rfl (.cons helement .nil)⟩ .nil)))))))))

/-- The first fields are read. The others are refused for one of the four causes, which is all that
the error tells beside the names of the members. -/
theorem misfitFields_are_diagnosed :
    foreignFields.SecretsReplaced misfitFields ∧
    (∃ jwk, (ofFields foreignFields (KeyFactory.checking 12)).result = .ok jwk) ∧
    ∃ shape error cause,
      (ofFields misfitFields (KeyFactory.checking 12)).result = .error error ∧
      error.kind = .unsupportedKeyShape ∧ cause ∈ RsaError.inconsistencies ∧
      error.message = refusalOpening shape foreignFields.names ++ cause.message ∧
      ∀ shape names,
        .decoded shape names ∉ (ofFields misfitFields (KeyFactory.checking 12)).events := by
  obtain ⟨jwk, hjwk, -⟩ := exists_of_foreignFields
  have hmisfit : (ofFields misfitFields (KeyFactory.checking 12)).result =
      .error (.privateKeyRefused .multiPrime misfitFields.names .invalidExponent) := rfl
  obtain ⟨-, hlate, hdecoded, -⟩ :=
    diagnostics_hide_secrets 12 foreignFields misfitFields foreignFields_secretsReplaced
  obtain ⟨shape, -, hjudged⟩ := hlate (not_failsEarly_of_ok hjwk)
  have hevents : ∀ shape names,
      .decoded shape names ∉ (ofFields misfitFields (KeyFactory.checking 12)).events := by
    intro shape names h
    obtain ⟨other, hother⟩ := (hdecoded misfitFields).mp ⟨shape, names, h⟩
    exact absurd (hother.symm.trans hmisfit) ok_ne_error
  rw [hmisfit] at hjudged
  cases hjudged with
  | refused hcause hkind hmessage =>
    exact ⟨foreignFields_secretsReplaced, ⟨jwk, hjwk⟩, shape, _, _, hmisfit, hkind, hcause,
      hmessage, hevents⟩

end Judged

end PrivateJwk

end WebKey
