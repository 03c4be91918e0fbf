/-
Why a private key is not read from a field set.

Reading makes its checks in a fixed order and reports the first that fails. Each check
that is about a member reports a malformed value of that member. The others, which are
those of the key type and of the two keys that the key factory makes, report that the key
is not supported, whatever the factory's own error says.

* **`PrivateJwk.Check`**, **`PrivateJwk.checks`** — the checks, and their order;
* **`PrivateJwk.Fails`** — when a check fails, and with which error;
* **`PrivateJwk.performs_ofFields`** — these are the checks that reading makes;
* **`PrivateJwk.Fails.attribution`** — what an error says about the check that failed;
* **`PrivateJwk.ofFields_reports_first_failure`** — the error of the first check that fails
  is the one that is reported.
-/
import WebKey.Proofs.FirstFailure
import WebKey.Proofs.Jwk.Grammar

namespace WebKey

/-- Reading an element that is not empty makes the checks of its three integers, in their order. -/
theorem OtherPrime.performs_ofJson_object {κ : Type} {fails : κ → RsaError → Prop}
    {members : Members} {prime exponent coefficient : κ} (hne : members ≠ [])
    (hprime : Performs fails [prime] (members.requiredInteger .primeFactor))
    (hexponent : Performs fails [exponent] (members.requiredInteger .factorCrtExponent))
    (hcoefficient : Performs fails [coefficient] (members.requiredInteger .factorCrtCoefficient)) :
    Performs fails [prime, exponent, coefficient] (ofJson (.object members)) := by
  rw [ofJson_object hne]
  refine hprime.bind fun _ _ => ?_
  refine hexponent.bind fun _ _ => ?_
  exact hcoefficient.bind_pure _

namespace PrivateJwk

/-! ### Checks -/

/-- A check that is made while a private key is read. -/
inductive Check where
  /-- a parameter of the key holds a positive integer -/
  | integer (param : Param)
  /-- the key type is that of RSA keys, if there is one -/
  | keyType
  /-- the key factory makes the public key -/
  | publicKey
  /-- the list of other primes is an array that is not empty -/
  | list (value : Json)
  /-- an element of the list is an object that is not empty -/
  | element (item : Json)
  /-- a parameter of an element holds a positive integer -/
  | elementInteger (item : Json) (param : Param)
  /-- the key factory makes the private key -/
  | privateKey

/-- The checks up to the public key. -/
def leadingChecks : List Check :=
  [.integer .privateExponent, .keyType, .integer .modulus, .integer .publicExponent, .publicKey]

def elementChecks (item : Json) : List Check :=
  .element item :: Param.elementParams.map (.elementInteger item)

/-- The checks of a list of other primes: its form, and then one element after the other. -/
def listChecks (value : Json) : List Check :=
  .list value ::
    match value with
    | .array items => items.flatMap elementChecks
    | _ => []

/-- The checks of the prime factors, which are made if there is a value of the first two. -/
def factorChecks (fields : FieldSet) : List Check :=
  if hasCrt fields then
    Param.crtParams.map .integer ++
      match fields.field? Param.otherPrimesInfo.id with
      | none => []
      | some value => listChecks value
  else []

/-- All checks, in their order. -/
def checks (fields : FieldSet) : List Check :=
  leadingChecks ++ (factorChecks fields ++ [.privateKey])

/-- The member that a check is about. -/
def Check.member? : Check → Option String
  | .integer param | .elementInteger _ param => some param.id
  | .list _ | .element _ => some Param.otherPrimesInfo.id
  | .keyType | .publicKey | .privateKey => none

/-! ### Failures -/

/-- The key factory refuses the specification that the field set holds. -/
def Refuses (fields : FieldSet) (factory : KeyFactory) (spec : KeySpec) (cause : RsaError) : Prop :=
  ∃ n e d publicKey, fields.members.HoldsInteger .privateExponent d ∧
    fields.members.HoldsInteger .modulus n ∧ fields.members.HoldsInteger .publicExponent e ∧
    factory.publicKey n e = .ok publicKey ∧
    HoldsSpec fields publicKey.modulus publicKey.exponent d spec ∧
    factory.privateKey spec = .error cause

/-- The check fails with this error. -/
inductive Fails (fields : FieldSet) (factory : KeyFactory) : Check → RsaError → Prop where
  | integer {param : Param} {fault : MemberFault} (h : fields.members.IntegerFault param fault) :
    Fails fields factory (.integer param) (.malformed param.id fault)
  | keyType {value : Json} (hvalue : fields.lookup Param.keyType.id = some value)
      (hnull : value.isNull = false) (hne : value ≠ .string rsaKeyType) :
    Fails fields factory .keyType (.keyTypeNotRsa value)
  | publicKey {n e : ℕ} {cause : RsaError} (hn : fields.members.HoldsInteger .modulus n)
      (he : fields.members.HoldsInteger .publicExponent e)
      (hcause : factory.publicKey n e = .error cause) :
    Fails fields factory .publicKey
      (.publicKeyRefused (fields.without Param.privateParams).names cause)
  | notArray {value : Json} (h : value.kind ≠ .array) :
    Fails fields factory (.list value)
      (.malformed Param.otherPrimesInfo.id (.notArray value.kind))
  | noElements :
    Fails fields factory (.list (.array [])) (.malformed Param.otherPrimesInfo.id .noElements)
  | nullElement :
    Fails fields factory (.element .null) (.malformed Param.otherPrimesInfo.id .nullElement)
  | notObject {item : Json} (hnull : item.kind ≠ .null) (hobject : item.kind ≠ .object) :
    Fails fields factory (.element item)
      (.malformed Param.otherPrimesInfo.id (.notObject item.kind))
  | emptyElement :
    Fails fields factory (.element (.object []))
      (.malformed Param.otherPrimesInfo.id .emptyElement)
  | elementInteger {members : Members} {param : Param} {fault : MemberFault}
      (h : members.IntegerFault param fault) :
    Fails fields factory (.elementInteger (.object members) param) (.malformed param.id fault)
  /-- an error of the factory that says that the key is not supported is passed on -/
  | unsupported {spec : KeySpec} {cause : RsaError} (h : Refuses fields factory spec cause)
      (hkind : cause.kind = .unsupportedKeyShape) :
    Fails fields factory .privateKey cause
  /-- any other is explained -/
  | refused {spec : KeySpec} {cause : RsaError} (h : Refuses fields factory spec cause)
      (hkind : cause.kind ≠ .unsupportedKeyShape) :
    Fails fields factory .privateKey (.privateKeyRefused spec.shape fields.names cause)

section Checks

variable {fields : FieldSet} {factory : KeyFactory}

/-- An error tells whether the check that failed is about a member, and about which. -/
theorem Fails.attribution {check : Check} {error : RsaError}
    (h : Fails fields factory check error) :
    (∀ member, check.member? = some member →
      error.kind = .malformedField ∧ error.member? = some member) ∧
    (check.member? = none → error.kind = .unsupportedKeyShape) := by
  constructor
  · intro member hmember
    cases h with
    | unsupported => exact absurd hmember (by simp [Check.member?])
    | refused => exact absurd hmember (by simp [Check.member?])
    | keyType => exact absurd hmember (by simp [Check.member?])
    | publicKey => exact absurd hmember (by simp [Check.member?])
    | integer | notArray | noElements | nullElement | notObject | emptyElement | elementInteger =>
      exact ⟨rfl, hmember⟩
  · intro hmember
    cases h with
    | unsupported _ hkind => exact hkind
    | refused => rfl
    | keyType => rfl
    | publicKey => rfl
    | integer | notArray | noElements | nullElement | notObject | emptyElement | elementInteger =>
      exact absurd hmember (by simp [Check.member?])

/-! ### The checks that reading makes -/

theorem fails_integer_iff {param : Param} {error : RsaError} :
    Fails fields factory (.integer param) error ↔ fields.requiredInteger param = .error error := by
  rw [FieldSet.requiredInteger, Members.requiredInteger_eq_error_iff]
  constructor
  · intro h
    cases h with
    | integer h => exact ⟨_, h, rfl⟩
  · rintro ⟨fault, h, rfl⟩
    exact .integer h

theorem performs_requiredInteger (param : Param) :
    Performs (Fails fields factory) [.integer param] (fields.requiredInteger param) :=
  performs_single fun _ => fails_integer_iff.symm

theorem passes_integer_iff {param : Param} :
    (∀ error, ¬Fails fields factory (.integer param) error) ↔
      ∃ value, fields.members.HoldsInteger param value := by
  simp only [fails_integer_iff, ← FieldSet.requiredInteger_eq_ok_iff]
  cases fields.requiredInteger param with
  | error error => simp
  | ok value => simp

theorem performs_checkKeyType :
    Performs (Fails fields factory) [.keyType] fields.checkKeyType := by
  refine performs_single fun error => ?_
  rw [FieldSet.checkKeyType_eq_error_iff]
  constructor
  · rintro ⟨value, hvalue, hnull, hne, rfl⟩
    exact .keyType hvalue hnull hne
  · intro h
    cases h with
    | keyType hvalue hnull hne => exact ⟨_, hvalue, hnull, hne, rfl⟩

theorem performs_publicKey {n e : ℕ} (hn : fields.members.HoldsInteger .modulus n)
    (he : fields.members.HoldsInteger .publicExponent e) :
    Performs (Fails fields factory) [.publicKey] ((factory.publicKey n e).mapError
      (.publicKeyRefused (fields.without Param.privateParams).names)) := by
  refine performs_single fun error => ?_
  rw [mapError_eq_error_iff]
  constructor
  · rintro ⟨cause, hcause, rfl⟩
    exact .publicKey hn he hcause
  · intro h
    cases h with
    | publicKey hn' he' hcause =>
      rw [hn'.unique hn, he'.unique he] at hcause
      exact ⟨_, hcause, rfl⟩

theorem performs_publicHalf :
    Performs (Fails fields factory)
      [.keyType, .integer .modulus, .integer .publicExponent, .publicKey]
      (PublicJwk.ofFields (fields.without Param.privateParams) factory) := by
  rw [publicHalf_ofFields]
  refine performs_checkKeyType.bind fun _ _ => ?_
  refine (performs_requiredInteger .modulus).bind fun n hn => ?_
  refine (performs_requiredInteger .publicExponent).bind fun e he => ?_
  rw [FieldSet.requiredInteger_eq_ok_iff] at hn he
  exact (performs_publicKey hn he).bind_pure _

theorem performs_elementInteger (members : Members) (param : Param) :
    Performs (Fails fields factory) [.elementInteger (.object members) param]
      (members.requiredInteger param) := by
  refine performs_single fun error => ?_
  rw [Members.requiredInteger_eq_error_iff]
  constructor
  · rintro ⟨fault, h, rfl⟩
    exact .elementInteger h
  · intro h
    cases h with
    | elementInteger h => exact ⟨_, h, rfl⟩

theorem performs_ofJson (item : Json) :
    Performs (Fails fields factory) (elementChecks item) (OtherPrime.ofJson item) := by
  by_cases hnull : item.kind = .null
  · obtain rfl := Json.kind_eq_null_iff.mp hnull
    refine performs_error .nullElement fun cause h => ?_
    cases h with
    | nullElement => rfl
    | notObject hnull _ => exact absurd rfl hnull
  by_cases hobject : item.kind = .object
  · obtain ⟨members, rfl⟩ := Json.kind_eq_object_iff.mp hobject
    by_cases hempty : members = []
    · subst hempty
      refine performs_error .emptyElement fun cause h => ?_
      cases h with
      | notObject _ hobject => exact absurd rfl hobject
      | emptyElement => rfl
    · have hpasses : ∀ cause, ¬Fails fields factory (.element (.object members)) cause := by
        intro cause h
        cases h with
        | notObject _ hobject => exact hobject rfl
        | emptyElement => exact hempty rfl
      exact Performs.cons_of_passes hpasses (OtherPrime.performs_ofJson_object hempty
        (performs_elementInteger members .primeFactor)
        (performs_elementInteger members .factorCrtExponent)
        (performs_elementInteger members .factorCrtCoefficient))
  · rw [OtherPrime.ofJson_of_kind_ne hnull hobject]
    refine performs_error (.notObject hnull hobject) fun cause h => ?_
    cases h with
    | nullElement => exact absurd rfl hnull
    | notObject => rfl
    | emptyElement => exact absurd rfl hobject

theorem performs_listOfJson (value : Json) :
    Performs (Fails fields factory) (listChecks value) (OtherPrime.listOfJson value) := by
  by_cases harray : value.kind = .array
  · obtain ⟨items, rfl⟩ := Json.kind_eq_array_iff.mp harray
    cases items with
    | nil =>
      refine performs_error .noElements fun cause h => ?_
      cases h with
      | notArray harray => exact absurd rfl harray
      | noElements => rfl
    | cons item rest =>
      refine Performs.cons_of_passes (fun cause h => ?_)
        (Performs.mapM performs_ofJson (item :: rest))
      cases h with
      | notArray harray => exact harray rfl
  · rw [OtherPrime.listOfJson_of_kind_ne harray]
    refine performs_error (.notArray harray) fun cause h => ?_
    cases h with
    | notArray => rfl
    | noElements => exact absurd rfl harray

theorem performs_readCrt :
    Performs (Fails fields factory) (Param.crtParams.map .integer) (readCrt fields) := by
  refine (performs_requiredInteger .firstPrime).bind fun p _ => ?_
  refine (performs_requiredInteger .secondPrime).bind fun q _ => ?_
  refine (performs_requiredInteger .firstCrtExponent).bind fun dp _ => ?_
  refine (performs_requiredInteger .secondCrtExponent).bind fun dq _ => ?_
  exact (performs_requiredInteger .firstCrtCoefficient).bind_pure _

theorem performs_readSpec (publicKey : PublicKey) (d : ℕ) :
    Performs (Fails fields factory) (factorChecks fields) (readSpec fields publicKey d) := by
  rw [readSpec, factorChecks]
  by_cases hcrt : hasCrt fields = true
  · rw [if_pos hcrt, if_pos hcrt]
    refine performs_readCrt.bind fun crt _ => ?_
    cases fields.field? Param.otherPrimesInfo.id with
    | none => exact performs_ok _
    | some value => exact (performs_listOfJson value).bind_pure _
  · rw [if_neg hcrt, if_neg hcrt]
    exact performs_ok _

theorem performs_privateKey {n e d : ℕ} {publicKey : PublicKey} {spec : KeySpec}
    (hd : fields.members.HoldsInteger .privateExponent d)
    (hn : fields.members.HoldsInteger .modulus n)
    (he : fields.members.HoldsInteger .publicExponent e)
    (hpublic : factory.publicKey n e = .ok publicKey)
    (hspec : HoldsSpec fields publicKey.modulus publicKey.exponent d spec) :
    Performs (Fails fields factory) [.privateKey]
      ((factory.privateKey spec).mapError (refusal fields spec.shape)) := by
  -- the specification is the one that the field set holds, so it is the one that is refused
  have hrefuses : ∀ other cause, Refuses fields factory other cause ↔
      other = spec ∧ factory.privateKey spec = .error cause := by
    intro other cause
    constructor
    · rintro ⟨n', e', d', publicKey', hd', hn', he', hpublic', hspec', hcause⟩
      rw [hn'.unique hn, he'.unique he] at hpublic'
      obtain rfl := Except.ok.inj (hpublic.symm.trans hpublic')
      rw [hd'.unique hd] at hspec'
      obtain rfl := hspec'.unique hspec
      exact ⟨rfl, hcause⟩
    · rintro ⟨rfl, hcause⟩
      exact ⟨n, e, d, publicKey, hd, hn, he, hpublic, hspec, hcause⟩
  refine performs_single fun error => ?_
  rw [mapError_eq_error_iff]
  constructor
  · rintro ⟨cause, hcause, rfl⟩
    rw [refusal, RsaError.isUnsupported]
    by_cases hkind : cause.kind = .unsupportedKeyShape
    · rw [if_pos (beq_iff_eq.mpr hkind)]
      exact .unsupported ((hrefuses spec cause).mpr ⟨rfl, hcause⟩) hkind
    · rw [if_neg (by simpa using hkind)]
      exact .refused ((hrefuses spec cause).mpr ⟨rfl, hcause⟩) hkind
  · intro h
    cases h with
    | unsupported h hkind =>
      obtain ⟨rfl, hcause⟩ := (hrefuses _ _).mp h
      exact ⟨_, hcause, (if_pos (beq_iff_eq.mpr hkind)).symm⟩
    | refused h hkind =>
      obtain ⟨rfl, hcause⟩ := (hrefuses _ _).mp h
      exact ⟨_, hcause, (if_neg (by simpa [RsaError.isUnsupported] using hkind)).symm⟩

/-- Reading a private key makes all checks in their order. -/
theorem performs_ofFields (fields : FieldSet) (factory : KeyFactory) :
    Performs (Fails fields factory) (checks fields) (ofFields fields factory).result := by
  rw [result_ofFields]
  refine (performs_requiredInteger .privateExponent).bind fun d hd => ?_
  refine performs_publicHalf.bind fun half hhalf => ?_
  refine (performs_readSpec half.key d).bind fun spec hspec => ?_
  rw [FieldSet.requiredInteger_eq_ok_iff] at hd
  obtain ⟨-, n, e, hn, he, publicKey, hpublic, rfl⟩ := publicHalf_ofFields_eq_ok_iff.mp hhalf
  exact (performs_privateKey hd hn he hpublic (readSpec_eq_ok_iff.mp hspec)).bind_pure _

/-! ### What is reported -/

/-- If some but not all values of the first two primes are there, the first of them that is
not a positive integer is reported, once the checks before have passed. -/
theorem ofFields_of_incomplete (hleading : ∀ check ∈ leadingChecks, ∀ error,
      ¬Fails fields factory check error)
    (hpresent : ∃ param ∈ Param.crtParams, ¬fields.members.Absent param.id)
    (habsent : ∃ param ∈ Param.crtParams, fields.members.Absent param.id) :
    ∃ before param after fault, Param.crtParams = before ++ param :: after ∧
      (∀ other ∈ before, ∃ value, fields.members.HoldsInteger other value) ∧
      fields.members.IntegerFault param fault ∧
      (ofFields fields factory).result = .error (.malformed param.id fault) := by
  have hcrt : hasCrt fields = true := by
    by_contra hcrt
    obtain ⟨param, hparam, h⟩ := hpresent
    exact h (hasCrt_eq_false_iff.mp (Bool.not_eq_true _ ▸ hcrt) param hparam)
  -- the check of the absent parameter fails, so that there is a first failure among the five
  obtain ⟨missing, hmissing, h⟩ := habsent
  have hfails : Fails fields factory (.integer missing) _ := .integer (.missing h)
  obtain ⟨error, herror⟩ := exists_firstFailure (List.mem_map_of_mem hmissing) hfails
  have hresult : (ofFields fields factory).result = .error error := by
    refine (performs_ofFields fields factory error).mpr ?_
    refine firstFailure_append.mpr (.inr ⟨hleading, firstFailure_append.mpr (.inl ?_)⟩)
    rw [factorChecks, if_pos hcrt]
    exact firstFailure_append.mpr (.inl herror)
  obtain ⟨_, _, _, hsplit, hbefore, hfirst⟩ := herror
  obtain ⟨before, rest, hparams, rfl, hrest⟩ := List.map_eq_append_iff.mp hsplit
  obtain ⟨param, after, rfl, rfl, rfl⟩ := List.map_eq_cons_iff.mp hrest
  cases hfirst with
  | integer hfault =>
    refine ⟨before, param, after, _, hparams, ?_, hfault, hresult⟩
    intro other hother
    exact passes_integer_iff.mp (hbefore _ (List.mem_map_of_mem hother))

end Checks

/-- **The first check that fails is the one that is reported.** Its error names the member
that the check is about; if it is about none, which are the checks of the key type and of the
keys that the factory makes, the key is reported as not supported. -/
theorem ofFields_reports_first_failure (fields : FieldSet) (factory : KeyFactory) :
    (∀ error, (ofFields fields factory).result = .error error ↔
      FirstFailure (Fails fields factory) (checks fields) error) ∧
    (∀ check error, Fails fields factory check error →
      (∀ member, check.member? = some member →
        error.kind = .malformedField ∧ error.member? = some member) ∧
      (check.member? = none → error.kind = .unsupportedKeyShape)) ∧
    (∀ error, (ofFields fields factory).result = .error error →
      error.kind = .malformedField ∨ error.kind = .unsupportedKeyShape) ∧
    ((∀ check ∈ leadingChecks, ∀ error, ¬Fails fields factory check error) →
      (∃ param ∈ Param.crtParams, ¬fields.members.Absent param.id) →
      (∃ param ∈ Param.crtParams, fields.members.Absent param.id) →
      ∃ before param after fault, Param.crtParams = before ++ param :: after ∧
        (∀ other ∈ before, ∃ value, fields.members.HoldsInteger other value) ∧
        fields.members.IntegerFault param fault ∧
        (ofFields fields factory).result = .error (.malformed param.id fault)) := by
  refine ⟨performs_ofFields fields factory, fun _ _ h => h.attribution, ?_, ofFields_of_incomplete⟩
  intro error herror
  obtain ⟨_, check, _, -, -, hfails⟩ := (performs_ofFields fields factory error).mp herror
  obtain ⟨hmember, hnone⟩ := hfails.attribution
  cases h : check.member? with
  | none => exact .inr (hnone h)
  | some member => exact .inl (hmember member h).1

/-- Fields with some values of the first two primes: the first prime is good, the second is
not a text, and the others are missing. -/
def incompleteFields : FieldSet where
  members :=
    [("dp", .null), ("q", .bool true), ("p", .string "Cw"), ("e", .string "Bw"),
      ("n", .string "CX8"), ("d", .string "Zw")]
  nodup := by decide

/-- One of the five values is reported for these fields. -/
theorem incompleteFields_are_reported :
    (∀ check ∈ leadingChecks, ∀ error,
      ¬Fails incompleteFields (KeyFactory.checking 12) check error) ∧
    (∃ param ∈ Param.crtParams, ¬incompleteFields.members.Absent param.id) ∧
    (∃ param ∈ Param.crtParams, incompleteFields.members.Absent param.id) ∧
    ∃ before param after fault, Param.crtParams = before ++ param :: after ∧
      (∀ other ∈ before, ∃ value, incompleteFields.members.HoldsInteger other value) ∧
      incompleteFields.members.IntegerFault param fault ∧
      (ofFields incompleteFields (KeyFactory.checking 12)).result =
        .error (.malformed param.id fault) := by
  have hn : incompleteFields.members.HoldsInteger .modulus 2431 :=
    .of_octets [9, 127] rfl (by decide)
  have he : incompleteFields.members.HoldsInteger .publicExponent 7 :=
    .of_octets [7] rfl (by decide)
  have hd : incompleteFields.members.HoldsInteger .privateExponent 103 :=
    .of_octets [103] rfl (by decide)
  have hleading : ∀ check ∈ leadingChecks, ∀ error,
      ¬Fails incompleteFields (KeyFactory.checking 12) check error := by
    simp only [leadingChecks, List.forall_mem_cons]
    refine ⟨passes_integer_iff.mpr ⟨_, hd⟩, performs_checkKeyType.passes rfl _ (by simp),
      passes_integer_iff.mpr ⟨_, hn⟩, passes_integer_iff.mpr ⟨_, he⟩, ?_, by simp⟩
    exact (performs_publicKey hn he).passes
      (mapError_eq_ok_iff.mpr PrivateKey.threeFactor_publicKey_accepted) _ (by simp)
  have hpresent : ∃ param ∈ Param.crtParams, ¬incompleteFields.members.Absent param.id := by
    refine ⟨.firstPrime, by decide, ?_⟩
    rintro (hnone | hnull)
    · exact absurd (show some (Json.string "Cw") = none from hnone) (by simp)
    · exact absurd (show some (Json.string "Cw") = some .null from hnull) (by simp)
  have habsent : ∃ param ∈ Param.crtParams, incompleteFields.members.Absent param.id :=
    ⟨.firstCrtExponent, by decide, .inr rfl⟩
  exact ⟨hleading, hpresent, habsent, (ofFields_reports_first_failure incompleteFields
    (KeyFactory.checking 12)).2.2.2 hleading hpresent habsent⟩

end PrivateJwk

end WebKey
