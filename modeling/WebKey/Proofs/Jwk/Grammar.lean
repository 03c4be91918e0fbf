/-
The field sets that hold a private key.

Which members a field set has to have goes by the values of the first two primes. Without
any of them the key is plain, and a list of other primes does not count. With one of them
all have to be there, and a list of other primes counts as well. A member whose value is
`null` counts as absent throughout.

* **`OtherPrime.IsElement`** — the elements of a list of other primes;
* **`PrivateJwk.HoldsNumbers`** and **`PrivateJwk.HoldsSpec`** — the numbers and the specification
  that a field set holds;
* **`OtherPrime.listOfJson_eq_ok_iff`**, **`PrivateJwk.readSpec_eq_ok_iff`** — these are
  read, and nothing else is;
* **`PrivateJwk.ofFields_eq_ok_iff_holdsSpec`** — reading a private key succeeds on the
  field sets that hold one which the key factory accepts.
-/
import WebKey.Proofs.Jwk.Reading
import WebKey.Proofs.Rsa.Consistency

namespace WebKey

/-! ### The key type -/

namespace FieldSet

variable {fields : FieldSet}

/-- There is no key type, or it is that of RSA keys. -/
def HoldsKeyType (fields : FieldSet) : Prop :=
  fields.members.Absent Param.keyType.id ∨
    fields.lookup Param.keyType.id = some (.string rsaKeyType)

theorem checkKeyType_of_holdsKeyType (h : fields.HoldsKeyType) :
    ∃ present, fields.checkKeyType = .ok present := by
  rw [checkKeyType]
  rcases h with habsent | hrsa
  · have hfield : fields.field? Param.keyType.id = none := Members.field?_eq_none_iff.mpr habsent
    rw [hfield]
    exact ⟨false, rfl⟩
  · have hfield : fields.field? Param.keyType.id = some (.string rsaKeyType) :=
      Members.field?_eq_some_iff.mpr ⟨hrsa, rfl⟩
    rw [hfield]
    exact ⟨true, if_pos rfl⟩

theorem checkKeyType_of_ne {value : Json} (hvalue : fields.lookup Param.keyType.id = some value)
    (hnull : value.isNull = false) (hne : value ≠ .string rsaKeyType) :
    fields.checkKeyType = .error (.keyTypeNotRsa value) := by
  have hfield : fields.field? Param.keyType.id = some value :=
    Members.field?_eq_some_iff.mpr ⟨hvalue, hnull⟩
  rw [checkKeyType, hfield]
  cases value with
  | string text =>
    refine if_neg ?_
    rintro rfl
    exact hne rfl
  | null => rfl
  | bool b => rfl
  | number x => rfl
  | array items => rfl
  | object members => rfl

/-- Every other key type is a value of its own. -/
theorem exists_of_not_holdsKeyType (h : ¬fields.HoldsKeyType) :
    ∃ value, fields.lookup Param.keyType.id = some value ∧ value.isNull = false ∧
      value ≠ .string rsaKeyType := by
  rw [HoldsKeyType, not_or, ← Members.field?_eq_none_iff, ← ne_eq,
    Option.ne_none_iff_exists'] at h
  obtain ⟨⟨value, hfield⟩, hrsa⟩ := h
  obtain ⟨hvalue, hnull⟩ := Members.field?_eq_some_iff.mp hfield
  refine ⟨value, hvalue, hnull, ?_⟩
  rintro rfl
  exact hrsa hvalue

theorem exists_checkKeyType_iff :
    (∃ present, fields.checkKeyType = .ok present) ↔ fields.HoldsKeyType := by
  constructor
  · rintro ⟨present, hpresent⟩
    by_contra h
    obtain ⟨value, hvalue, hnull, hne⟩ := exists_of_not_holdsKeyType h
    exact absurd (hpresent.symm.trans (checkKeyType_of_ne hvalue hnull hne)) (by simp)
  · exact checkKeyType_of_holdsKeyType

theorem checkKeyType_eq_error_iff {error : RsaError} :
    fields.checkKeyType = .error error ↔
      ∃ value, fields.lookup Param.keyType.id = some value ∧ value.isNull = false ∧
        value ≠ .string rsaKeyType ∧ error = .keyTypeNotRsa value := by
  constructor
  · intro h
    by_cases hkty : fields.HoldsKeyType
    · obtain ⟨present, hpresent⟩ := checkKeyType_of_holdsKeyType hkty
      exact absurd (h.symm.trans hpresent) (by simp)
    · obtain ⟨value, hvalue, hnull, hne⟩ := exists_of_not_holdsKeyType hkty
      rw [checkKeyType_of_ne hvalue hnull hne] at h
      exact ⟨value, hvalue, hnull, hne, (Except.error.inj h).symm⟩
  · rintro ⟨value, hvalue, hnull, hne, rfl⟩
    exact checkKeyType_of_ne hvalue hnull hne

theorem requiredInteger_eq_ok_iff {param : Param} {value : ℕ} :
    fields.requiredInteger param = .ok value ↔ fields.members.HoldsInteger param value :=
  Members.requiredInteger_eq_ok_iff

end FieldSet

/-! ### The list of other primes -/

namespace OtherPrime

/-- The value is an object that holds the three integers of another prime. -/
def IsElement (item : Json) (info : OtherPrime) : Prop :=
  ∃ members, item = .object members ∧ Members.HoldsInteger members .primeFactor info.prime ∧
    Members.HoldsInteger members .factorCrtExponent info.exponent ∧
    Members.HoldsInteger members .factorCrtCoefficient info.coefficient

theorem ofJson_object {members : Members} (h : members ≠ []) :
    ofJson (.object members) = do
      let prime ← members.requiredInteger .primeFactor
      let exponent ← members.requiredInteger .factorCrtExponent
      let coefficient ← members.requiredInteger .factorCrtCoefficient
      return ⟨prime, exponent, coefficient⟩ := by
  cases members with
  | nil => exact absurd rfl h
  | cons member rest => rfl

theorem ofJson_of_kind_ne {item : Json} (hnull : item.kind ≠ .null)
    (hobject : item.kind ≠ .object) :
    ofJson item = .error (listError (.notObject item.kind)) := by
  cases item with
  | null => exact absurd rfl hnull
  | object members => exact absurd rfl hobject
  | bool b => rfl
  | number x => rfl
  | string text => rfl
  | array items => rfl

theorem listOfJson_of_kind_ne {value : Json} (h : value.kind ≠ .array) :
    listOfJson value = .error (listError (.notArray value.kind)) := by
  cases value with
  | array items => exact absurd rfl h
  | null => rfl
  | bool b => rfl
  | number x => rfl
  | string text => rfl
  | object members => rfl

theorem ofJson_eq_ok_iff {item : Json} {info : OtherPrime} :
    ofJson item = .ok info ↔ IsElement item info := by
  constructor
  · intro h
    by_cases hnull : item.kind = .null
    · obtain rfl := Json.kind_eq_null_iff.mp hnull
      exact absurd h (by simp [ofJson])
    by_cases hobject : item.kind = .object
    · obtain ⟨members, rfl⟩ := Json.kind_eq_object_iff.mp hobject
      have hne : members ≠ [] := by
        rintro rfl
        exact absurd h (by simp [ofJson])
      rw [ofJson_object hne] at h
      simp only [bind_eq_ok_iff, Members.requiredInteger_eq_ok_iff] at h
      obtain ⟨prime, hprime, exponent, hexponent, coefficient, hcoefficient, hinfo⟩ := h
      obtain rfl := Except.ok.inj hinfo
      exact ⟨members, rfl, hprime, hexponent, hcoefficient⟩
    · rw [ofJson_of_kind_ne hnull hobject] at h
      exact absurd h (by simp)
  · rintro ⟨members, rfl, hprime, hexponent, hcoefficient⟩
    rw [ofJson_object hprime.ne_nil]
    simp only [bind_eq_ok_iff, Members.requiredInteger_eq_ok_iff]
    exact ⟨_, hprime, _, hexponent, _, hcoefficient, rfl⟩

/-- A list of other primes is read from an array of elements, of which there is at least
one, in their order. -/
theorem listOfJson_eq_ok_iff {value : Json} {others : List OtherPrime} :
    listOfJson value = .ok others ↔
      ∃ items, value = .array items ∧ items ≠ [] ∧ List.Forall₂ IsElement items others := by
  constructor
  · intro h
    by_cases harray : value.kind = .array
    · obtain ⟨items, rfl⟩ := Json.kind_eq_array_iff.mp harray
      cases items with
      | nil => exact absurd h (by simp [listOfJson])
      | cons item rest =>
        have hitems := (mapM_eq_ok_iff.mp h).imp fun _ _ hinfo => ofJson_eq_ok_iff.mp hinfo
        exact ⟨_, rfl, List.cons_ne_nil item rest, hitems⟩
    · rw [listOfJson_of_kind_ne harray] at h
      exact absurd h (by simp)
  · rintro ⟨items, rfl, hne, hitems⟩
    cases items with
    | nil => exact absurd rfl hne
    | cons item rest =>
      exact mapM_eq_ok_iff.mpr (hitems.imp fun _ _ hinfo => ofJson_eq_ok_iff.mpr hinfo)

end OtherPrime

/-! ### Specifications -/

namespace PrivateJwk

/-- The private exponent, the key type and the public numbers pass their own checks. -/
structure HoldsNumbers (fields : FieldSet) (n e d : ℕ) : Prop where
  privateExponent : fields.members.HoldsInteger .privateExponent d
  keyType : fields.HoldsKeyType
  modulus : fields.members.HoldsInteger .modulus n
  publicExponent : fields.members.HoldsInteger .publicExponent e

/-- The members hold the values of the first two primes. -/
structure HoldsCrt (members : Members) (crt : CrtValues) : Prop where
  p : members.HoldsInteger .firstPrime crt.p
  q : members.HoldsInteger .secondPrime crt.q
  dp : members.HoldsInteger .firstCrtExponent crt.dp
  dq : members.HoldsInteger .secondCrtExponent crt.dq
  qi : members.HoldsInteger .firstCrtCoefficient crt.qi

/-- The field set holds this specification, given the public numbers and the private
exponent. -/
inductive HoldsSpec (fields : FieldSet) (n e d : ℕ) : KeySpec → Prop where
  | plain (hcrt : ∀ param ∈ Param.crtParams, fields.members.Absent param.id) :
    HoldsSpec fields n e d (.plain n d)
  | twoPrime {crt : CrtValues} (hcrt : HoldsCrt fields.members crt)
      (hothers : fields.members.Absent Param.otherPrimesInfo.id) :
    HoldsSpec fields n e d (.twoPrime n e d crt)
  | multiPrime {crt : CrtValues} {items : List Json} {others : List OtherPrime}
      (hcrt : HoldsCrt fields.members crt)
      (hitems : fields.lookup Param.otherPrimesInfo.id = some (.array items)) (hne : items ≠ [])
      (hothers : List.Forall₂ OtherPrime.IsElement items others) :
    HoldsSpec fields n e d (.multiPrime n e d crt others)

theorem readCrt_eq_ok_iff {fields : FieldSet} {crt : CrtValues} :
    readCrt fields = .ok crt ↔ HoldsCrt fields.members crt := by
  simp only [readCrt, bind_eq_ok_iff, FieldSet.requiredInteger_eq_ok_iff]
  constructor
  · rintro ⟨p, hp, q, hq, dp, hdp, dq, hdq, qi, hqi, hcrt⟩
    obtain rfl := Except.ok.inj hcrt
    exact ⟨hp, hq, hdp, hdq, hqi⟩
  · rintro ⟨hp, hq, hdp, hdq, hqi⟩
    exact ⟨_, hp, _, hq, _, hdp, _, hdq, _, hqi, rfl⟩

theorem hasCrt_eq_false_iff {fields : FieldSet} :
    hasCrt fields = false ↔ ∀ param ∈ Param.crtParams, fields.members.Absent param.id := by
  rw [hasCrt, List.any_eq_false]
  refine forall₂_congr fun param _ => ?_
  rw [Bool.not_eq_true]
  exact Members.hasField_eq_false_iff

theorem HoldsCrt.hasCrt {fields : FieldSet} {crt : CrtValues} (h : HoldsCrt fields.members crt) :
    PrivateJwk.hasCrt fields = true := by
  by_contra hcrt
  rw [Bool.not_eq_true, hasCrt_eq_false_iff] at hcrt
  obtain ⟨-, text, htext, -⟩ := h.p
  rcases hcrt .firstPrime (by decide) with hnone | hnull
  · exact absurd (hnone.symm.trans htext) (by simp)
  · exact absurd (hnull.symm.trans htext) (by simp)

/-- The specification that is read is the one that the field set holds. -/
theorem readSpec_eq_ok_iff {fields : FieldSet} {publicKey : PublicKey} {d : ℕ} {spec : KeySpec} :
    readSpec fields publicKey d = .ok spec ↔
      HoldsSpec fields publicKey.modulus publicKey.exponent d spec := by
  rw [readSpec]
  constructor
  · intro h
    by_cases hcrt : hasCrt fields = true
    · rw [if_pos hcrt] at h
      obtain ⟨crt, hcrt, h⟩ := bind_eq_ok_iff.mp h
      rw [readCrt_eq_ok_iff] at hcrt
      cases hfield : fields.field? Param.otherPrimesInfo.id with
      | none =>
        rw [hfield] at h
        obtain rfl := Except.ok.inj h
        exact .twoPrime hcrt (Members.field?_eq_none_iff.mp hfield)
      | some value =>
        rw [hfield] at h
        obtain ⟨others, hothers, hspec⟩ := bind_eq_ok_iff.mp h
        obtain ⟨items, rfl, hne, hitems⟩ := OtherPrime.listOfJson_eq_ok_iff.mp hothers
        obtain rfl := Except.ok.inj hspec
        exact .multiPrime hcrt (Members.field?_eq_some_iff.mp hfield).1 hne hitems
    · rw [if_neg hcrt] at h
      obtain rfl := Except.ok.inj h
      exact .plain (hasCrt_eq_false_iff.mp (Bool.not_eq_true _ ▸ hcrt))
  · rintro (hcrt | ⟨hcrt, hothers⟩ | ⟨hcrt, hitems, hne, hothers⟩)
    · rw [hasCrt_eq_false_iff.mpr hcrt]
      rfl
    · have hfield : fields.field? Param.otherPrimesInfo.id = none :=
        Members.field?_eq_none_iff.mpr hothers
      rw [hcrt.hasCrt, if_pos rfl, readCrt_eq_ok_iff.mpr hcrt, hfield]
      rfl
    · have hfield : fields.field? Param.otherPrimesInfo.id = some (.array _) :=
        Members.field?_eq_some_iff.mpr ⟨hitems, rfl⟩
      rw [hcrt.hasCrt, if_pos rfl, readCrt_eq_ok_iff.mpr hcrt, hfield]
      show (OtherPrime.listOfJson _ >>= _) = _
      rw [OtherPrime.listOfJson_eq_ok_iff.mpr ⟨_, rfl, hne, hothers⟩]
      rfl

/-- The specification has the numbers that are given, and its further values are members. -/
theorem HoldsSpec.numbers {fields : FieldSet} {n e d : ℕ} {spec : KeySpec}
    (h : HoldsSpec fields n e d spec) :
    spec.modulus = n ∧ spec.privateExponent = d ∧
      (∀ e', spec.publicExponent? = some e' → e = e') ∧
      ∀ crt, spec.crt? = some crt → HoldsCrt fields.members crt := by
  cases h with
  | plain => exact ⟨rfl, rfl, by simp [KeySpec.publicExponent?], by simp [KeySpec.crt?]⟩
  | twoPrime hcrt =>
    exact ⟨rfl, rfl, fun _ he => Option.some_inj.mp he, fun _ h => Option.some_inj.mp h ▸ hcrt⟩
  | multiPrime hcrt =>
    exact ⟨rfl, rfl, fun _ he => Option.some_inj.mp he, fun _ h => Option.some_inj.mp h ▸ hcrt⟩

theorem HoldsSpec.unique {fields : FieldSet} {n e d : ℕ} {spec other : KeySpec}
    (h : HoldsSpec fields n e d spec) (h' : HoldsSpec fields n e d other) : spec = other := by
  have hspec : readSpec fields ⟨n, e⟩ d = .ok spec := readSpec_eq_ok_iff.mpr h
  have hother : readSpec fields ⟨n, e⟩ d = .ok other := readSpec_eq_ok_iff.mpr h'
  exact Except.ok.inj (hspec.symm.trans hother)

/-! ### Private keys -/

/-- The private parameters are not among the public ones, so leaving them out does not
change how the public ones are read. -/
theorem field?_without_privateParams (fields : FieldSet) {param : Param}
    (h : param ∈ Param.publicParams) :
    (fields.without Param.privateParams).field? param.id = fields.field? param.id :=
  FieldSet.field?_congr (fields.lookup_without (by revert param; decide))

theorem checkKeyType_without_privateParams (fields : FieldSet) :
    (fields.without Param.privateParams).checkKeyType = fields.checkKeyType := by
  rw [FieldSet.checkKeyType, FieldSet.checkKeyType, field?_without_privateParams fields (by decide)]

theorem requiredInteger_without_privateParams (fields : FieldSet) {param : Param}
    (h : param ∈ Param.publicParams) :
    (fields.without Param.privateParams).requiredInteger param = fields.requiredInteger param :=
  FieldSet.requiredInteger_congr (field?_without_privateParams fields h)

/-- So the public half is read from the members as they stand in the whole field set. -/
theorem publicHalf_ofFields (fields : FieldSet) (factory : KeyFactory) :
    PublicJwk.ofFields (fields.without Param.privateParams) factory = do
      let _ ← fields.checkKeyType
      let n ← fields.requiredInteger .modulus
      let e ← fields.requiredInteger .publicExponent
      let key ← (factory.publicKey n e).mapError
        (.publicKeyRefused (fields.without Param.privateParams).names)
      return ⟨PublicJwk.keyTypeFields.extend (fields.without Param.privateParams), key⟩ := by
  rw [PublicJwk.ofFields, checkKeyType_without_privateParams,
    requiredInteger_without_privateParams fields (by decide),
    requiredInteger_without_privateParams fields (by decide)]

/-- Reading the public half of a private key. -/
theorem publicHalf_ofFields_eq_ok_iff {fields : FieldSet} {factory : KeyFactory}
    {half : PublicJwk} :
    PublicJwk.ofFields (fields.without Param.privateParams) factory = .ok half ↔
      fields.HoldsKeyType ∧ ∃ n e, fields.members.HoldsInteger .modulus n ∧
        fields.members.HoldsInteger .publicExponent e ∧
        ∃ publicKey, factory.publicKey n e = .ok publicKey ∧
          half = ⟨PublicJwk.keyTypeFields.extend (fields.without Param.privateParams),
            publicKey⟩ := by
  rw [PublicJwk.ofFields_eq_ok_iff, checkKeyType_without_privateParams,
    FieldSet.exists_checkKeyType_iff, requiredInteger_without_privateParams fields (by decide),
    requiredInteger_without_privateParams fields (by decide)]
  simp only [FieldSet.requiredInteger_eq_ok_iff]

/-- Reading a private key, whatever numbers the key factory puts into the public key. -/
theorem ofFields_eq_ok_iff {fields : FieldSet} {factory : KeyFactory} {key : PrivateKey}
    {publicKey : PublicKey} :
    (∃ jwk, (ofFields fields factory).result = .ok jwk ∧ jwk.key = key ∧
        jwk.publicHalf.key = publicKey) ↔
      ∃ n e d spec, fields.members.HoldsInteger .privateExponent d ∧ fields.HoldsKeyType ∧
        fields.members.HoldsInteger .modulus n ∧ fields.members.HoldsInteger .publicExponent e ∧
        factory.publicKey n e = .ok publicKey ∧
        HoldsSpec fields publicKey.modulus publicKey.exponent d spec ∧
        factory.privateKey spec = .ok key := by
  simp only [result_ofFields_eq_ok_iff, FieldSet.requiredInteger_eq_ok_iff,
    publicHalf_ofFields_eq_ok_iff, readSpec_eq_ok_iff]
  constructor
  · rintro ⟨jwk, ⟨d, half, spec, key, hd, ⟨hkty, n, e, hn, he, publicKey, hpublic, rfl⟩, hspec,
      hkey, rfl⟩, rfl, rfl⟩
    exact ⟨n, e, d, spec, hd, hkty, hn, he, hpublic, hspec, hkey⟩
  · rintro ⟨n, e, d, spec, hd, hkty, hn, he, hpublic, hspec, hkey⟩
    exact ⟨_, ⟨d, _, spec, key, hd, ⟨hkty, n, e, hn, he, publicKey, hpublic, rfl⟩, hspec, hkey,
      rfl⟩, rfl, rfl⟩

/-- **Reading accepts exactly the field sets that hold a key which the factory accepts**, and
hands the factory the numbers that they hold. The two keys are those that the factory
makes of them. -/
theorem ofFields_eq_ok_iff_holdsSpec {fields : FieldSet} {factory : KeyFactory}
    (hfactory : ∀ n e publicKey, factory.publicKey n e = .ok publicKey →
      publicKey.modulus = n ∧ publicKey.exponent = e)
    (key : PrivateKey) (publicKey : PublicKey) :
    (∃ jwk, (ofFields fields factory).result = .ok jwk ∧ jwk.key = key ∧
        jwk.publicHalf.key = publicKey) ↔
      ∃ n e d spec, fields.members.HoldsInteger .privateExponent d ∧
        fields.members.HoldsInteger .modulus n ∧ fields.members.HoldsInteger .publicExponent e ∧
        (fields.members.Absent Param.keyType.id ∨
          fields.lookup Param.keyType.id = some (.string "RSA")) ∧
        factory.publicKey n e = .ok publicKey ∧ HoldsSpec fields n e d spec ∧
        factory.privateKey spec = .ok key := by
  rw [ofFields_eq_ok_iff]
  constructor
  · rintro ⟨n, e, d, spec, hd, hkty, hn, he, hpublic, hspec, hkey⟩
    obtain ⟨rfl, rfl⟩ := hfactory _ _ _ hpublic
    exact ⟨_, _, d, spec, hd, hn, he, hkty, hpublic, hspec, hkey⟩
  · rintro ⟨n, e, d, spec, hd, hn, he, hkty, hpublic, hspec, hkey⟩
    obtain ⟨rfl, rfl⟩ := hfactory _ _ _ hpublic
    exact ⟨_, _, d, spec, hd, hkty, hn, he, hpublic, hspec, hkey⟩

/-- `PrivateKey.threeFactor` as others may write it: the key type is `null`, the private
exponent has a zero octet in front, and the other prime has a member that is not known. -/
def foreignFields : FieldSet where
  members :=
    [("d", .string "AGc"), ("kty", .null), ("n", .string "CX8"), ("e", .string "Bw"),
      ("p", .string "Cw"), ("q", .string "DQ"), ("dp", .string "Aw"), ("dq", .string "Bw"),
      ("qi", .string "Bg"), ("oth", .array [.object [("kid", .null), ("t", .string "BQ"),
        ("r", .string "EQ"), ("d", .string "Bw")]])]
  nodup := by decide

theorem foreignFields_holdsCrt : HoldsCrt foreignFields.members ⟨11, 13, 3, 7, 6⟩ where
  p := .of_octets [11] rfl (by decide)
  q := .of_octets [13] rfl (by decide)
  dp := .of_octets [3] rfl (by decide)
  dq := .of_octets [7] rfl (by decide)
  qi := .of_octets [6] rfl (by decide)

theorem foreignFields_holdsNumbers : HoldsNumbers foreignFields 2431 7 103 where
  privateExponent := .of_octets [0, 103] rfl (by decide)
  keyType := .inl (.inr rfl)
  modulus := .of_octets [9, 127] rfl (by decide)
  publicExponent := .of_octets [7] rfl (by decide)

theorem foreignFields_holdsSpec :
    HoldsSpec foreignFields 2431 7 103 PrivateKey.threeFactor.spec := by
  have helement : OtherPrime.IsElement (.object [("kid", .null), ("t", .string "BQ"),
      ("r", .string "EQ"), ("d", .string "Bw")]) ⟨17, 7, 5⟩ :=
    ⟨_, rfl, .of_octets [17] rfl (by decide), .of_octets [7] rfl (by decide),
      .of_octets [5] rfl (by decide)⟩
  exact .multiPrime foreignFields_holdsCrt rfl (List.cons_ne_nil _ _) (.cons helement .nil)

theorem exists_of_foreignFields :
    ∃ jwk, (ofFields foreignFields (KeyFactory.checking 12)).result = .ok jwk ∧
      jwk.key = .threeFactor ∧ jwk.publicHalf.key = ⟨2431, 7⟩ := by
  obtain ⟨hd, hkty, hn, he⟩ := foreignFields_holdsNumbers
  exact ofFields_eq_ok_iff.mpr ⟨_, _, _, _, hd, hkty, hn, he,
    PrivateKey.threeFactor_publicKey_accepted, foreignFields_holdsSpec,
    PrivateKey.threeFactor_accepted⟩

/-- The key is read from these fields. -/
theorem foreignFields_are_read :
    (∀ n e publicKey, (KeyFactory.checking 12).publicKey n e = .ok publicKey →
      publicKey.modulus = n ∧ publicKey.exponent = e) ∧
    ∃ jwk, (ofFields foreignFields (KeyFactory.checking 12)).result = .ok jwk ∧
      jwk.key = .threeFactor ∧ jwk.publicHalf.key = ⟨2431, 7⟩ := by
  have hfactory : ∀ n e publicKey, (KeyFactory.checking 12).publicKey n e = .ok publicKey →
      publicKey.modulus = n ∧ publicKey.exponent = e := by
    intro n e publicKey h
    obtain ⟨-, rfl⟩ := PublicKey.ofNumbers_eq_ok_iff.mp h
    exact ⟨rfl, rfl⟩
  obtain ⟨hd, hkty, hn, he⟩ := foreignFields_holdsNumbers
  exact ⟨hfactory, (ofFields_eq_ok_iff_holdsSpec hfactory _ _).mpr ⟨_, _, _, _, hd, hn, he, hkty,
    PrivateKey.threeFactor_publicKey_accepted, foreignFields_holdsSpec,
    PrivateKey.threeFactor_accepted⟩⟩

end PrivateJwk

end WebKey
