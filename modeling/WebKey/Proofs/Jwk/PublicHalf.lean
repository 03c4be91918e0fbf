/-
What the public half of a private key tells.

Reading a private key leaves the private members out before it reads the public half, so the
public half goes by the other members alone, whatever the secrets are. Reading a public key by
itself leaves nothing out: what is private in the fields stays in them.

* **`FieldSet.IsPublic`** — no member is that of a private parameter;
* **`PublicJwk.fields_of_ofFields`** — the fields that reading a public key returns;
* **`PrivateJwk.publicHalf_of_ofFields`** — the public half of a private key is what reading the
  other members returns;
* **`PublicJwk.ofFields_isPublic_iff`** — a public key carries the private members that it was
  read with, and none if they are left out first;
* **`PublicJwk.whole_key_is_carried`** — a public key that carries all seven private members;
* **`PrivateJwk.publicHalf_hides_secrets`** — the public half of a private key carries none of
  them and does not depend on them.
-/
import WebKey.Proofs.Jwk.KeptFields

namespace WebKey

/-! ### Private members -/

/-- No member is that of a private parameter. -/
def FieldSet.IsPublic (fields : FieldSet) : Prop :=
  ∀ param ∈ Param.privateParams, param.id ∉ fields.names

namespace FieldSet

variable {fields : FieldSet}

theorem isPublic_iff_lookup :
    fields.IsPublic ↔ ∀ param ∈ Param.privateParams, fields.lookup param.id = none :=
  forall₂_congr fun _ _ => Members.lookup_eq_none_iff.symm

theorem isPublic_without (fields : FieldSet) : (fields.without Param.privateParams).IsPublic := by
  refine isPublic_iff_lookup.mpr fun param hparam => ?_
  rw [lookup_without_eq, if_pos (List.any_eq_true.mpr ⟨param, hparam, by simp⟩)]

end FieldSet

/-! ### Public keys -/

namespace PublicJwk

variable {fields : FieldSet} {factory : KeyFactory} {half : PublicJwk}

theorem fields_of_ofFields (h : ofFields fields factory = .ok half) :
    half.fields = keyTypeFields.extend fields := by
  obtain ⟨-, n, e, -, -, key, -, rfl⟩ := ofFields_eq_ok_iff.mp h
  rfl

/-- The key type is not private, so a private member of the outcome has been read. -/
theorem lookup_privateParam (h : ofFields fields factory = .ok half) {param : Param}
    (hparam : param ∈ Param.privateParams) :
    half.fields.lookup param.id = fields.lookup param.id := by
  have hkty : param.id ≠ Param.keyType.id := by
    revert param
    decide
  rw [fields_of_ofFields h, FieldSet.lookup_extend, PrivateJwk.lookup_keyTypeFields,
    if_neg hkty, Option.or_none]

/-- Every member that was read is in the outcome. -/
theorem lookup_of_ofFields (h : ofFields fields factory = .ok half) {name : String} {value : Json}
    (hvalue : fields.lookup name = some value) : half.fields.lookup name = some value := by
  rw [fields_of_ofFields h, FieldSet.lookup_extend, hvalue, Option.some_or]

theorem without_keyTypeFields : keyTypeFields.without Param.privateParams = keyTypeFields :=
  FieldSet.without_eq_self (by decide)

/-- Private members can be left out before a public key is read, or afterwards. -/
theorem ofFields_without (h : ofFields fields factory = .ok half) :
    ofFields (fields.without Param.privateParams) factory =
      .ok ⟨half.fields.without Param.privateParams, half.key⟩ := by
  obtain ⟨hkty, n, e, hn, he, key, hkey, rfl⟩ := ofFields_eq_ok_iff.mp h
  rw [ofFields_eq_ok_iff, PrivateJwk.checkKeyType_without_privateParams,
    PrivateJwk.requiredInteger_without_privateParams fields (by decide),
    PrivateJwk.requiredInteger_without_privateParams fields (by decide),
    FieldSet.without_extend, without_keyTypeFields]
  exact ⟨hkty, n, e, hn, he, key, hkey, rfl⟩

/-- **A public key carries exactly the private members that it was read with**, and with the
values that they had. It carries none if none was read, and leaving them out first gives the same
key with the rest of the fields. -/
theorem ofFields_isPublic_iff (h : ofFields fields factory = .ok half) :
    (half.fields.IsPublic ↔ fields.IsPublic) ∧
      (∀ param ∈ Param.privateParams,
        half.fields.lookup param.id = fields.lookup param.id) ∧
      ofFields (fields.without Param.privateParams) factory =
        .ok ⟨half.fields.without Param.privateParams, half.key⟩ ∧
      (half.fields.without Param.privateParams).IsPublic := by
  have hlookup : ∀ param ∈ Param.privateParams,
      half.fields.lookup param.id = fields.lookup param.id :=
    fun param hparam => lookup_privateParam h hparam
  refine ⟨?_, hlookup, ofFields_without h, half.fields.isPublic_without⟩
  rw [FieldSet.isPublic_iff_lookup, FieldSet.isPublic_iff_lookup]
  refine forall₂_congr fun param hparam => ?_
  rw [hlookup param hparam]

/-- The fields of `PrivateKey.threeFactor`, with all the members that a private key can have. -/
def wholeFields : FieldSet where
  members :=
    [("kty", .string "RSA"), ("n", .string "CX8"), ("e", .string "Bw"), ("d", .string "Zw"),
      ("p", .string "Cw"), ("q", .string "DQ"), ("dp", .string "Aw"), ("dq", .string "Bw"),
      ("qi", .string "Bg"), ("oth", .array [.object [("r", .string "EQ"), ("d", .string "Bw"),
        ("t", .string "BQ")]])]
  nodup := by decide

theorem wholeFields_are_read :
    ofFields wholeFields (KeyFactory.checking 12) =
      .ok ⟨keyTypeFields.extend wholeFields, ⟨2431, 7⟩⟩ := by
  refine ofFields_eq_ok_iff.mpr ⟨FieldSet.exists_checkKeyType_iff.mpr (.inr rfl), 2431, 7, ?_, ?_,
    ⟨2431, 7⟩, PrivateKey.threeFactor_publicKey_accepted, rfl⟩
  · exact FieldSet.requiredInteger_eq_ok_iff.mpr (.of_octets [9, 127] rfl (by decide))
  · exact FieldSet.requiredInteger_eq_ok_iff.mpr (.of_octets [7] rfl (by decide))

/-- They are read as a public key that carries the secrets. Without them the same key carries
none. -/
theorem wholeFields_carry_secrets :
    ∃ half, ofFields wholeFields (KeyFactory.checking 12) = .ok half ∧
      half.fields.lookup "d" = some (.string "Zw") ∧ ¬half.fields.IsPublic ∧
      ∃ stripped, ofFields (wholeFields.without Param.privateParams) (KeyFactory.checking 12) =
        .ok stripped ∧ stripped.key = half.key ∧ stripped.fields.IsPublic := by
  obtain ⟨hpublic, hlookup, hstripped, hnone⟩ := ofFields_isPublic_iff wholeFields_are_read
  refine ⟨_, wholeFields_are_read, hlookup .privateExponent (by decide), ?_, _, hstripped, rfl,
    hnone⟩
  intro h
  exact hpublic.mp h .privateExponent (by decide) (by decide)

/-- A whole private key is read as a public key that carries every private member. -/
theorem whole_key_is_carried :
    ∃ half, ofFields wholeFields (KeyFactory.checking 12) = .ok half ∧
      (∀ param ∈ Param.privateParams, param.id ∈ half.fields.names) ∧ ¬half.fields.IsPublic := by
  have hmem : ∀ param ∈ Param.privateParams,
      param.id ∈ (keyTypeFields.extend wholeFields).names := by decide
  exact ⟨_, wholeFields_are_read, hmem,
    fun h => h .privateExponent (by decide) (hmem .privateExponent (by decide))⟩

end PublicJwk

/-! ### Public halves -/

namespace PrivateJwk

theorem publicHalf_of_ofFields {fields : FieldSet} {factory : KeyFactory} {jwk : PrivateJwk}
    (h : (ofFields fields factory).result = .ok jwk) :
    PublicJwk.ofFields (fields.without Param.privateParams) factory = .ok jwk.publicHalf := by
  obtain ⟨d, half, spec, key, -, hhalf, -, -, rfl⟩ := result_ofFields_eq_ok_iff.mp h
  exact hhalf

/-- **The public half of a private key tells nothing about the secrets.** Field sets that differ
in their private members only are read with the same public half, its fields, their order and
its key. Its fields have no private member, and every other member that was read. -/
theorem publicHalf_hides_secrets (factory : KeyFactory) :
    (∀ fields others jwk other,
      fields.without Param.privateParams = others.without Param.privateParams →
      (ofFields fields factory).result = .ok jwk →
      (ofFields others factory).result = .ok other → jwk.publicHalf = other.publicHalf) ∧
    ∀ fields jwk, (ofFields fields factory).result = .ok jwk →
      jwk.publicHalf.fields.IsPublic ∧
      ∀ name value, (∀ param ∈ Param.privateParams, param.id ≠ name) →
        fields.lookup name = some value → jwk.publicHalf.fields.lookup name = some value := by
  constructor
  · intro fields others jwk other hsame hjwk hother
    have hhalf := publicHalf_of_ofFields hjwk
    rw [hsame, publicHalf_of_ofFields hother] at hhalf
    exact (Except.ok.inj hhalf).symm
  · intro fields jwk hjwk
    have hhalf := publicHalf_of_ofFields hjwk
    constructor
    · refine FieldSet.isPublic_iff_lookup.mpr fun param hparam => ?_
      rw [PublicJwk.lookup_privateParam hhalf hparam]
      exact FieldSet.isPublic_iff_lookup.mp fields.isPublic_without param hparam
    · intro name value hname hvalue
      rw [← fields.lookup_without hname] at hvalue
      exact PublicJwk.lookup_of_ofFields hhalf hvalue

/-- A plain key with the public members of `foreignFields`, which has another private exponent,
in another place, and a list of other primes that does not count. -/
def otherSecretFields : FieldSet where
  members :=
    [("oth", .bool false), ("kty", .null), ("n", .string "CX8"), ("d", .string "Ag"),
      ("e", .string "Bw")]
  nodup := by decide

/-- A multi-prime key and a plain key are read with the same public half. -/
theorem foreignFields_hide_secrets :
    foreignFields.without Param.privateParams = otherSecretFields.without Param.privateParams ∧
    ∃ jwk other, (ofFields foreignFields (KeyFactory.checking 12)).result = .ok jwk ∧
      (ofFields otherSecretFields (KeyFactory.checking 12)).result = .ok other ∧
      jwk.key.spec.shape = .multiPrime ∧ other.key.spec.shape = .plain ∧
      jwk.publicHalf = other.publicHalf ∧ jwk.publicHalf.fields.IsPublic ∧
      jwk.publicHalf.fields.lookup "n" = some (.string "CX8") := by
  have hsame : foreignFields.without Param.privateParams =
      otherSecretFields.without Param.privateParams := FieldSet.ext rfl
  obtain ⟨jwk, hjwk, hkey, -⟩ := exists_of_foreignFields
  obtain ⟨other, hother, hplain, -⟩ :
      ∃ other, (ofFields otherSecretFields (KeyFactory.checking 12)).result = .ok other ∧
        other.key = ⟨.plain 2431 2⟩ ∧ other.publicHalf.key = ⟨2431, 7⟩ :=
    ofFields_eq_ok_iff.mpr ⟨2431, 7, 2, .plain 2431 2, .of_octets [2] rfl (by decide),
      .inl (.inr rfl), .of_octets [9, 127] rfl (by decide), .of_octets [7] rfl (by decide),
      PrivateKey.threeFactor_publicKey_accepted, .plain (hasCrt_eq_false_iff.mp rfl),
      PrivateKey.ofSpec_eq_ok_iff.mpr ⟨by decide, rfl⟩⟩
  obtain ⟨hpublic, hcontent⟩ := publicHalf_hides_secrets (KeyFactory.checking 12)
  obtain ⟨hnone, hkept⟩ := hcontent foreignFields jwk hjwk
  refine ⟨hsame, jwk, other, hjwk, hother, ?_, ?_, ?_, hnone, ?_⟩
  · rw [hkey]
    rfl
  · rw [hplain]
    rfl
  · exact hpublic foreignFields otherSecretFields jwk other hsame hjwk hother
  · exact hkept "n" (.string "CX8") (by decide) rfl

end PrivateJwk

end WebKey
