/-
The fields that reading returns.

Reading merges the fields of the public half into those that were read. The public half is
itself a merge, of the key type with the fields that are not private. Together they leave every
member where it is and add at most the key type, so reading what was returned changes nothing.

* **`PrivateJwk.members_returned`** — the fields that are returned are those that were read,
  with the key type at the end if they have no member of that name;
* **`PrivateJwk.publicFields_returned`** — the fields of the public half are the same for both;
* **`PrivateJwk.ofFields_idempotent`** — what was returned is a private key and is read again as
  it is.
-/
import WebKey.Proofs.Jwk.KeyType
import WebKey.Proofs.Merge

namespace WebKey

namespace PrivateJwk

/-! ### The two merges -/

/-- The fields of the public half that is read from these fields. -/
def publicFields (fields : FieldSet) : FieldSet :=
  PublicJwk.keyTypeFields.extend (fields.without Param.privateParams)

/-- The fields that are returned when these fields are read. -/
def returned (fields : FieldSet) : FieldSet := fields.extend (publicFields fields)

theorem lookup_publicFields (fields : FieldSet) (name : String) :
    (publicFields fields).lookup name =
      ((fields.without Param.privateParams).lookup name).or
        (PublicJwk.keyTypeFields.lookup name) :=
  FieldSet.lookup_extend _ _ name

theorem lookup_keyTypeFields (name : String) :
    PublicJwk.keyTypeFields.lookup name =
      if name = Param.keyType.id then some (.string rsaKeyType) else none :=
  FieldSet.lookup_put FieldSet.empty .keyType (.string rsaKeyType) name

theorem lookup_keyType_without_privateParams (fields : FieldSet) :
    (fields.without Param.privateParams).lookup Param.keyType.id =
      fields.lookup Param.keyType.id :=
  fields.lookup_without (by decide)

/-- The public half has no other value for a member than the fields. -/
theorem updated_publicFields {fields : FieldSet} {member : String × Json}
    (h : member ∈ fields.members) :
    Members.updated (publicFields fields).members member = member := by
  have hvalue : fields.lookup member.1 = some member.2 := Members.lookup_of_mem fields.nodup h
  have hlookup := lookup_publicFields fields member.1
  rw [FieldSet.lookup_without_eq, lookup_keyTypeFields] at hlookup
  by_cases hprivate : Param.privateParams.any (·.id == member.1) = true
  · -- a private member is not in the public half, as its name is not that of the key type
    have hkty : member.1 ≠ Param.keyType.id := by
      intro hkty
      rw [hkty] at hprivate
      exact absurd hprivate (by decide)
    rw [if_pos hprivate, if_neg hkty] at hlookup
    exact Members.updated_of_lookup_eq_none hlookup
  · rw [if_neg hprivate, hvalue] at hlookup
    rw [Members.updated, show (publicFields fields).members.lookup member.1 = _ from hlookup]
    rfl

/-- The public half has the key type in front, and then the members that are not private. -/
theorem members_publicFields (fields : FieldSet) :
    (publicFields fields).members =
      (Param.keyType.id, (fields.lookup Param.keyType.id).getD (.string rsaKeyType)) ::
        (fields.without Param.privateParams).members.filter
          fun member => decide (member.1 ≠ Param.keyType.id) := by
  have hmerge : (publicFields fields).members =
      PublicJwk.keyTypeFields.members.extend (fields.without Param.privateParams).members := rfl
  rw [hmerge, Members.extend_eq (FieldSet.nodup _) (FieldSet.nodup _),
    ← lookup_keyType_without_privateParams]
  refine congrArg₂ List.cons rfl (List.filter_congr fun member _ => ?_)
  exact decide_eq_decide.mpr (not_congr List.mem_singleton)

/-- **The fields that are returned** are those that were read, with the key type at the end if
they have no member of that name. -/
theorem members_returned (fields : FieldSet) :
    (returned fields).members = fields.members ++
      if Param.keyType.id ∈ fields.names then [] else [(Param.keyType.id, .string rsaKeyType)] := by
  have hmerge : (returned fields).members = fields.members.extend (publicFields fields).members :=
    rfl
  -- besides the key type, every member of the public half is one of the fields
  have hrest : (((fields.without Param.privateParams).members.filter
      fun member => decide (member.1 ≠ Param.keyType.id)).filter
        fun member => decide (member.1 ∉ fields.members.names)) = [] := by
    refine List.filter_eq_nil_iff.mpr fun member hmember => ?_
    have hkept := List.mem_of_mem_filter (List.mem_of_mem_filter hmember)
    have hname : member.1 ∈ fields.members.names := List.mem_map_of_mem hkept
    simp [hname]
  rw [FieldSet.names, hmerge, Members.extend_eq fields.nodup (FieldSet.nodup _),
    Members.map_updated_eq_self fun member => updated_publicFields, members_publicFields,
    List.filter_cons, hrest]
  by_cases hkty : Param.keyType.id ∈ fields.members.names
  · rw [if_pos hkty, if_neg (by simpa using hkty)]
  · have hnone : fields.lookup Param.keyType.id = none := Members.lookup_eq_none_iff.mpr hkty
    rw [if_neg hkty, if_pos (by simpa using hkty), hnone]
    rfl

/-! ### Merging again -/

theorem returned_of_mem {fields : FieldSet} (h : Param.keyType.id ∈ fields.names) :
    returned fields = fields := by
  refine FieldSet.ext ?_
  rw [members_returned, if_pos h, List.append_nil]

/-- Putting the key type at the end does not move it in the public half. -/
theorem publicFields_returned (fields : FieldSet) :
    publicFields (returned fields) = publicFields fields := by
  by_cases hkty : Param.keyType.id ∈ fields.names
  · rw [returned_of_mem hkty]
  · have hwithout : ((returned fields).without Param.privateParams).members =
        (fields.without Param.privateParams).members ++
          [(Param.keyType.id, .string rsaKeyType)] := by
      show (returned fields).members.filter _ = _
      rw [members_returned, if_neg hkty, List.filter_append]
      rfl
    have hlookup : (publicFields fields).lookup Param.keyType.id = some (.string rsaKeyType) := by
      rw [lookup_publicFields, lookup_keyType_without_privateParams,
        show fields.lookup Param.keyType.id = none from Members.lookup_eq_none_iff.mpr hkty]
      rfl
    refine FieldSet.ext ?_
    show PublicJwk.keyTypeFields.members.extend _ = _
    rw [hwithout, Members.extend_append]
    exact Members.insert_eq_self hlookup

theorem returned_returned (fields : FieldSet) : returned (returned fields) = returned fields := by
  rw [returned, publicFields_returned]
  refine FieldSet.extend_eq_self fun member hmember => ?_
  -- the members of the public half have been merged in before
  rw [returned, FieldSet.lookup_extend,
    show (publicFields fields).lookup member.1 = some member.2 from
      Members.lookup_of_mem (FieldSet.nodup _) hmember]
  rfl

/-! ### Reading again -/

theorem lookup_returned (fields : FieldSet) (name : String) :
    (returned fields).lookup name = (fields.lookup name).or
      (if name = Param.keyType.id then some (.string rsaKeyType) else none) := by
  by_cases hkty : Param.keyType.id ∈ fields.names
  · rw [returned_of_mem hkty]
    by_cases hname : name = Param.keyType.id
    · obtain ⟨value, hvalue⟩ : ∃ value, fields.lookup name = some value :=
        Members.exists_lookup_of_mem (hname ▸ hkty)
      rw [hvalue]
      rfl
    · rw [if_neg hname, Option.or_none]
  · have hmembers : (returned fields).lookup name = List.lookup name (fields.members ++ _) :=
      congrArg (List.lookup name) (members_returned fields)
    have hfields : List.lookup name fields.members = fields.lookup name := rfl
    rw [hmembers, List.lookup_append, hfields, if_neg hkty, List.lookup_cons, List.lookup_nil]
    by_cases hname : name = Param.keyType.id
    · rw [if_pos hname, hname, beq_self_eq_true]
    · rw [if_neg hname, beq_eq_false_iff_ne.mpr hname]

theorem field?_returned_of_ne {fields : FieldSet} {name : String} (h : name ≠ Param.keyType.id) :
    (returned fields).field? name = fields.field? name := by
  refine FieldSet.field?_congr ?_
  rw [lookup_returned, if_neg h, Option.or_none]

theorem holdsKeyType_returned {fields : FieldSet} (h : fields.HoldsKeyType) :
    (returned fields).HoldsKeyType := by
  have hlookup := lookup_returned fields Param.keyType.id
  rw [if_pos rfl] at hlookup
  rcases h with (hnone | hnull) | hrsa
  · rw [show fields.lookup Param.keyType.id = none from hnone] at hlookup
    exact .inr hlookup
  · rw [show fields.lookup Param.keyType.id = some .null from hnull] at hlookup
    exact .inl (.inr hlookup)
  · rw [hrsa] at hlookup
    exact .inr hlookup

section Again

variable {fields : FieldSet} {factory : KeyFactory}

/-- Fields that hold a private exponent and no foreign key type look like a private key. -/
theorem supports_of_holds {d : ℕ} (hd : fields.members.HoldsInteger .privateExponent d)
    (hkty : fields.HoldsKeyType) : supports fields = true := by
  obtain ⟨-, text, htext, -⟩ := hd
  obtain ⟨present, hpresent⟩ := FieldSet.checkKeyType_of_holdsKeyType hkty
  have hfield : fields.field? Param.privateExponent.id = some (.string text) :=
    Members.field?_eq_some_iff.mpr ⟨htext, rfl⟩
  have hhas : fields.hasField Param.privateExponent.id = true :=
    Option.isSome_iff_exists.mpr ⟨_, hfield⟩
  rw [supports, hhas, hpresent]
  rfl

theorem publicHalf_returned {half : PublicJwk}
    (h : PublicJwk.ofFields (fields.without Param.privateParams) factory = .ok half) :
    half.fields = publicFields fields ∧
      PublicJwk.ofFields ((returned fields).without Param.privateParams) factory = .ok half := by
  obtain ⟨hkty, n, e, hn, he, key, hkey, rfl⟩ := publicHalf_ofFields_eq_ok_iff.mp h
  refine ⟨rfl, publicHalf_ofFields_eq_ok_iff.mpr ⟨holdsKeyType_returned hkty, n, e, ?_, ?_, key,
    hkey, ?_⟩⟩
  · rw [← FieldSet.requiredInteger_eq_ok_iff] at hn ⊢
    rwa [FieldSet.requiredInteger_congr (field?_returned_of_ne (by decide))]
  · rw [← FieldSet.requiredInteger_eq_ok_iff] at he ⊢
    rwa [FieldSet.requiredInteger_congr (field?_returned_of_ne (by decide))]
  · exact congrArg (PublicJwk.mk · key) (publicFields_returned fields).symm

/-- The two field sets of a private key that was read. -/
theorem fields_of_ofFields {jwk : PrivateJwk} (h : (ofFields fields factory).result = .ok jwk) :
    jwk.fields = returned fields ∧ jwk.publicHalf.fields = publicFields fields := by
  obtain ⟨d, half, spec, key, -, hhalf, -, -, rfl⟩ := result_ofFields_eq_ok_iff.mp h
  obtain ⟨hfields, -⟩ := publicHalf_returned hhalf
  rw [hfields]
  exact ⟨rfl, rfl⟩

/-- **What reading returns is a fixed point**: both field sets look like private keys, and the
fields that were returned are read as the same key with the same fields, in their order, and the
same public half. -/
theorem ofFields_idempotent {jwk : PrivateJwk} (h : (ofFields fields factory).result = .ok jwk) :
    supports fields = true ∧ supports jwk.fields = true ∧
      (ofFields jwk.fields factory).result = .ok jwk := by
  obtain ⟨d, half, spec, key, hd, hhalf, hspec, hkey, rfl⟩ := result_ofFields_eq_ok_iff.mp h
  obtain ⟨hfields, hagain⟩ := publicHalf_returned hhalf
  obtain ⟨hkty, -⟩ := publicHalf_ofFields_eq_ok_iff.mp hhalf
  rw [hfields, ← returned]
  have hdAgain : (returned fields).requiredInteger .privateExponent = .ok d := by
    rwa [FieldSet.requiredInteger_congr (field?_returned_of_ne (by decide))]
  have hspecAgain : readSpec (returned fields) half.key d = .ok spec := by
    rwa [readSpec_congr fun param hparam => field?_returned_of_ne (by revert param; decide)]
  refine ⟨?_, ?_, result_ofFields_eq_ok_iff.mpr
    ⟨d, half, spec, key, hdAgain, hagain, hspecAgain, hkey, ?_⟩⟩
  · exact supports_of_holds (FieldSet.requiredInteger_eq_ok_iff.mp hd) hkty
  · exact supports_of_holds (FieldSet.requiredInteger_eq_ok_iff.mp hdAgain)
      (holdsKeyType_returned hkty)
  · rw [hfields, ← publicFields_returned, ← returned, returned_returned]

end Again

/-- The fields of a plain key with a member that is not known, a zero octet in front of the
private exponent, a list of other primes that does not count and a first prime that is `null`. -/
def strayFields : FieldSet where
  members :=
    [("kid", .string "1"), ("d", .string "AAGd"), ("oth", .bool false), ("n", .string "DKE"),
      ("p", .null), ("e", .string "EQ")]
  nodup := by decide

/-- They are returned with the key type at their end, and what is returned is read as it is. -/
theorem strayFields_are_read_again :
    ∃ jwk, (ofFields strayFields (KeyFactory.checking 12)).result = .ok jwk ∧
      supports strayFields = true ∧ supports jwk.fields = true ∧
      (ofFields jwk.fields (KeyFactory.checking 12)).result = .ok jwk ∧
      jwk.fields.names = ["kid", "d", "oth", "n", "p", "e", "kty"] := by
  obtain ⟨-, jwk, hjwk⟩ := @plain_fields_are_read strayFields (.inl (.inl rfl))
    (.of_octets [12, 161] rfl (by decide)) (.of_octets [17] rfl (by decide))
    (.of_octets [0, 1, 157] rfl (by decide)) rfl
  obtain ⟨hsupports, hagain, hread⟩ := ofFields_idempotent hjwk
  refine ⟨jwk, hjwk, hsupports, hagain, hread, ?_⟩
  rw [(fields_of_ofFields hjwk).1, FieldSet.names, members_returned]
  rfl

end PrivateJwk

end WebKey
