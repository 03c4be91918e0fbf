/-
The key type after reading.

Reading a public key puts the key type of RSA keys into an empty field set and then sets
every member that was read, and reading a private key merges the outcome into its fields.
A key type that is `null` passes for an absent one at first, but is set like any other
member and replaces the one that was put.

* **`FieldSet.SaysRsa`** — the key type of a field set is that of RSA keys;
* **`PublicJwk.lookup_keyType`**, **`PrivateJwk.lookup_keyType`** — the key type of the
  fields that reading returns, by that of the fields that were read;
* **`PrivateJwk.ofFields_saysRsa_iff`** — it is that of RSA keys unless it was `null`;
* **`PrivateJwk.null_keyType_stays`** — a private key whose fields do not have it.
-/
import WebKey.Proofs.Jwk.Grammar

namespace WebKey

/-- The key type is present, and is that of RSA keys. -/
def FieldSet.SaysRsa (fields : FieldSet) : Prop :=
  fields.lookup Param.keyType.id = some (.string rsaKeyType)

/-- Where the key type of the one field set is that of the other or, if there is none, the
one of RSA keys. -/
theorem FieldSet.saysRsa_iff_of_lookup {fields after : FieldSet} (hkty : fields.HoldsKeyType)
    (h : after.lookup Param.keyType.id =
      (fields.lookup Param.keyType.id).or (some (.string rsaKeyType))) :
    (after.SaysRsa ↔ fields.lookup Param.keyType.id ≠ some .null) ∧
      (fields.lookup Param.keyType.id = some .null →
        after.lookup Param.keyType.id = some .null) := by
  rw [SaysRsa, h]
  rcases hkty with (hnone | hnull) | hrsa
  · have hlookup : fields.lookup Param.keyType.id = none := hnone
    rw [hlookup]
    simp
  · have hlookup : fields.lookup Param.keyType.id = some .null := hnull
    rw [hlookup]
    simp
  · rw [hrsa]
    simp

theorem PublicJwk.lookup_keyType {fields : FieldSet} {factory : KeyFactory} {half : PublicJwk}
    (h : ofFields fields factory = .ok half) :
    half.fields.lookup Param.keyType.id =
      (fields.lookup Param.keyType.id).or (some (.string rsaKeyType)) := by
  obtain ⟨-, n, e, -, -, key, -, rfl⟩ := ofFields_eq_ok_iff.mp h
  exact FieldSet.lookup_extend keyTypeFields fields _

namespace PrivateJwk

theorem lookup_keyType {fields : FieldSet} {factory : KeyFactory} {jwk : PrivateJwk}
    (h : (ofFields fields factory).result = .ok jwk) :
    jwk.fields.lookup Param.keyType.id =
        (fields.lookup Param.keyType.id).or (some (.string rsaKeyType)) ∧
      jwk.publicHalf.fields.lookup Param.keyType.id =
        (fields.lookup Param.keyType.id).or (some (.string rsaKeyType)) := by
  obtain ⟨d, half, spec, key, -, hhalf, -, -, rfl⟩ := result_ofFields_eq_ok_iff.mp h
  -- the public half is read from a filtered set, which has the same key type
  have hwithout : (fields.without Param.privateParams).lookup Param.keyType.id =
      fields.lookup Param.keyType.id := fields.lookup_without (by decide)
  have hlookup := PublicJwk.lookup_keyType hhalf
  rw [hwithout] at hlookup
  refine ⟨?_, hlookup⟩
  show (fields.extend half.fields).lookup _ = _
  rw [FieldSet.lookup_extend, hlookup]
  cases fields.lookup Param.keyType.id with
  | none => rfl
  | some value => rfl

/-- **The fields that reading returns say that the key is an RSA key, unless the key type was
`null`**: then it still is. This holds of public keys, of private keys and of their public
halves. -/
theorem ofFields_saysRsa_iff (fields : FieldSet) (factory : KeyFactory) :
    (∀ half, PublicJwk.ofFields fields factory = .ok half →
      (half.fields.SaysRsa ↔ fields.lookup Param.keyType.id ≠ some .null) ∧
      (fields.lookup Param.keyType.id = some .null →
        half.fields.lookup Param.keyType.id = some .null)) ∧
    (∀ jwk, (ofFields fields factory).result = .ok jwk →
      ((jwk.fields.SaysRsa ↔ fields.lookup Param.keyType.id ≠ some .null) ∧
        (jwk.publicHalf.fields.SaysRsa ↔ fields.lookup Param.keyType.id ≠ some .null)) ∧
      (fields.lookup Param.keyType.id = some .null →
        jwk.fields.lookup Param.keyType.id = some .null ∧
          jwk.publicHalf.fields.lookup Param.keyType.id = some .null)) := by
  constructor
  · intro half h
    have hkty := FieldSet.exists_checkKeyType_iff.mp (PublicJwk.ofFields_eq_ok_iff.mp h).1
    exact FieldSet.saysRsa_iff_of_lookup hkty (PublicJwk.lookup_keyType h)
  · intro jwk h
    obtain ⟨n, e, d, spec, -, hkty, -⟩ := ofFields_eq_ok_iff.mp ⟨jwk, h, rfl, rfl⟩
    obtain ⟨hfields, hpublic⟩ := lookup_keyType h
    obtain ⟨hfields, hfieldsNull⟩ := FieldSet.saysRsa_iff_of_lookup hkty hfields
    obtain ⟨hpublic, hpublicNull⟩ := FieldSet.saysRsa_iff_of_lookup hkty hpublic
    exact ⟨⟨hfields, hpublic⟩, fun hnull => ⟨hfieldsNull hnull, hpublicNull hnull⟩⟩

/-- Fields that hold the numbers of a small plain key are read. -/
theorem plain_fields_are_read {fields : FieldSet} (hkty : fields.HoldsKeyType)
    (hn : fields.members.HoldsInteger .modulus 3233)
    (he : fields.members.HoldsInteger .publicExponent 17)
    (hd : fields.members.HoldsInteger .privateExponent 413) (hcrt : hasCrt fields = false) :
    (∃ half, PublicJwk.ofFields fields (KeyFactory.checking 12) = .ok half) ∧
      ∃ jwk, (ofFields fields (KeyFactory.checking 12)).result = .ok jwk := by
  have hpublic : (KeyFactory.checking 12).publicKey 3233 17 = .ok ⟨3233, 17⟩ :=
    PublicKey.ofNumbers_eq_ok_iff.mpr ⟨by decide, rfl⟩
  have hprivate : (KeyFactory.checking 12).privateKey (.plain 3233 413) =
      .ok ⟨.plain 3233 413⟩ := PrivateKey.ofSpec_eq_ok_iff.mpr ⟨by decide, rfl⟩
  constructor
  · exact ⟨_, PublicJwk.ofFields_eq_ok_iff.mpr ⟨FieldSet.exists_checkKeyType_iff.mpr hkty, _, _,
      FieldSet.requiredInteger_eq_ok_iff.mpr hn, FieldSet.requiredInteger_eq_ok_iff.mpr he, _,
      hpublic, rfl⟩⟩
  · obtain ⟨jwk, hjwk, -⟩ := ofFields_eq_ok_iff.mpr ⟨_, _, _, _, hd, hkty, hn, he, hpublic,
      .plain (hasCrt_eq_false_iff.mp hcrt), hprivate⟩
    exact ⟨jwk, hjwk⟩

/-- The fields of a plain key without a key type. -/
def typelessFields : FieldSet where
  members := [("n", .string "DKE"), ("e", .string "EQ"), ("d", .string "AZ0")]
  nodup := by decide

/-- They gain the key type when they are read. -/
theorem typelessFields_gain_keyType :
    (∃ half, PublicJwk.ofFields typelessFields (KeyFactory.checking 12) = .ok half ∧
      half.fields.SaysRsa) ∧
    ∃ jwk, (ofFields typelessFields (KeyFactory.checking 12)).result = .ok jwk ∧
      jwk.fields.SaysRsa ∧ jwk.publicHalf.fields.SaysRsa := by
  have hne : typelessFields.lookup Param.keyType.id ≠ some .null :=
    fun h => absurd (show none = some Json.null from h) (by simp)
  obtain ⟨⟨half, hhalf⟩, jwk, hjwk⟩ := @plain_fields_are_read typelessFields
    (.inl (.inl rfl)) (.of_octets [12, 161] rfl (by decide)) (.of_octets [17] rfl (by decide))
    (.of_octets [1, 157] rfl (by decide)) rfl
  have hkeyType := ofFields_saysRsa_iff typelessFields (KeyFactory.checking 12)
  obtain ⟨⟨hfields, hpublic⟩, -⟩ := hkeyType.2 jwk hjwk
  exact ⟨⟨half, hhalf, (hkeyType.1 half hhalf).1.mpr hne⟩, jwk, hjwk, hfields.mpr hne,
    hpublic.mpr hne⟩

/-- The same fields with a key type that is `null`. -/
def nullTypeFields : FieldSet where
  members := ("kty", .null) :: typelessFields.members
  nodup := by decide

/-- They do not gain the key type when they are read, neither as a public key nor as a
private one. -/
theorem null_keyType_stays :
    (∃ half, PublicJwk.ofFields nullTypeFields (KeyFactory.checking 12) = .ok half ∧
      ¬half.fields.SaysRsa) ∧
    ∃ jwk, (ofFields nullTypeFields (KeyFactory.checking 12)).result = .ok jwk ∧
      ¬jwk.fields.SaysRsa ∧ ¬jwk.publicHalf.fields.SaysRsa := by
  have hnull : (some .null : Option Json) ≠ some (.string rsaKeyType) := by simp
  obtain ⟨⟨half, hhalf⟩, jwk, hjwk⟩ := @plain_fields_are_read nullTypeFields
    (.inl (.inr rfl)) (.of_octets [12, 161] rfl (by decide)) (.of_octets [17] rfl (by decide))
    (.of_octets [1, 157] rfl (by decide)) rfl
  have hhalfNull : half.fields.lookup Param.keyType.id = some .null :=
    PublicJwk.lookup_keyType hhalf
  have hjwkNull : jwk.fields.lookup Param.keyType.id = some .null := (lookup_keyType hjwk).1
  have hpublicNull : jwk.publicHalf.fields.lookup Param.keyType.id = some .null :=
    (lookup_keyType hjwk).2
  refine ⟨⟨half, hhalf, fun h => hnull (hhalfNull.symm.trans h)⟩, jwk, hjwk, ?_, ?_⟩
  · exact fun h => hnull (hjwkNull.symm.trans h)
  · exact fun h => hnull (hpublicNull.symm.trans h)

end PrivateJwk

end WebKey
