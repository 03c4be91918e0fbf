/-
Reading goes by the parameters of a key.

Two field sets may differ in the order of their members, in members that are not known and in
members that are `null`. If they give the same values to the parameters of a key, both are read
as the same keys or both are refused for the same reason. The message may still differ where it
lists the names of the field set.

* **`Json.Alike`** — the same value, up to the order of members at every level;
* **`SameFault`** — errors of one kind about one member, which are equal when a member is
  malformed;
* **`PrivateJwk.ofFields_agree`** — the two field sets agree, and no member of theirs is touched.
-/
import WebKey.Proofs.Jwk.KeptFields
import WebKey.Proofs.TwoRuns

namespace WebKey

/-! ### Values -/

/-- The same value, up to the order of members at every level. -/
inductive Json.Alike : Json → Json → Prop where
  | refl (value : Json) : Alike value value
  | array {items others : List Json} (h : List.Forall₂ Alike items others) :
    Alike (.array items) (.array others)
  | object {members others : Members}
      (h : ∀ name, Option.Rel Alike (members.lookup name) (others.lookup name)) :
    Alike (.object members) (.object others)

namespace Json.Alike

variable {value other : Json}

theorem isNull_eq (h : Alike value other) : value.isNull = other.isNull := by
  cases h with
  | refl => rfl
  | array => rfl
  | object => rfl

theorem positiveInteger_eq (h : Alike value other) (param : Param) :
    value.positiveInteger param = other.positiveInteger param := by
  cases h with
  | refl => rfl
  | array => rfl
  | object => rfl

end Json.Alike

namespace Members

variable {members others : Members}

theorem field?_alike {name : String}
    (h : Option.Rel Json.Alike (members.lookup name) (others.lookup name)) :
    Option.Rel Json.Alike (members.field? name) (others.field? name) :=
  field?_rel (fun _ _ => Json.Alike.isNull_eq) h

theorem requiredInteger_eq_of_alike {param : Param}
    (h : Option.Rel Json.Alike (members.field? param.id) (others.field? param.id)) :
    members.requiredInteger param = others.requiredInteger param := by
  rw [requiredInteger, requiredInteger]
  generalize members.field? param.id = found, others.field? param.id = found' at h
  cases h with
  | none => rfl
  | some h => exact congrArg (Except.mapError _) (h.positiveInteger_eq param)

/-- Members that answer alike to every name are both missing or both not. -/
theorem eq_nil_iff_of_alike
    (h : ∀ name, Option.Rel Json.Alike (members.lookup name) (others.lookup name)) :
    members = [] ↔ others = [] := by
  cases members with
  | nil =>
    cases others with
    | nil => rfl
    | cons member rest =>
      have hfirst := h member.1
      rw [List.lookup_cons_self] at hfirst
      cases hfirst
  | cons member rest =>
    cases others with
    | nil =>
      have hfirst := h member.1
      rw [List.lookup_cons_self] at hfirst
      cases hfirst
    | cons => simp

end Members

/-! ### The list of other primes -/

namespace OtherPrime

theorem ofJson_eq_of_alike {item other : Json} (h : item.Alike other) :
    ofJson item = ofJson other := by
  cases h with
  | refl => rfl
  | array => rfl
  | @object members others h =>
    by_cases hempty : members = []
    · rw [(Members.eq_nil_iff_of_alike h).mp hempty, hempty]
    · have hother : others ≠ [] := fun hnil => hempty ((Members.eq_nil_iff_of_alike h).mpr hnil)
      have hread : ∀ param, members.requiredInteger param = others.requiredInteger param :=
        fun param => Members.requiredInteger_eq_of_alike (Members.field?_alike (h param.id))
      rw [ofJson_object hempty, ofJson_object hother, hread, hread, hread]

theorem mapM_ofJson_eq_of_alike {items others : List Json}
    (h : List.Forall₂ Json.Alike items others) : items.mapM ofJson = others.mapM ofJson := by
  induction h with
  | nil => rfl
  | cons h _ ih => rw [List.mapM_cons, List.mapM_cons, ofJson_eq_of_alike h, ih]

theorem listOfJson_eq_of_alike {value other : Json} (h : value.Alike other) :
    listOfJson value = listOfJson other := by
  cases h with
  | refl => rfl
  | object => rfl
  | array h =>
    -- an empty list is refused before its elements are read
    cases h with
    | nil => rfl
    | cons h hrest => exact mapM_ofJson_eq_of_alike (.cons h hrest)

end OtherPrime

/-! ### Errors -/

/-- The errors are of one kind and about one member, and equal when that is malformed. -/
structure SameFault (error error' : RsaError) : Prop where
  kind : error.kind = error'.kind
  member : error.member? = error'.member?
  eq_of_malformed : error.kind = .malformedField → error = error'

theorem SameFault.refl (error : RsaError) : SameFault error error := ⟨rfl, rfl, fun _ => rfl⟩

/-- Errors that say that a key is not supported are about no member. -/
theorem SameFault.of_unsupported {error error' : RsaError}
    (h : error.kind = .unsupportedKeyShape) (h' : error'.kind = .unsupportedKeyShape) :
    SameFault error error' := by
  have hmember : ∀ error : RsaError, error.kind = .unsupportedKeyShape → error.member? = none := by
    intro error h
    cases error with
    | malformed => exact absurd h (by simp [RsaError.kind])
    | _ => rfl
  refine ⟨h.trans h'.symm, (hmember _ h).trans (hmember _ h').symm, fun hmalformed => ?_⟩
  exact absurd (h.symm.trans hmalformed) (by simp)

/-! ### Reading -/

section Reading

variable {fields others : FieldSet}

theorem FieldSet.checkKeyType_agree
    (h : Option.Rel Json.Alike (fields.field? Param.keyType.id)
      (others.field? Param.keyType.id)) :
    Agree SameFault Eq fields.checkKeyType others.checkKeyType := by
  rw [checkKeyType, checkKeyType]
  generalize fields.field? Param.keyType.id = found, others.field? Param.keyType.id = found' at h
  cases h with
  | none => exact .ok rfl
  | some h =>
    cases h with
    | refl => exact .of_eq .refl rfl
    | array => exact .error (.of_unsupported rfl rfl)
    | object => exact .error (.of_unsupported rfl rfl)

namespace PrivateJwk

/-- The two field sets give the same values to the parameters of a key. -/
def SameParams (fields others : FieldSet) : Prop :=
  ∀ param ∈ Param.rsaParams, Option.Rel Json.Alike (fields.field? param.id)
    (others.field? param.id)

theorem SameParams.requiredInteger_eq (h : SameParams fields others) {param : Param}
    (hparam : param ∈ Param.rsaParams) :
    fields.requiredInteger param = others.requiredInteger param :=
  Members.requiredInteger_eq_of_alike (h param hparam)

theorem SameParams.readSpec_eq (h : SameParams fields others) (publicKey : PublicKey) (d : ℕ) :
    readSpec fields publicKey d = readSpec others publicKey d := by
  have hcrt : hasCrt fields = hasCrt others := by
    rw [Bool.eq_iff_iff, hasCrt, hasCrt, List.any_eq_true, List.any_eq_true]
    refine exists_congr fun param => and_congr_right fun hparam => ?_
    have hfield : fields.hasField param.id = others.hasField param.id :=
      Members.hasField_eq_of_rel (h param (by revert param; decide))
    rw [hfield]
  have hread : readCrt fields = readCrt others := by
    simp (disch := decide) only [readCrt, h.requiredInteger_eq]
  have hothers := h .otherPrimesInfo (by decide)
  rw [readSpec, readSpec, hcrt, hread]
  generalize fields.field? Param.otherPrimesInfo.id = found,
    others.field? Param.otherPrimesInfo.id = found' at hothers
  cases hothers with
  | none => rfl
  | some h => simp only [OtherPrime.listOfJson_eq_of_alike h]

theorem SameParams.publicHalf_agree (h : SameParams fields others) (factory : KeyFactory) :
    Agree SameFault (fun half other => half.key = other.key)
      (PublicJwk.ofFields (fields.without Param.privateParams) factory)
      (PublicJwk.ofFields (others.without Param.privateParams) factory) := by
  rw [publicHalf_ofFields, publicHalf_ofFields]
  refine (FieldSet.checkKeyType_agree (h .keyType (by decide))).bind fun _ _ _ => ?_
  refine (Agree.of_eq .refl (h.requiredInteger_eq (by decide))).bind ?_
  rintro n _ rfl
  refine (Agree.of_eq .refl (h.requiredInteger_eq (by decide))).bind ?_
  rintro e _ rfl
  refine (Agree.mapError fun _ => .of_unsupported rfl rfl).bind ?_
  rintro key _ rfl
  exact .ok rfl

theorem refusal_sameFault (shape : KeyShape) (cause : RsaError) :
    SameFault (refusal fields shape cause) (refusal others shape cause) := by
  rw [refusal, refusal]
  split
  · exact .refl cause
  · exact .of_unsupported rfl rfl

/-- **Only the parameters of a key matter, and no member is touched.** Field sets that give the
same values to the parameters are read as the same keys or refused for the same reason. The
fields that are returned are those that were read, with the key type at the end if they have no
member of that name. -/
theorem ofFields_agree (fields others : FieldSet) (factory : KeyFactory)
    (h : SameParams fields others) :
    Agree SameFault
      (fun jwk other => jwk.key = other.key ∧ jwk.publicHalf.key = other.publicHalf.key)
      (ofFields fields factory).result (ofFields others factory).result ∧
    ∀ jwk, (ofFields fields factory).result = .ok jwk →
      jwk.fields.members = fields.members ++
        if Param.keyType.id ∈ fields.names then []
        else [(Param.keyType.id, .string rsaKeyType)] := by
  constructor
  · rw [result_ofFields, result_ofFields]
    refine (Agree.of_eq .refl (h.requiredInteger_eq (by decide))).bind ?_
    rintro d _ rfl
    refine (h.publicHalf_agree factory).bind ?_
    rintro half other hkey
    rw [hkey]
    refine (Agree.of_eq .refl (h.readSpec_eq other.key d)).bind ?_
    rintro spec _ rfl
    refine (Agree.mapError fun cause => refusal_sameFault spec.shape cause).bind ?_
    rintro key _ rfl
    exact .ok ⟨rfl, hkey⟩
  · intro jwk hjwk
    rw [(fields_of_ofFields hjwk).1, members_returned]

/-- The fields of `foreignFields` in another order, also within the list of other primes, without
the key type and with two more members. -/
def shuffledFields : FieldSet where
  members :=
    [("use", .null), ("oth", .array [.object [("r", .string "EQ"), ("d", .string "Bw"),
      ("t", .string "BQ"), ("kid", .null)]]), ("qi", .string "Bg"), ("dq", .string "Bw"),
      ("dp", .string "Aw"), ("q", .string "DQ"), ("p", .string "Cw"), ("kid", .string "1"),
      ("e", .string "Bw"), ("n", .string "CX8"), ("d", .string "AGc")]
  nodup := by decide

theorem foreignFields_sameParams : SameParams foreignFields shuffledFields := by
  have helement :
      Json.Alike
        (.object [("kid", .null), ("t", .string "BQ"), ("r", .string "EQ"), ("d", .string "Bw")])
        (.object [("r", .string "EQ"), ("d", .string "Bw"), ("t", .string "BQ"),
          ("kid", .null)]) := by
    refine .object fun name => ?_
    by_cases hr : name = "r"
    · subst hr
      exact .some (.refl _)
    by_cases hd : name = "d"
    · subst hd
      exact .some (.refl _)
    by_cases ht : name = "t"
    · subst ht
      exact .some (.refl _)
    by_cases hkid : name = "kid"
    · subst hkid
      exact .some (.refl _)
    simp only [List.lookup_cons, List.lookup_nil, beq_eq_false_iff_ne.mpr hr,
      beq_eq_false_iff_ne.mpr hd, beq_eq_false_iff_ne.mpr ht, beq_eq_false_iff_ne.mpr hkid]
    exact .none
  simp only [SameParams, Param.rsaParams, Param.publicParams, Param.privateParams,
    Param.crtParams, List.cons_append, List.nil_append, List.forall_mem_cons]
  refine ⟨.none, .some (.refl _), .some (.refl _), .some (.refl _), .some (.refl _),
    .some (.refl _), .some (.refl _), .some (.refl _), .some (.refl _),
    .some (.array (.cons helement .nil)), by simp⟩

/-- Both are read as the same private key, and the second gains the key type at its end. -/
theorem shuffledFields_are_read_alike :
    SameParams foreignFields shuffledFields ∧
    ∃ jwk other, (ofFields foreignFields (KeyFactory.checking 12)).result = .ok jwk ∧
      (ofFields shuffledFields (KeyFactory.checking 12)).result = .ok other ∧
      jwk.key = .threeFactor ∧ jwk.key = other.key ∧ jwk.publicHalf.key = other.publicHalf.key ∧
      other.fields.names = shuffledFields.names ++ ["kty"] := by
  obtain ⟨jwk, hjwk, hkey, -⟩ := exists_of_foreignFields
  obtain ⟨hagree, -⟩ := ofFields_agree foreignFields shuffledFields (KeyFactory.checking 12)
    foreignFields_sameParams
  rw [hjwk] at hagree
  generalize hresult : (ofFields shuffledFields (KeyFactory.checking 12)).result = result at hagree
  cases hagree with
  | @ok _ other hkeys =>
    refine ⟨foreignFields_sameParams, jwk, other, hjwk, rfl, hkey, hkeys.1, hkeys.2, ?_⟩
    rw [(fields_of_ofFields hresult).1, FieldSet.names, members_returned]
    rfl

end PrivateJwk

end Reading

end WebKey
