/-
The size limit of the checking factory.

The limit is looked at twice, when the public key is made and when the private key is. Both times
the modulus is the same, so the second look finds nothing new, and no other check knows the limit.
Raising it therefore changes nothing but the one refusal that says that the modulus is too large.

* **`KeySpec.check_congr`**, **`PublicKey.ofNumbers_congr`** — the checks tell two limits apart by
  the size of the modulus only;
* **`PrivateJwk.ofFields_congr`** — reading asks the key factory about the numbers of the field
  set only;
* **`PrivateJwk.FitsLargerOnly`** — the field sets that are read far enough to look at the limit,
  and whose modulus lies between the two;
* **`PrivateJwk.SameOutcome`** — results that a caller cannot tell apart;
* **`PrivateJwk.raising_limit_lifts_one_refusal`** — what two limits have to do with each other.
-/
import WebKey.Proofs.Jwk.Diagnostics
import WebKey.Proofs.Jwk.Failures

namespace WebKey

/-! ### Checks with two limits -/

section Limits

variable {n e small large : ℕ}

namespace PublicKey

theorem checkModulus_congr (h : bitLength n ≤ small ↔ bitLength n ≤ large) :
    checkModulus small n = checkModulus large n := by
  have hlt : small < bitLength n ↔ large < bitLength n := by rw [← not_le, h, not_le]
  simp only [checkModulus, hlt]

theorem check_congr (h : bitLength n ≤ small ↔ bitLength n ≤ large) :
    check small n e = check large n e := by
  rw [check, check, checkModulus_congr h]

theorem ofNumbers_congr (h : bitLength n ≤ small ↔ bitLength n ≤ large) :
    ofNumbers small n e = ofNumbers large n e := by
  rw [ofNumbers, ofNumbers, check_congr h]

theorem ofNumbers_of_lt (h : small < bitLength n) :
    ofNumbers small n e = .error .modulusTooLarge := by
  rw [ofNumbers, check, checkModulus, if_pos h]
  rfl

/-- A public key whose modulus is not too large is refused for one of three other reasons. -/
theorem ofNumbers_failsWithin (h : bitLength n ≤ large) :
    FailsWithin [.invalidModulus, .publicExponentTooSmall, .publicExponentTooLarge]
      (ofNumbers large n e) := by
  rw [ofNumbers, check, checkModulus, if_neg (not_lt.mpr h)]
  refine .bind (.bind (.ite (by simp) (failsWithin_ok ())) fun _ _ => ?_)
    fun _ _ => failsWithin_ok _
  exact .ite (by simp) (.ite (by simp) (failsWithin_ok ()))

end PublicKey

theorem KeySpec.check_congr {spec : KeySpec}
    (h : bitLength spec.modulus ≤ small ↔ bitLength spec.modulus ≤ large) :
    spec.check small = spec.check large := by
  cases spec with
  | plain n d =>
    rw [modulus] at h
    rw [check, check, PublicKey.checkModulus_congr h]
  | twoPrime n e d crt =>
    rw [modulus] at h
    rw [check, check, PublicKey.check_congr h]
  | multiPrime n e d crt others =>
    rw [modulus] at h
    rw [check, check, PublicKey.check_congr h]

theorem PrivateKey.ofSpec_congr {spec : KeySpec}
    (h : bitLength spec.modulus ≤ small ↔ bitLength spec.modulus ≤ large) :
    ofSpec small spec = ofSpec large spec := by
  rw [ofSpec, ofSpec, KeySpec.check_congr h]

end Limits

/-- Texts differ if they begin with different letters. -/
theorem append_ne_append {first other : String} {a b : Char}
    (hfirst : first.toList.head? = some a) (hother : other.toList.head? = some b) (hne : a ≠ b)
    (rest later : String) : first ++ rest ≠ other ++ later := by
  intro h
  have hhead := congrArg (fun text => text.toList.head?) h
  simp only [String.toList_append, List.head?_append, hfirst, hother, Option.some_or,
    Option.some_inj] at hhead
  exact hne hhead

namespace PrivateJwk

/-! ### Reading with two key factories -/

section Factories

variable {fields : FieldSet} {factory other : KeyFactory}

theorem prepare_congr
    (h : ∀ n e d, HoldsNumbers fields n e d → factory.publicKey n e = other.publicKey n e) :
    prepare fields factory = prepare fields other := by
  rw [prepare, prepare, publicHalf_ofFields, publicHalf_ofFields]
  refine bind_congr_of_ok fun d hd => congrArg (· >>= _) ?_
  refine bind_congr_of_ok fun present hkty => bind_congr_of_ok fun n hn =>
    bind_congr_of_ok fun e he => ?_
  rw [FieldSet.requiredInteger_eq_ok_iff] at hd hn he
  rw [h n e d ⟨hd, FieldSet.exists_checkKeyType_iff.mp ⟨present, hkty⟩, hn, he⟩]

/-- **Reading asks the key factory about the numbers of the field set only**: two key factories that
agree on them are the same to it, also in what is recorded. -/
theorem ofFields_congr
    (hpublic : ∀ n e d, HoldsNumbers fields n e d → factory.publicKey n e = other.publicKey n e)
    (hprivate : ∀ half spec, prepare fields other = .ok (half, spec) →
      factory.privateKey spec = other.privateKey spec) :
    ofFields fields factory = ofFields fields other := by
  rw [ofFields_eq, ofFields_eq, prepare_congr hpublic]
  cases h : prepare fields other with
  | error error => rfl
  | ok prepared =>
    show conclude fields factory prepared.1 prepared.2 = conclude fields other prepared.1 prepared.2
    rw [conclude_eq, conclude_eq, hprivate _ _ h]

end Factories

/-! ### Reading with two limits -/

section Limits

variable {fields : FieldSet} {small large : ℕ}

/-- The private exponent, the key type and the public numbers pass their own checks, and the modulus
is too large for the first limit, but not for the second. -/
def FitsLargerOnly (fields : FieldSet) (small large : ℕ) : Prop :=
  ∃ n e d, HoldsNumbers fields n e d ∧ small < bitLength n ∧ bitLength n ≤ large

theorem ofFields_checking_congr
    (h : ∀ n e d, HoldsNumbers fields n e d → (bitLength n ≤ small ↔ bitLength n ≤ large)) :
    ofFields fields (KeyFactory.checking small) = ofFields fields (KeyFactory.checking large) := by
  refine ofFields_congr (fun n e d hnumbers => PublicKey.ofNumbers_congr (h n e d hnumbers))
    fun half spec hprepare => PrivateKey.ofSpec_congr ?_
  -- the modulus of the specification is that of the public key, which is that of the fields
  obtain ⟨n, e, d, hnumbers, hpublic, hspec⟩ := exists_of_prepare hprepare
  obtain ⟨-, hkey⟩ := PublicKey.ofNumbers_eq_ok_iff.mp hpublic
  rw [hspec.numbers.1, hkey]
  exact h n e d hnumbers

theorem ofFields_eq_of_not_fitsLargerOnly (hle : small ≤ large)
    (h : ¬FitsLargerOnly fields small large) :
    ofFields fields (KeyFactory.checking small) = ofFields fields (KeyFactory.checking large) := by
  refine ofFields_checking_congr fun n e d hnumbers => ⟨fun hsmall => hsmall.trans hle, ?_⟩
  intro hlarge
  by_contra hsmall
  exact h ⟨n, e, d, hnumbers, not_le.mp hsmall, hlarge⟩

/-- A modulus above the limit is reported when the public key is made, before the members with the
primes are looked at and without any event. -/
theorem ofFields_of_lt {n e d : ℕ} (hnumbers : HoldsNumbers fields n e d)
    (hsize : small < bitLength n) :
    ofFields fields (KeyFactory.checking small) =
      ⟨[], .error (.publicKeyRefused (fields.without Param.privateParams).names
        .modulusTooLarge)⟩ := by
  obtain ⟨hd, hkty, hn, he⟩ := hnumbers
  obtain ⟨present, hpresent⟩ := FieldSet.exists_checkKeyType_iff.mpr hkty
  rw [← FieldSet.requiredInteger_eq_ok_iff] at hd hn he
  refine ofFields_of_prepare_error ?_
  rw [prepare, publicHalf_ofFields, hd, hpresent, hn, he]
  show (((PublicKey.ofNumbers small n e).mapError _ >>= _) >>= _) = _
  rw [PublicKey.ofNumbers_of_lt hsize]
  rfl

end Limits

/-! ### Results that differ -/

/-- What a caller sees of the errors is the same: their kind, the member they are about and their
text. -/
structure SameReport (error error' : RsaError) : Prop where
  kind : error.kind = error'.kind
  member : error.member? = error'.member?
  message : error.message = error'.message

/-- A caller cannot tell the results apart: they are the same key with its fields, or errors that
look the same. -/
abbrev SameOutcome (result result' : Except RsaError PrivateJwk) : Prop :=
  Agree SameReport Eq result result'

theorem SameReport.refl (error : RsaError) : SameReport error error := ⟨rfl, rfl, rfl⟩

theorem SameOutcome.of_eq {result result' : Except RsaError PrivateJwk} (h : result = result') :
    SameOutcome result result' :=
  Agree.of_eq .refl h

/-- The text of the refusal of a public key up to its cause. -/
def publicRefusalOpening (names : List String) : String :=
  "unsupported RSA key: " ++
    s!"unable to create RSA public key from JWK {Members.describe names}: "

theorem message_publicKeyRefused (names : List String) (cause : RsaError) :
    (RsaError.publicKeyRefused names cause).message =
      publicRefusalOpening names ++ cause.message :=
  String.append_assoc.symm

/-- The text tells whether the public or the private key was refused. -/
theorem publicRefusal_ne_refusal (shape : KeyShape) (names others : List String)
    (cause cause' : String) :
    publicRefusalOpening names ++ cause ≠ refusalOpening shape others ++ cause' := by
  have hsplit : "unable to create RSA public key from JWK " =
      "unable to create " ++ "RSA public key from JWK " := rfl
  have hhead : "RSA public key from JWK ".toList.head? = some 'R' := rfl
  intro h
  unfold publicRefusalOpening refusalOpening at h
  simp only [toString, String.append_assoc, String.append_right_inj] at h
  rw [hsplit, String.append_assoc, String.append_right_inj] at h
  -- where one text names the public key, the other names the shape of the private one
  cases shape with
  | plain => exact append_ne_append hhead (b := 'p') rfl (by decide) _ _ h
  | twoPrime => exact append_ne_append hhead (b := 't') rfl (by decide) _ _ h
  | multiPrime => exact append_ne_append hhead (b := 'm') rfl (by decide) _ _ h

section Limits

variable {fields : FieldSet} {n e d small large : ℕ} {spec : KeySpec} {cause error : RsaError}

/-- The size of the modulus is not among the causes for which the checking factory refuses a private
key, as the public key has been made before. -/
theorem Refuses.mem_inconsistencies (h : Refuses fields (KeyFactory.checking large) spec cause) :
    cause ∈ RsaError.inconsistencies := by
  obtain ⟨n, e, d, publicKey, -, -, -, hpublic, hspec, hcause⟩ := h
  obtain ⟨⟨hn, he⟩, rfl⟩ := PublicKey.ofNumbers_eq_ok_iff.mp hpublic
  exact PrivateKey.ofSpec_failsWithin (hspec.goodPublic hn he) cause hcause

/-- If the modulus is not too large, no error looks as if it were. -/
theorem not_sameReport_of_le (hnumbers : HoldsNumbers fields n e d) (hsize : bitLength n ≤ large)
    (herror : (ofFields fields (KeyFactory.checking large)).result = .error error) :
    ¬SameReport (.publicKeyRefused (fields.without Param.privateParams).names .modulusTooLarge)
      error := by
  rintro ⟨hkind, -, hmessage⟩
  rw [message_publicKeyRefused] at hmessage
  obtain ⟨_, check, _, -, -, hfails⟩ := (performs_ofFields fields _ error).mp herror
  cases hfails with
  | integer | notArray | noElements | nullElement | notObject | emptyElement | elementInteger =>
    exact absurd hkind (by simp [RsaError.kind])
  | keyType hvalue hnull hne =>
    obtain ⟨present, hpresent⟩ := FieldSet.exists_checkKeyType_iff.mpr hnumbers.keyType
    exact ok_ne_error (hpresent.symm.trans (FieldSet.checkKeyType_of_ne hvalue hnull hne))
  | publicKey hn he hcause =>
    obtain rfl := hn.unique hnumbers.modulus
    have hothers : ∀ cause ∈ [RsaError.invalidModulus, .publicExponentTooSmall,
        .publicExponentTooLarge], cause.message ≠ RsaError.modulusTooLarge.message := by decide
    rw [message_publicKeyRefused, String.append_right_inj] at hmessage
    exact hothers _ (PublicKey.ofNumbers_failsWithin hsize _ hcause) hmessage.symm
  | unsupported h hunsupported =>
    have hsupported := RsaError.isUnsupported_of_mem_inconsistencies _ h.mem_inconsistencies
    exact absurd (beq_iff_eq.mpr hunsupported) (ne_true_of_eq_false hsupported)
  | refused =>
    rw [message_privateKeyRefused] at hmessage
    exact publicRefusal_ne_refusal _ _ _ _ _ hmessage

theorem not_sameOutcome_of_fitsLargerOnly (h : FitsLargerOnly fields small large) :
    ¬SameOutcome (ofFields fields (KeyFactory.checking small)).result
      (ofFields fields (KeyFactory.checking large)).result := by
  obtain ⟨n, e, d, hnumbers, hsmall, hlarge⟩ := h
  rw [ofFields_of_lt hnumbers hsmall]
  cases hresult : (ofFields fields (KeyFactory.checking large)).result with
  | ok jwk =>
    intro hsame
    cases hsame
  | error error =>
    intro hsame
    cases hsame with
    | error hreport => exact not_sameReport_of_le hnumbers hlarge hresult hreport

end Limits

/-- **Raising the size limit lifts one refusal and changes nothing else.** With two limits, reading
has the same outcome exactly if the modulus does not lie between them, once the checks before it
have passed; then the events are the same as well. If it does, the smaller limit has the public key
refused for its size. So what is read with a limit is read alike with every larger one. -/
theorem raising_limit_lifts_one_refusal (fields : FieldSet) {small large : ℕ}
    (h : small ≤ large) :
    (SameOutcome (ofFields fields (KeyFactory.checking small)).result
        (ofFields fields (KeyFactory.checking large)).result ↔
      ¬FitsLargerOnly fields small large) ∧
    (¬FitsLargerOnly fields small large →
      ofFields fields (KeyFactory.checking small) = ofFields fields (KeyFactory.checking large)) ∧
    (FitsLargerOnly fields small large → ∃ error,
      ofFields fields (KeyFactory.checking small) = ⟨[], .error error⟩ ∧
      error = .publicKeyRefused (fields.without Param.privateParams).names .modulusTooLarge ∧
      error.kind = .unsupportedKeyShape ∧
      error.message =
        publicRefusalOpening (fields.without Param.privateParams).names ++ "modulus too large") ∧
    ∀ jwk, (ofFields fields (KeyFactory.checking small)).result = .ok jwk →
      (ofFields fields (KeyFactory.checking large)).result = .ok jwk := by
  have hsame : ¬FitsLargerOnly fields small large →
      ofFields fields (KeyFactory.checking small) = ofFields fields (KeyFactory.checking large) :=
    ofFields_eq_of_not_fitsLargerOnly h
  refine ⟨⟨fun houtcome hfits => not_sameOutcome_of_fitsLargerOnly hfits houtcome,
    fun hfits => .of_eq (congrArg Logged.result (hsame hfits))⟩, hsame, ?_, ?_⟩
  · rintro ⟨n, e, d, hnumbers, hsmall, -⟩
    exact ⟨_, ofFields_of_lt hnumbers hsmall, rfl, rfl, message_publicKeyRefused _ _⟩
  · intro jwk hjwk
    rw [← hsame, hjwk]
    rintro ⟨n, e, d, hnumbers, hsmall, -⟩
    rw [ofFields_of_lt hnumbers hsmall] at hjwk
    exact ok_ne_error hjwk.symm

/-- `PrivateKey.threeFactor` has a modulus of twelve bits. With a limit of eleven it is refused,
with twelve it is read, and with thirteen it is read alike. -/
theorem foreignFields_fit_twelve_bits :
    11 ≤ 12 ∧ FitsLargerOnly foreignFields 11 12 ∧
    ¬SameOutcome (ofFields foreignFields (KeyFactory.checking 11)).result
      (ofFields foreignFields (KeyFactory.checking 12)).result ∧
    (ofFields foreignFields (KeyFactory.checking 11)).result =
      .error (.publicKeyRefused ["kty", "n", "e"] .modulusTooLarge) ∧
    12 ≤ 13 ∧
    ∃ jwk, (ofFields foreignFields (KeyFactory.checking 12)).result = .ok jwk ∧
      jwk.key = .threeFactor ∧
      (ofFields foreignFields (KeyFactory.checking 13)).result = .ok jwk := by
  have hfits : FitsLargerOnly foreignFields 11 12 :=
    ⟨2431, 7, 103, foreignFields_holdsNumbers, by decide, by decide⟩
  obtain ⟨houtcome, -, hrefused, -⟩ :=
    raising_limit_lifts_one_refusal foreignFields (show 11 ≤ 12 by decide)
  obtain ⟨-, -, -, hraised⟩ :=
    raising_limit_lifts_one_refusal foreignFields (show 12 ≤ 13 by decide)
  obtain ⟨error, hevents, rfl, -⟩ := hrefused hfits
  obtain ⟨jwk, hjwk, hkey, -⟩ := exists_of_foreignFields
  exact ⟨by decide, hfits, fun hsame => houtcome.mp hsame hfits, congrArg Logged.result hevents,
    by decide, jwk, hjwk, hkey, hraised jwk hjwk⟩

end PrivateJwk

end WebKey
