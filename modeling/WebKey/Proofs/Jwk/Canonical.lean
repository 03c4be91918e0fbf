/-
The canonical fields of a key.

Whatever the field set looks like from which a key was read, writing the key makes a field set
that goes by the key alone: the parameters in their fixed order, each integer with the fewest
octets, and nothing else. Reading it gives the key again, and writing that key the same fields.

* **`KeySpec.integerParams`** — the parameters of a key that are integers, in order;
* **`Members.HoldsInteger.exists_octets`** — when the text of an integer stays the same;
* **`PrivateJwk.names_written`** — the members that are written;
* **`PrivateJwk.exists_integer`** — the integers that are written are those that were read;
* **`PrivateJwk.ofKey_ofFields_canonical`** — the canonical fields of a key that was read.
-/
import WebKey.Proofs.Jwk.ExplicitPublicKey
import WebKey.Proofs.Jwk.KeyType
import WebKey.Proofs.Octets

namespace WebKey

/-- The parameters of a written key that are integers, in order. -/
def KeySpec.integerParams (spec : KeySpec) : List Param :=
  [.modulus, .publicExponent, .privateExponent] ++
    if spec.crt?.isSome then Param.crtParams else []

/-- An integer is written with the text that was read if that has no zero octet in front. -/
theorem Members.HoldsInteger.exists_octets {members : Members} {param : Param}
    {value : ℕ} (h : members.HoldsInteger param value) :
    ∃ octets, members.lookup param.id = some (.string (Base64Url.encode octets)) ∧
      Integer.decode (Base64Url.encode octets) = .ok value ∧
      (Integer.encode value = Base64Url.encode octets ↔ octets.head? ≠ some 0) := by
  obtain ⟨hpos, text, hlookup, octets, hne, rfl, rfl⟩ := h
  refine ⟨octets, hlookup, Integer.decode_eq_ok_iff.mpr ⟨octets, hne, rfl, rfl⟩, ?_⟩
  rw [Integer.encode_eq_encode_iff]
  constructor
  · rintro ⟨-, hminimal⟩ hhead
    -- the only octet would be zero, but the integer is positive
    rw [hminimal hhead] at hpos
    exact absurd hpos (by decide)
  · intro hhead
    exact ⟨hne, fun h => absurd h hhead⟩

namespace PrivateJwk

theorem names_written (key : PrivateKey) (publicKey : PublicKey) :
    (written key publicKey).fields.names =
      ["kty", "n", "e", "d"] ++
        (if key.spec.crt?.isSome then ["p", "q", "dp", "dq", "qi"] else []) ++
        if key.spec.others.isEmpty then [] else ["oth"] := by
  obtain ⟨spec⟩ := key
  cases spec with
  | plain => rfl
  | twoPrime => rfl
  | multiPrime n e d crt others =>
    -- the list of other primes is written only if it is not empty
    cases others with
    | nil => rfl
    | cons => rfl

/-! ### Integers -/

section Integers

variable {fields : FieldSet} {key : PrivateKey}

/-- The values of the first two primes are written as they were read. -/
theorem HoldsCrt.exists_integer {crt : CrtValues} (h : HoldsCrt fields.members crt)
    (hcrt : key.spec.crt? = some crt) (publicKey : PublicKey) :
    ∀ param ∈ Param.crtParams, ∃ value, fields.members.HoldsInteger param value ∧
      (written key publicKey).fields.lookup param.id = some (.string (Integer.encode value)) := by
  have hothers : ∀ param ∈ Param.crtParams, (written key publicKey).fields.lookup param.id =
      (putCrt ((PublicJwk.ofKey publicKey).fields.putInteger .privateExponent
        key.spec.privateExponent) crt).lookup param.id := by
    intro param hparam
    rw [written, putPrivate, hcrt]
    exact lookup_putOthers _ _ (by revert param; decide)
  simp only [Param.crtParams, List.forall_mem_cons] at hothers ⊢
  obtain ⟨hp, hq, hdp, hdq, hqi, -⟩ := hothers
  exact ⟨⟨_, h.p, hp⟩, ⟨_, h.q, hq⟩, ⟨_, h.dp, hdp⟩, ⟨_, h.dq, hdq⟩, ⟨_, h.qi, hqi⟩, by simp⟩

/-- The integers that are written for a key are those of the fields from which it was read. -/
theorem exists_integer (publicKey : PublicKey)
    (hd : fields.members.HoldsInteger .privateExponent key.spec.privateExponent)
    (hn : fields.members.HoldsInteger .modulus publicKey.modulus)
    (he : fields.members.HoldsInteger .publicExponent publicKey.exponent)
    (hcrt : ∀ crt, key.spec.crt? = some crt → HoldsCrt fields.members crt) :
    ∀ param ∈ key.spec.integerParams, ∃ value, fields.members.HoldsInteger param value ∧
      (written key publicKey).fields.lookup param.id = some (.string (Integer.encode value)) := by
  have hpublic : ∀ param ∈ Param.publicParams, (written key publicKey).fields.lookup param.id =
      (PublicJwk.ofKey publicKey).fields.lookup param.id := by
    intro param hparam
    exact lookup_putPrivate _ _ (by revert param; decide)
  rw [KeySpec.integerParams, List.forall_mem_append]
  simp only [List.forall_mem_cons]
  refine ⟨⟨⟨_, hn, hpublic .modulus (by decide)⟩, ⟨_, he, hpublic .publicExponent (by decide)⟩,
    ⟨_, hd, lookup_putPrivate_privateExponent _ _⟩, by simp⟩, ?_⟩
  cases h : key.spec.crt? with
  | none => simp
  | some crt => exact (hcrt crt h).exists_integer h publicKey

end Integers

/-! ### Reading and writing -/

/-- **Writing a key that was read makes its fields canonical.** They are the parameters of the key
in their order. Their integers are those that were read, with the same text if that has no zero
octet in front. Reading them gives the same keys, and writing these the same fields. -/
theorem ofKey_ofFields_canonical {maxSize : ℕ} {fields : FieldSet} {jwk : PrivateJwk}
    (h : (ofFields fields (KeyFactory.checking maxSize)).result = .ok jwk) :
    ∃ canonical, (ofKey jwk.key (some jwk.publicHalf.key) (KeyFactory.checking maxSize)).result =
        .ok canonical ∧
      canonical.fields.names =
        ["kty", "n", "e", "d"] ++
          (if jwk.key.spec.crt?.isSome then ["p", "q", "dp", "dq", "qi"] else []) ++
          (if jwk.key.spec.others.isEmpty then [] else ["oth"]) ∧
      (∀ param ∈ jwk.key.spec.integerParams, ∃ octets text value,
        fields.lookup param.id = some (.string (Base64Url.encode octets)) ∧
        canonical.fields.lookup param.id = some (.string text) ∧
        Integer.decode (Base64Url.encode octets) = .ok value ∧ Integer.decode text = .ok value ∧
        (text = Base64Url.encode octets ↔ octets.head? ≠ some 0)) ∧
      ∃ again, (ofFields canonical.fields (KeyFactory.checking maxSize)).result = .ok again ∧
        again.key = jwk.key ∧ again.publicHalf.key = jwk.publicHalf.key ∧
        (ofKey again.key (some again.publicHalf.key) (KeyFactory.checking maxSize)).result =
          .ok canonical := by
  obtain ⟨n, e, d, spec, hd, -, hn, he, hpublic, hspec, hprivate⟩ :=
    ofFields_eq_ok_iff.mp ⟨jwk, h, rfl, rfl⟩
  generalize jwk.key = key, jwk.publicHalf.key = publicKey at hpublic hspec hprivate ⊢
  obtain ⟨⟨-, hgood⟩, rfl⟩ := PublicKey.ofNumbers_eq_ok_iff.mp hpublic
  obtain ⟨hacceptable, rfl⟩ := PrivateKey.ofSpec_eq_ok_iff.mp hprivate
  obtain ⟨rfl, rfl, hexponent, hcrt⟩ := hspec.numbers
  have hwritten : (ofKey key (some ⟨key.spec.modulus, e⟩) (KeyFactory.checking maxSize)).result =
      .ok (written key ⟨key.spec.modulus, e⟩) := result_ofKey_some_eq_ok_iff.mpr ⟨rfl, rfl⟩
  refine ⟨_, hwritten, names_written key _, ?_, _,
    ofFields_written hacceptable rfl hgood hexponent, rfl, rfl, hwritten⟩
  intro param hparam
  obtain ⟨value, hvalue, htext⟩ :=
    exists_integer ⟨key.spec.modulus, e⟩ hd hn he hcrt param hparam
  obtain ⟨octets, hlookup, hdecode, hsame⟩ := hvalue.exists_octets
  exact ⟨octets, _, value, hlookup, htext, hdecode, Integer.decode_encode value, hsame⟩

/-- The fields of `foreignFields` are written without the member that is not known, and the
private exponent without the zero octet. -/
theorem foreignFields_become_canonical :
    ∃ jwk canonical, (ofFields foreignFields (KeyFactory.checking 12)).result = .ok jwk ∧
      (ofKey jwk.key (some jwk.publicHalf.key) (KeyFactory.checking 12)).result = .ok canonical ∧
      canonical.fields.names = ["kty", "n", "e", "d", "p", "q", "dp", "dq", "qi", "oth"] ∧
      canonical.fields.lookup "d" ≠ foreignFields.lookup "d" := by
  obtain ⟨jwk, hjwk, hkey, -⟩ := exists_of_foreignFields
  obtain ⟨canonical, hwritten, hnames, hintegers, -⟩ := ofKey_ofFields_canonical hjwk
  rw [hkey] at hnames hintegers
  refine ⟨jwk, canonical, hjwk, hwritten, hnames, ?_⟩
  obtain ⟨octets, text, value, hlookup, htext, -, -, hsame⟩ :=
    hintegers .privateExponent (by decide)
  -- the text that was read is that of the octets 0 and 103
  have hoctets : octets = [0, 103] := by
    have hread : foreignFields.lookup Param.privateExponent.id =
        some (.string (Base64Url.encode [0, 103])) := rfl
    rw [hread] at hlookup
    exact (Base64Url.encode_injective (Json.string.inj (Option.some_inj.mp hlookup))).symm
  rw [hoctets] at hlookup hsame
  intro hd
  have htexts : text = Base64Url.encode [0, 103] :=
    Json.string.inj (Option.some_inj.mp (htext.symm.trans (hd.trans hlookup)))
  exact hsame.mp htexts rfl

end PrivateJwk

end WebKey
