/-
What debug texts tell about secrets.

Two field sets, private keys or JSON Web Keys that differ in their secrets only have the same
debug text, in either layout. What may not differ is stated by a relation for each of them.

* **`Param.isPrivateId_iff`** — the members that are redacted are those of private parameters;
* **`FieldSet.SamePublic`**, **`KeySpec.SamePublic`**, **`PrivateJwk.SamePublic`** — field sets,
  specifications and JSON Web Keys that differ in their secrets only;
* **`FieldSet.samePublic_iff_without`** — such field sets are the same when the private members
  are left out;
* **`FieldSet.debug_congr`** — such field sets are shown alike;
* **`KeySpec.debug_eq_iff`** — such specifications are shown alike, and no others;
* **`debug_hides_secrets`** — what this comes to for the two layouts.
-/
import WebKey.Debug.Views
import WebKey.Proofs.FieldSet
import WebKey.Proofs.Rsa.Consistency

namespace WebKey

/-! ### Field sets -/

/-- The parameters that are redacted are marked one by one, and are the private ones. -/
theorem Param.isPrivateId_iff {name : String} :
    isPrivateId name = true ↔ ∃ param ∈ privateParams, param.id = name := by
  have hpublic : ∀ param ∈ publicParams, param.isSecret = false := by decide
  have hprivate : ∀ param ∈ privateParams, param.isSecret = true := by decide
  rw [isPrivateId, List.any_eq_true]
  constructor
  · rintro ⟨param, hparam, hname⟩
    rw [Bool.and_eq_true, beq_iff_eq] at hname
    rcases List.mem_append.mp hparam with hparam | hparam
    · rw [hpublic param hparam] at hname
      exact absurd hname.1 Bool.false_ne_true
    · exact ⟨param, hparam, hname.2⟩
  · rintro ⟨param, hparam, rfl⟩
    refine ⟨param, List.mem_append_right _ hparam, ?_⟩
    rw [hprivate param hparam, beq_self_eq_true]
    rfl

namespace FieldSet

/-- The field sets have the same names in the same order, and the same values but those of
private members. -/
structure SamePublic (fields others : FieldSet) : Prop where
  names : fields.names = others.names
  values : ∀ name, (∀ param ∈ Param.privateParams, param.id ≠ name) →
    fields.lookup name = others.lookup name

variable {fields others : FieldSet}

theorem samePublic_iff_without :
    fields.SamePublic others ↔ fields.names = others.names ∧
      fields.without Param.privateParams = others.without Param.privateParams := by
  constructor
  · rintro ⟨hnames, hvalues⟩
    refine ⟨hnames, ext ?_⟩
    show fields.members.filter _ = others.members.filter _
    rw [members_eq_map fields, members_eq_map others, hnames, List.filter_map, List.filter_map]
    refine List.map_congr_left fun name hname => ?_
    have hpublic : ∀ param ∈ Param.privateParams, param.id ≠ name := by
      simpa using (List.mem_filter.mp hname).2
    rw [hvalues name hpublic]
  · rintro ⟨hnames, hwithout⟩
    refine ⟨hnames, fun name hpublic => ?_⟩
    rw [← fields.lookup_without hpublic, hwithout, others.lookup_without hpublic]

theorem debug_congr (h : fields.SamePublic others) : fields.debug = others.debug := by
  rw [debug, debug, members_eq_map fields, members_eq_map others, h.names, List.map_map,
    List.map_map]
  refine congrArg Debug.Doc.table (List.map_congr_left fun name _ => ?_)
  show (name, Debug.member name _) = (name, Debug.member name _)
  rw [Debug.member, Debug.member]
  by_cases hprivate : Param.isPrivateId name = true
  · rw [if_pos hprivate, if_pos hprivate]
  · have hpublic : ∀ param ∈ Param.privateParams, param.id ≠ name := by
      intro param hparam hname
      exact hprivate (Param.isPrivateId_iff.mpr ⟨param, hparam, hname⟩)
    rw [if_neg hprivate, if_neg hprivate, h.values name hpublic]

end FieldSet

/-! ### Keys -/

namespace Debug

/-- The words of a number are its digits. -/
theorem ofDigits_words (n : ℕ) : Nat.ofDigits (Nat.pow 2 64) (words n) = n := by
  induction n using words.induct with
  | case1 =>
    rw [words]
    rfl
  | case2 n hn ih =>
    rw [words, if_neg hn, Nat.ofDigits_cons, ih]
    exact Nat.mod_add_div n _

/-- Numbers are shown in full. -/
theorem natural_inj {n m : ℕ} : natural n = natural m ↔ n = m := by
  constructor
  · intro h
    have hatom : Function.Injective fun word : ℕ => Doc.atom (toString word) := by
      intro word other hword
      exact Nat.repr_injective (Doc.atom.inj hword)
    have hwords : words n = words m := by
      refine List.map_injective_iff.mpr hatom ?_
      simpa only [natural, Doc.record.injEq, List.cons.injEq, Prod.mk.injEq, Doc.list.injEq,
        true_and, and_true] using h
    rw [← ofDigits_words n, hwords, ofDigits_words]
  · rintro rfl
    rfl

end Debug

/-- Of the other primes only their number is shown. -/
theorem OtherPrime.map_debug_eq_iff {infos others : List OtherPrime} :
    infos.map OtherPrime.debug = others.map OtherPrime.debug ↔ infos.length = others.length := by
  have hconst : ∀ infos : List OtherPrime,
      infos.map OtherPrime.debug = List.replicate infos.length (.withheld "OtherPrimeInfo") :=
    fun infos => List.map_const'
  rw [hconst, hconst, List.replicate_left_inj]

/-- The specifications have the same shape, the same public numbers, and as many other primes. -/
@[mk_iff]
structure KeySpec.SamePublic (spec other : KeySpec) : Prop where
  shape : spec.shape = other.shape
  modulus : spec.modulus = other.modulus
  publicExponent : spec.publicExponent? = other.publicExponent?
  others : spec.others.length = other.others.length

/-- **What is shown of a specification are its shape, its public numbers and how many other primes
it has, and nothing else.** -/
theorem KeySpec.debug_eq_iff {spec other : KeySpec} :
    spec.debug = other.debug ↔ spec.SamePublic other := by
  rw [samePublic_iff]
  cases spec with
  | plain n d =>
    cases other <;> simp [debug, shape, modulus, publicExponent?, KeySpec.others, Debug.natural_inj]
  | twoPrime n e d crt =>
    cases other <;> simp [debug, CrtValues.debug, shape, modulus, publicExponent?, KeySpec.others,
      Debug.natural_inj]
  | multiPrime n e d crt others =>
    cases other <;> simp [debug, CrtValues.debug, shape, modulus, publicExponent?, KeySpec.others,
      Debug.natural_inj, OtherPrime.map_debug_eq_iff]

theorem PrivateKey.debug_eq_iff {key other : PrivateKey} :
    key.debug = other.debug ↔ key.spec.SamePublic other.spec := by
  rw [← KeySpec.debug_eq_iff]
  simp [debug]

/-! ### JSON Web Keys -/

/-- The fields and the private keys differ in their secrets only, and the public halves are the
same. -/
structure PrivateJwk.SamePublic (jwk other : PrivateJwk) : Prop where
  fields : jwk.fields.SamePublic other.fields
  key : jwk.key.spec.SamePublic other.key.spec
  publicHalf : jwk.publicHalf = other.publicHalf

theorem PrivateJwk.debug_congr {jwk other : PrivateJwk} (h : jwk.SamePublic other) :
    jwk.debug = other.debug := by
  rw [debug, debug, FieldSet.debug_congr h.fields, PrivateKey.debug_eq_iff.mpr h.key, h.publicHalf]

/-- **The debug texts do not depend on secrets.** What differs in its secrets only has the same
text, in one line and in several. -/
theorem debug_hides_secrets :
    (∀ fields others : FieldSet, fields.SamePublic others →
      fields.debug.compact = others.debug.compact ∧ fields.debug.pretty = others.debug.pretty) ∧
    (∀ spec other : KeySpec, spec.SamePublic other →
      spec.debug.compact = other.debug.compact ∧ spec.debug.pretty = other.debug.pretty) ∧
    (∀ key other : PrivateKey, key.spec.SamePublic other.spec →
      key.debug.compact = other.debug.compact ∧ key.debug.pretty = other.debug.pretty) ∧
    ∀ jwk other : PrivateJwk, jwk.SamePublic other →
      jwk.debug.compact = other.debug.compact ∧ jwk.debug.pretty = other.debug.pretty := by
  refine ⟨?_, ?_, ?_, ?_⟩
  · intro fields others h
    rw [FieldSet.debug_congr h]
    exact ⟨rfl, rfl⟩
  · intro spec other h
    rw [KeySpec.debug_eq_iff.mpr h]
    exact ⟨rfl, rfl⟩
  · intro key other h
    rw [PrivateKey.debug_eq_iff.mpr h]
    exact ⟨rfl, rfl⟩
  · intro jwk other h
    rw [PrivateJwk.debug_congr h]
    exact ⟨rfl, rfl⟩

/-- `PrivateKey.threeFactor` with the first two factors in the other order and another private
exponent. -/
def PrivateKey.swappedFactors : PrivateKey :=
  ⟨.multiPrime 2431 7 343 ⟨13, 11, 7, 3, 6⟩ [⟨17, 7, 5⟩]⟩

/-- A JSON Web Key that holds this key and, beside public members, this private exponent. -/
def PrivateJwk.holding (key : PrivateKey) (d : String) : PrivateJwk where
  fields :=
    { members := [("kid", .string "k"), ("d", .string d), ("n", .string "CX8")]
      nodup := by
        show ["kid", "d", "n"].Nodup
        decide }
  key := key
  publicHalf := ⟨PublicJwk.keyTypeFields, ⟨2431, 7⟩⟩

/-- No text tells the two keys from each other. -/
theorem debug_hides_swappedFactors :
    ∃ jwk other : PrivateJwk, jwk.SamePublic other ∧
      jwk.fields.lookup "d" = some (.string "Zw") ∧
      other.fields.lookup "d" = some (.string "AVc") ∧
      jwk.key.spec.primes ≠ other.key.spec.primes ∧
      jwk.key.spec.privateExponent ≠ other.key.spec.privateExponent ∧
      jwk.fields.debug.pretty = other.fields.debug.pretty ∧
      jwk.key.spec.debug.compact = other.key.spec.debug.compact ∧
      jwk.key.debug.pretty = other.key.debug.pretty ∧
      jwk.debug.compact = other.debug.compact ∧ jwk.debug.pretty = other.debug.pretty := by
  have hfields : (PrivateJwk.holding .threeFactor "Zw").fields.SamePublic
      (PrivateJwk.holding .swappedFactors "AVc").fields :=
    FieldSet.samePublic_iff_without.mpr ⟨rfl, FieldSet.ext rfl⟩
  have hkey : PrivateKey.threeFactor.spec.SamePublic PrivateKey.swappedFactors.spec :=
    ⟨rfl, rfl, rfl, rfl⟩
  have hjwk : (PrivateJwk.holding .threeFactor "Zw").SamePublic
      (PrivateJwk.holding .swappedFactors "AVc") := ⟨hfields, hkey, rfl⟩
  obtain ⟨hfieldSets, hspecs, hkeys, hjwks⟩ := debug_hides_secrets
  obtain ⟨hcompact, hpretty⟩ := hjwks _ _ hjwk
  exact ⟨_, _, hjwk, rfl, rfl, by decide, by decide, (hfieldSets _ _ hfields).2,
    (hspecs _ _ hkey).1, (hkeys _ _ hkey).2, hcompact, hpretty⟩

end WebKey
