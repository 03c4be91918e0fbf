/-
The fewest octets of a number.

The octets of a number start with zero only if that is the only one. No other octets that
stand for the number do so without a zero octet in front of them.

* **`Octets.Minimal`** — no octet can be left out;
* **`Octets.ofNat_toNat_eq_self_iff`** — these are the octets that numbers are written with;
* **`Octets.toNat_eq_toNat_iff`** — octets stand for the same number exactly if they are the same
  without the zero octets in front;
* **`Integer.encode_eq_encode_iff`** — the texts that are written for the integers that they
  stand for;
* **`Base64Url.mem_alphabet_of_mem_encode`** — the characters of texts;
* **`Integer.encode_bijOn_canonicalTexts`** — integers and their shortest texts correspond one
  to one, and how the other texts are read.
-/
import WebKey.Proofs.IntegerText

namespace WebKey

namespace Octets

/-- There are octets, and the first of them is not zero, or it is the only one. -/
def Minimal (octets : List UInt8) : Prop :=
  octets ≠ [] ∧ (octets.head? = some 0 → octets = [0])

theorem toNat_pos_of_head {first : UInt8} {rest : List UInt8} (h : first ≠ 0) :
    0 < toNat (first :: rest) := by
  induction rest using List.reverseRecOn with
  | nil =>
    have hfirst : first.toNat ≠ 0 := fun hzero => h (UInt8.toNat_inj.mp hzero)
    rw [← List.nil_append [first], toNat_append_singleton, toNat_nil]
    omega
  | append_singleton rest octet ih =>
    rw [← List.cons_append, toNat_append_singleton]
    omega

theorem ofNat_toNat_of_minimal {octets : List UInt8} (h : Minimal octets) :
    ofNat (toNat octets) = octets := by
  induction octets using List.reverseRecOn with
  | nil => exact absurd rfl h.1
  | append_singleton front octet ih =>
    have hoctet := octet.toNat_lt
    rw [toNat_append_singleton, ofNat]
    cases front with
    | nil =>
      rw [toNat_nil, if_pos (by omega), Nat.zero_mul, Nat.zero_add, UInt8.ofNat_toNat,
        List.nil_append]
    | cons first rest =>
      -- the octets in front are minimal as well, as they do not start with zero
      have hfirst : first ≠ 0 := by
        rintro rfl
        exact absurd (h.2 rfl) (by simp)
      have hpos : 0 < toNat (first :: rest) := toNat_pos_of_head hfirst
      have hfront : Minimal (first :: rest) :=
        ⟨List.cons_ne_nil _ _, fun hhead => absurd (Option.some_inj.mp hhead) hfirst⟩
      have hdiv : (toNat (first :: rest) * 256 + octet.toNat) / 256 = toNat (first :: rest) := by
        omega
      have hmod : (toNat (first :: rest) * 256 + octet.toNat) % 256 = octet.toNat := by omega
      rw [if_neg (by omega), hdiv, hmod, ih hfront, UInt8.ofNat_toNat]

theorem minimal_ofNat (n : ℕ) : Minimal (ofNat n) := by
  induction n using Nat.strongRecOn with
  | ind n ih =>
    refine ⟨ofNat_ne_nil n, ?_⟩
    rw [ofNat]
    split
    · intro hhead
      rw [Option.some_inj.mp hhead]
    · rename_i hlarge
      obtain ⟨hne, hhead⟩ := ih (n / 256) (by omega)
      rw [List.head?_append_of_ne_nil _ hne]
      intro hzero
      -- the octets in front would be zero, but they stand for at least one
      have hquotient := toNat_ofNat (n / 256)
      rw [hhead hzero] at hquotient
      exact absurd hquotient (by simp [toNat]; omega)

theorem ofNat_toNat_eq_self_iff {octets : List UInt8} :
    ofNat (toNat octets) = octets ↔ Minimal octets := by
  constructor
  · intro h
    exact h ▸ minimal_ofNat (toNat octets)
  · exact ofNat_toNat_of_minimal

theorem ofNat_zero : ofNat 0 = [0] := by
  rw [ofNat, if_pos (by decide)]
  rfl

/-! ### Zero octets in front -/

/-- The octets without the zero octets in front. -/
def stripZeros (octets : List UInt8) : List UInt8 := octets.dropWhile (· = 0)

theorem toNat_zero_cons (rest : List UInt8) : toNat (0 :: rest) = toNat rest := rfl

@[simp] theorem toNat_stripZeros (octets : List UInt8) :
    toNat (stripZeros octets) = toNat octets := by
  induction octets with
  | nil => rfl
  | cons first rest ih =>
    by_cases hfirst : first = 0
    · subst hfirst
      rw [toNat_zero_cons, ← ih]
      rfl
    · rw [stripZeros, List.dropWhile_cons_of_neg (by simpa using hfirst)]

theorem head_ne_zero_of_stripZeros {octets rest : List UInt8} {first : UInt8}
    (h : stripZeros octets = first :: rest) : first ≠ 0 := by
  have hhead := List.head?_dropWhile_not (fun octet : UInt8 => decide (octet = 0)) octets
  rw [show octets.dropWhile (· = 0) = first :: rest from h, List.head?_cons] at hhead
  exact of_decide_eq_false hhead

/-- What is left without the zero octets in front depends on the number only. -/
theorem stripZeros_eq (octets : List UInt8) :
    stripZeros octets = if toNat octets = 0 then [] else ofNat (toNat octets) := by
  rw [← toNat_stripZeros]
  cases hstrip : stripZeros octets with
  | nil => rfl
  | cons first rest =>
    have hfirst := head_ne_zero_of_stripZeros hstrip
    have hminimal : Minimal (first :: rest) :=
      ⟨List.cons_ne_nil _ _, fun hhead => absurd (Option.some_inj.mp hhead) hfirst⟩
    rw [if_neg (toNat_pos_of_head hfirst).ne', ofNat_toNat_of_minimal hminimal]

theorem toNat_eq_toNat_iff {octets others : List UInt8} :
    toNat octets = toNat others ↔ stripZeros octets = stripZeros others := by
  constructor
  · intro h
    rw [stripZeros_eq, stripZeros_eq, h]
  · intro h
    rw [← toNat_stripZeros, h, toNat_stripZeros]

theorem replicate_append_stripZeros (octets : List UInt8) :
    List.replicate (octets.length - (stripZeros octets).length) 0 ++ stripZeros octets =
      octets := by
  have hsplit : octets.takeWhile (· = 0) ++ stripZeros octets = octets :=
    List.takeWhile_append_dropWhile
  have hzeros : ∀ octet ∈ octets.takeWhile (· = 0), octet = 0 := by
    intro octet hoctet
    simpa using List.mem_takeWhile_imp hoctet
  have hlength := congrArg List.length hsplit
  rw [List.length_append] at hlength
  rw [← Nat.eq_sub_of_add_eq hlength, ← List.eq_replicate_of_mem hzeros, hsplit]

/-- As many octets stand for different numbers if they are different. -/
theorem eq_of_toNat_eq_of_length_eq {octets others : List UInt8}
    (hlength : octets.length = others.length) (h : toNat octets = toNat others) :
    octets = others := by
  rw [← replicate_append_stripZeros octets, ← replicate_append_stripZeros others, hlength,
    toNat_eq_toNat_iff.mp h]

/-- No octets that stand for a number are fewer than those it is written with. -/
theorem length_ofNat_toNat_le {octets : List UInt8} (hne : octets ≠ []) :
    (ofNat (toNat octets)).length ≤ octets.length := by
  by_cases hzero : toNat octets = 0
  · rw [hzero, ofNat_zero]
    exact List.length_pos_of_ne_nil hne
  · have hstrip := stripZeros_eq octets
    rw [if_neg hzero] at hstrip
    rw [← hstrip]
    exact List.length_dropWhile_le _ octets

end Octets

/-! ### Texts -/

theorem Base64Url.encode_injective : Function.Injective Base64Url.encode := by
  intro octets others h
  have hdecode := decode?_encode octets
  rw [h, decode?_encode] at hdecode
  exact (Option.some_inj.mp hdecode).symm

/-- The text of octets is written for the integer that they stand for if it has no octet that
can be left out. -/
theorem Integer.encode_eq_encode_iff {octets : List UInt8} :
    encode (Octets.toNat octets) = Base64Url.encode octets ↔ Octets.Minimal octets := by
  rw [encode, Base64Url.encode_injective.eq_iff, Octets.ofNat_toNat_eq_self_iff]

namespace Base64Url

/-- The letters, the digits, the hyphen and the low line, in the order of what they stand for. -/
def alphabet : List Char :=
  "ABCDEFGHIJKLMNOPQRSTUVWXYZabcdefghijklmnopqrstuvwxyz0123456789-_".toList

theorem map_letter_range : (List.range 64).map letter = alphabet := by
  decide

theorem mem_alphabet_of_mem_encode {octets : List UInt8} {c : Char}
    (h : c ∈ (encode octets).toList) : c ∈ alphabet := by
  rw [encode, String.toList_ofList] at h
  obtain ⟨sextet, hsextet, rfl⟩ := List.mem_map.mp h
  rw [← map_letter_range]
  exact List.mem_map_of_mem (List.mem_range.mpr (sextet_lt sextet hsextet))

theorem encode_ne_empty {octets : List UInt8} (hne : octets ≠ []) : encode octets ≠ "" := by
  intro h
  have hdecode := decode?_encode octets
  rw [h] at hdecode
  exact hne (Option.some_inj.mp hdecode).symm

end Base64Url

namespace Integer

/-- The texts of octets none of which can be left out. -/
def canonicalTexts : Set String :=
  {text | ∃ octets, Base64Url.decode? text = some octets ∧ Octets.Minimal octets}

theorem bijOn_canonicalTexts : Set.BijOn encode Set.univ canonicalTexts := by
  refine ⟨fun value _ => ?_, fun value _ other _ h => ?_, ?_⟩
  · exact ⟨_, Base64Url.decode?_encode _, Octets.minimal_ofNat value⟩
  · have hdecode := decode_encode value
    rw [h, decode_encode] at hdecode
    exact (Except.ok.inj hdecode).symm
  · rintro text ⟨octets, hoctets, hminimal⟩
    rw [Base64Url.decode?_eq_some_iff.mp hoctets]
    exact ⟨_, Set.mem_univ _, encode_eq_encode_iff.mpr hminimal⟩

theorem decode_eq_ok_iff_of_octets {text : String} {octets : List UInt8} {value : ℕ}
    (h : Base64Url.decode? text = some octets) :
    decode text = .ok value ↔ octets ≠ [] ∧ Octets.toNat octets = value := by
  obtain rfl := Base64Url.decode?_eq_some_iff.mp h
  rw [decode_eq_ok_iff]
  constructor
  · rintro ⟨others, hne, hothers, hvalue⟩
    obtain rfl := Base64Url.encode_injective hothers
    exact ⟨hne, hvalue⟩
  · rintro ⟨hne, hvalue⟩
    exact ⟨octets, hne, rfl, hvalue⟩

/-- **Integers and their shortest texts correspond one to one.** The text of an integer has as few
octets as possible. A text with zero octets in front is read as well, but it is not the one that is
written for the integer it stands for; two such texts for one integer differ in their number of
octets. -/
theorem encode_bijOn_canonicalTexts :
    Set.BijOn encode Set.univ canonicalTexts ∧
    (∀ value, decode (encode value) = .ok value ∧ encode value ≠ "" ∧
      (∀ c ∈ (encode value).toList, c ∈ Base64Url.alphabet) ∧ '=' ∉ (encode value).toList ∧
      ∃ octets, Base64Url.decode? (encode value) = some octets ∧ (value = 0 → octets = [0]) ∧
        ∀ others, others ≠ [] → Octets.toNat others = value → octets.length ≤ others.length) ∧
    (∀ text value, decode text = .ok value →
      ∃ octets, Base64Url.decode? text = some octets ∧
        (encode value = text ↔ octets.head? ≠ some 0 ∨ octets = [0])) ∧
    ∀ text other value value' octets octets',
      decode text = .ok value → decode other = .ok value' →
      Base64Url.decode? text = some octets → Base64Url.decode? other = some octets' →
      (value = value' ↔ Octets.stripZeros octets = Octets.stripZeros octets') ∧
      (octets.length = octets'.length → value = value' → text = other) := by
  refine ⟨bijOn_canonicalTexts, fun value => ?_, fun text value h => ?_, ?_⟩
  · have halphabet : ∀ c ∈ (encode value).toList, c ∈ Base64Url.alphabet :=
      fun c hc => Base64Url.mem_alphabet_of_mem_encode hc
    refine ⟨decode_encode value, Base64Url.encode_ne_empty (Octets.ofNat_ne_nil value), halphabet,
      fun hpad => absurd (halphabet '=' hpad) (by decide), _, Base64Url.decode?_encode _, ?_, ?_⟩
    · rintro rfl
      exact Octets.ofNat_zero
    · rintro others hne rfl
      exact Octets.length_ofNat_toNat_le hne
  · obtain ⟨octets, hne, rfl, rfl⟩ := decode_eq_ok_iff.mp h
    refine ⟨octets, Base64Url.decode?_encode octets, ?_⟩
    rw [encode_eq_encode_iff, Octets.Minimal, imp_iff_not_or, and_iff_right hne]
  · intro text other value value' octets octets' hvalue hvalue' hoctets hoctets'
    obtain ⟨-, rfl⟩ := (decode_eq_ok_iff_of_octets hoctets).mp hvalue
    obtain ⟨-, rfl⟩ := (decode_eq_ok_iff_of_octets hoctets').mp hvalue'
    refine ⟨Octets.toNat_eq_toNat_iff, fun hlength heq => ?_⟩
    rw [Base64Url.decode?_eq_some_iff.mp hoctets, Base64Url.decode?_eq_some_iff.mp hoctets',
      Octets.eq_of_toNat_eq_of_length_eq hlength heq]

/-- The text `AAEAAQ` has a zero octet in front of those of `AQAB`, and stands for the same integer
without being the one that is written for it. -/
theorem zero_in_front_is_read :
    decode "AAEAAQ" = .ok 65537 ∧ decode "AQAB" = .ok 65537 ∧
    Base64Url.decode? "AAEAAQ" = some [0, 1, 0, 1] ∧ Base64Url.decode? "AQAB" = some [1, 0, 1] ∧
    Octets.stripZeros [0, 1, 0, 1] = Octets.stripZeros [1, 0, 1] ∧
    encode 65537 ≠ "AAEAAQ" ∧ encode 65537 = "AQAB" := by
  have hlong : Base64Url.decode? "AAEAAQ" = some [0, 1, 0, 1] :=
    Base64Url.decode?_eq_some_iff.mpr rfl
  have hshort : Base64Url.decode? "AQAB" = some [1, 0, 1] := Base64Url.decode?_eq_some_iff.mpr rfl
  have hread : decode "AAEAAQ" = .ok 65537 :=
    (decode_eq_ok_iff_of_octets hlong).mpr ⟨by decide, by decide⟩
  have hread' : decode "AQAB" = .ok 65537 :=
    (decode_eq_ok_iff_of_octets hshort).mpr ⟨by decide, by decide⟩
  obtain ⟨-, -, hcanonical, hsame⟩ := encode_bijOn_canonicalTexts
  obtain ⟨octets, hoctets, hwritten⟩ := hcanonical _ _ hread
  obtain ⟨octets', hoctets', hwritten'⟩ := hcanonical _ _ hread'
  obtain rfl := Option.some_inj.mp (hlong.symm.trans hoctets)
  obtain rfl := Option.some_inj.mp (hshort.symm.trans hoctets')
  refine ⟨hread, hread', hlong, hshort, ?_, ?_, hwritten'.mpr (by decide)⟩
  · exact (hsame _ _ _ _ _ _ hread hread' hlong hshort).1.mp rfl
  · exact fun h => absurd (hwritten.mp h) (by decide)

end Integer

end WebKey
