/-
Integers and their texts.

Writing cuts octets into sextets and names each by a letter; reading goes back. Reading
is strict: a text that is read is the one that writing its octets gives.

* **`Base64Url.decode?_encode`** — the text of octets is read as these octets;
* **`Base64Url.decode?_eq_some_iff`** — no other text is;
* **`Integer.decode_encode`** — the text of an integer is read as this integer;
* **`Integer.decode_eq_ok_iff`**, **`Integer.decode_eq_error_iff`** — the texts that stand
  for an integer, and why the others do not;
* **`Json.positiveInteger_encode`** — as the value of a parameter, the text of an integer
  is read as this integer unless it is zero, and as zero it is refused;
* **`Json.positiveInteger_eq_ok_iff`**, **`Json.positiveInteger_eq_error_iff`** — the values
  that are read as an integer, and the faults of the others.
-/
import Mathlib
import WebKey.Integer

namespace WebKey

namespace Base64Url

/-! ### Letters and groups -/

private theorem sextet?_letter_of_mem :
    ∀ sextet ∈ List.range 64, sextet? (letter sextet) = some sextet := by
  decide

theorem sextet?_letter {sextet : ℕ} (h : sextet < 64) : sextet? (letter sextet) = some sextet :=
  sextet?_letter_of_mem sextet (List.mem_range.mpr h)

theorem sextet_lt {octets : List UInt8} : ∀ sextet ∈ sextets octets, sextet < 64 := by
  -- three octets at a time, and one or two at the end
  fun_induction sextets octets with
  | case1 x y z rest bits ih =>
    have hx := x.toNat_lt
    have hy := y.toNat_lt
    have hz := z.toNat_lt
    simp only [List.forall_mem_cons]
    refine ⟨?_, ?_, ?_, ?_, ih⟩ <;> omega
  | case2 x y bits =>
    have hx := x.toNat_lt
    have hy := y.toNat_lt
    simp only [List.forall_mem_cons]
    refine ⟨?_, ?_, ?_, by simp⟩ <;> omega
  | case3 x bits =>
    have hx := x.toNat_lt
    simp only [List.forall_mem_cons]
    refine ⟨?_, ?_, by simp⟩ <;> omega
  | case4 => simp

private theorem ofNat_eq_of_toNat {octet : UInt8} {n : ℕ} (h : n = octet.toNat) :
    UInt8.ofNat n = octet := by
  rw [h, UInt8.ofNat_toNat]

/-- Joining undoes cutting: the bits of a group are those of its octets, and the low bits
that a last group leaves unused are zero. -/
theorem octets?_sextets (octets : List UInt8) : octets? (sextets octets) = some octets := by
  fun_induction sextets octets with
  | case1 x y z rest bits ih =>
    have hx := x.toNat_lt
    have hy := y.toNat_lt
    have hz := z.toNat_lt
    have hbits : bits / 262144 * 262144 + bits / 4096 % 64 * 4096 + bits / 64 % 64 * 64 + bits % 64
        = bits := by omega
    simp only [octets?, ih, hbits, Option.map_some, Option.some_inj, List.cons.injEq, and_true]
    refine ⟨ofNat_eq_of_toNat ?_, ofNat_eq_of_toNat ?_, ofNat_eq_of_toNat ?_⟩ <;> omega
  | case2 x y bits =>
    have hx := x.toNat_lt
    have hy := y.toNat_lt
    have hbits : bits / 4096 * 4096 + bits / 64 % 64 * 64 + bits % 64 = bits := by omega
    simp only [octets?, hbits]
    rw [if_pos (by omega), Option.some_inj, List.cons.injEq, List.cons.injEq]
    refine ⟨ofNat_eq_of_toNat ?_, ofNat_eq_of_toNat ?_, rfl⟩ <;> omega
  | case3 x bits =>
    have hx := x.toNat_lt
    have hbits : bits / 64 * 64 + bits % 64 = bits := by omega
    simp only [octets?, hbits]
    rw [if_pos (by omega), Option.some_inj, List.cons.injEq]
    exact ⟨ofNat_eq_of_toNat (by omega), rfl⟩
  | case4 => rfl

/-! ### Texts -/

theorem mapM_sextet?_letter {numbers : List ℕ} (h : ∀ n ∈ numbers, n < 64) :
    (numbers.map letter).mapM sextet? = some numbers := by
  induction numbers with
  | nil => rfl
  | cons n rest ih =>
    rw [List.forall_mem_cons] at h
    rw [List.map_cons, List.mapM_cons, sextet?_letter h.1, ih h.2]
    rfl

theorem decode?_encode (octets : List UInt8) : decode? (encode octets) = some octets := by
  rw [decode?, encode, String.toList_ofList, mapM_sextet?_letter sextet_lt, Option.bind_some,
    octets?_sextets]

/-! ### Texts that are read -/

private theorem toNat_mem_range {low high c : Char} (h : low ≤ c ∧ c ≤ high) :
    low.toNat ≤ c.toNat ∧ c.toNat ≤ high.toNat :=
  ⟨UInt32.le_iff_toNat_le.mp h.1, UInt32.le_iff_toNat_le.mp h.2⟩

/-- A character has a value only if it is the letter for it. -/
theorem letter_of_sextet? {c : Char} {sextet : ℕ} (h : sextet? c = some sextet) :
    sextet < 64 ∧ letter sextet = c := by
  rw [sextet?] at h
  split_ifs at h with hupper hlower hdigit hminus hlow
  · have hrange : 65 ≤ c.toNat ∧ c.toNat ≤ 90 := toNat_mem_range hupper
    obtain rfl := Option.some_inj.mp h
    refine ⟨by omega, ?_⟩
    rw [letter, if_pos (by omega), Nat.add_sub_cancel' hrange.1, Char.ofNat_toNat]
  · have hrange : 97 ≤ c.toNat ∧ c.toNat ≤ 122 := toNat_mem_range hlower
    obtain rfl := Option.some_inj.mp h
    refine ⟨by omega, ?_⟩
    rw [letter, if_neg (by omega), if_pos (by omega), Nat.add_sub_cancel,
      Nat.add_sub_cancel' hrange.1, Char.ofNat_toNat]
  · have hrange : 48 ≤ c.toNat ∧ c.toNat ≤ 57 := toNat_mem_range hdigit
    obtain rfl := Option.some_inj.mp h
    refine ⟨by omega, ?_⟩
    rw [letter, if_neg (by omega), if_neg (by omega), if_pos (by omega), Nat.add_sub_cancel,
      Nat.add_sub_cancel' hrange.1, Char.ofNat_toNat]
  · obtain rfl := Option.some_inj.mp h
    exact ⟨by omega, hminus.symm⟩
  · obtain rfl := Option.some_inj.mp h
    exact ⟨by omega, hlow.symm⟩

theorem map_letter_of_mapM_sextet? {chars : List Char} {numbers : List ℕ}
    (h : chars.mapM sextet? = some numbers) :
    (∀ n ∈ numbers, n < 64) ∧ numbers.map letter = chars := by
  induction chars generalizing numbers with
  | nil =>
    obtain rfl := Option.some_inj.mp h
    exact ⟨by simp, rfl⟩
  | cons c rest ih =>
    rw [List.mapM_cons] at h
    obtain ⟨sextet, hsextet, h⟩ := Option.bind_eq_some_iff.mp h
    obtain ⟨others, hothers, h⟩ := Option.bind_eq_some_iff.mp h
    obtain rfl := Option.some_inj.mp h
    obtain ⟨hlt, hletter⟩ := letter_of_sextet? hsextet
    obtain ⟨hall, hmap⟩ := ih hothers
    exact ⟨List.forall_mem_cons.mpr ⟨hlt, hall⟩, by rw [List.map_cons, hletter, hmap]⟩

private theorem toNat_ofNat_of_lt {n : ℕ} (h : n < 256) : (UInt8.ofNat n).toNat = n := by
  rw [UInt8.toNat_ofNat', Nat.mod_eq_of_lt h]

/-- Cutting undoes joining: the unused bits of a last group have to be zero, which is what
cutting makes of them. -/
theorem sextets_of_octets? {numbers : List ℕ} {octets : List UInt8} (hlt : ∀ n ∈ numbers, n < 64)
    (h : octets? numbers = some octets) : sextets octets = numbers := by
  fun_induction octets? numbers generalizing octets with
  | case1 a b c d rest bits =>
    rename_i ih
    obtain ⟨tail, htail, rfl⟩ := Option.map_eq_some_iff.mp h
    simp only [List.forall_mem_cons] at hlt
    obtain ⟨ha, hb, hc, hd, hrest⟩ := hlt
    have hbits : bits / 65536 * 65536 + bits / 256 % 256 * 256 + bits % 256 = bits := by omega
    simp only [sextets, ih hrest htail, toNat_ofNat_of_lt (show bits / 65536 < 256 by omega),
      toNat_ofNat_of_lt (show bits / 256 % 256 < 256 by omega),
      toNat_ofNat_of_lt (show bits % 256 < 256 by omega), hbits, List.cons.injEq, and_true]
    refine ⟨?_, ?_, ?_, ?_⟩ <;> omega
  | case2 a b c bits =>
    rename_i hunused
    obtain rfl := Option.some_inj.mp h
    simp only [List.forall_mem_cons] at hlt
    obtain ⟨ha, hb, hc, -⟩ := hlt
    have hbits : (bits / 1024 * 256 + bits / 4 % 256) * 4 = bits := by omega
    simp only [sextets, toNat_ofNat_of_lt (show bits / 1024 < 256 by omega),
      toNat_ofNat_of_lt (show bits / 4 % 256 < 256 by omega), hbits, List.cons.injEq, and_true]
    refine ⟨?_, ?_, ?_⟩ <;> omega
  | case3 => exact absurd h (by simp)
  | case4 a b bits =>
    rename_i hunused
    obtain rfl := Option.some_inj.mp h
    simp only [List.forall_mem_cons] at hlt
    obtain ⟨ha, hb, -⟩ := hlt
    have hbits : bits / 16 * 16 = bits := by omega
    simp only [sextets, toNat_ofNat_of_lt (show bits / 16 < 256 by omega), hbits, List.cons.injEq,
      and_true]
    refine ⟨?_, ?_⟩ <;> omega
  | case5 => exact absurd h (by simp)
  | case6 => exact absurd h (by simp)
  | case7 =>
    obtain rfl := Option.some_inj.mp h
    rfl

/-- **Reading octets is strict**: each list of octets is read from one text only. -/
theorem decode?_eq_some_iff {text : String} {octets : List UInt8} :
    decode? text = some octets ↔ text = encode octets := by
  constructor
  · intro h
    obtain ⟨numbers, hnumbers, hoctets⟩ := Option.bind_eq_some_iff.mp h
    obtain ⟨hlt, hmap⟩ := map_letter_of_mapM_sextet? hnumbers
    rw [encode, sextets_of_octets? hlt hoctets, hmap, String.ofList_toList]
  · rintro rfl
    exact decode?_encode octets

end Base64Url

namespace Integer

/-- The text stands for the value: it is the text of octets, of which there is at least one,
and the octets have this value. Zero octets may stand in front. -/
def StandsFor (text : String) (value : ℕ) : Prop :=
  ∃ octets, octets ≠ [] ∧ text = Base64Url.encode octets ∧ Octets.toNat octets = value

theorem StandsFor.of_octets {text : String} (octets : List UInt8)
    (htext : text = Base64Url.encode octets) (hpos : 0 < Octets.toNat octets) :
    StandsFor text (Octets.toNat octets) := by
  have hne : octets ≠ [] := by
    rintro rfl
    exact absurd hpos (by simp)
  exact ⟨octets, hne, htext, rfl⟩

theorem decode_eq_ok_iff {text : String} {value : ℕ} :
    decode text = .ok value ↔ StandsFor text value := by
  constructor
  · intro h
    rw [decode] at h
    rcases hoctets : Base64Url.decode? text with _ | _ | ⟨octet, rest⟩
    · rw [hoctets] at h
      exact absurd h (by simp)
    · rw [hoctets] at h
      exact absurd h (by simp)
    · rw [hoctets] at h
      exact ⟨octet :: rest, List.cons_ne_nil _ _, Base64Url.decode?_eq_some_iff.mp hoctets,
        Except.ok.inj h⟩
  · rintro ⟨octets, hne, rfl, rfl⟩
    rw [decode, Base64Url.decode?_encode]
    cases octets with
    | nil => exact absurd rfl hne
    | cons octet rest => rfl

/-- A text that stands for no integer is no text of octets, or the empty one. -/
theorem decode_eq_error_iff {text : String} {fault : MemberFault} :
    decode text = .error fault ↔
      (fault = .notBase64Url ∧ ∀ octets, text ≠ Base64Url.encode octets) ∨
        (fault = .noOctets ∧ text = Base64Url.encode []) := by
  have hencode : ∀ octets, text = Base64Url.encode octets → Base64Url.decode? text = some octets :=
    fun octets htext => Base64Url.decode?_eq_some_iff.mpr htext
  rw [decode]
  rcases hoctets : Base64Url.decode? text with _ | _ | ⟨octet, rest⟩
  · constructor
    · intro h
      refine .inl ⟨(Except.error.inj h).symm, fun octets htext => ?_⟩
      exact absurd (hoctets.symm.trans (hencode octets htext)) (by simp)
    · rintro (⟨rfl, -⟩ | ⟨-, htext⟩)
      · rfl
      · exact absurd (hoctets.symm.trans (hencode [] htext)) (by simp)
  · constructor
    · intro h
      exact .inr ⟨(Except.error.inj h).symm, Base64Url.decode?_eq_some_iff.mp hoctets⟩
    · rintro (⟨-, hnone⟩ | ⟨rfl, -⟩)
      · exact absurd (Base64Url.decode?_eq_some_iff.mp hoctets) (hnone [])
      · rfl
  · constructor
    · intro h
      exact absurd h (by simp)
    · rintro (⟨-, hnone⟩ | ⟨-, htext⟩)
      · exact absurd (Base64Url.decode?_eq_some_iff.mp hoctets) (hnone _)
      · exact absurd (hoctets.symm.trans (hencode [] htext)) (by simp)

theorem standsFor_encode (value : ℕ) : StandsFor (encode value) value :=
  ⟨Octets.ofNat value, Octets.ofNat_ne_nil value, rfl, Octets.toNat_ofNat value⟩

theorem decode_encode (value : ℕ) : decode (encode value) = .ok value :=
  decode_eq_ok_iff.mpr (standsFor_encode value)

end Integer

/-! ### Values of parameters -/

namespace Json

theorem positiveInteger_of_kind_ne {value : Json} (param : Param) (h : value.kind ≠ .string) :
    value.positiveInteger param = .error (.notString param value.kind) := by
  cases value with
  | string text => exact absurd rfl h
  | null => rfl
  | bool b => rfl
  | number x => rfl
  | array items => rfl
  | object members => rfl

theorem positiveInteger_eq_ok_iff {param : Param} {value : Json} {n : ℕ} :
    value.positiveInteger param = .ok n ↔
      0 < n ∧ ∃ text, value = .string text ∧ Integer.StandsFor text n := by
  constructor
  · intro h
    by_cases hkind : value.kind = .string
    · obtain ⟨text, rfl⟩ := kind_eq_string_iff.mp hkind
      rw [positiveInteger] at h
      split at h
      · exact absurd h (by simp)
      · rename_i hzero
        refine ⟨Nat.pos_of_ne_zero ?_, text, rfl, Integer.decode_eq_ok_iff.mp h⟩
        rintro rfl
        exact hzero h
    · rw [positiveInteger_of_kind_ne param hkind] at h
      exact absurd h (by simp)
  · rintro ⟨hpos, text, rfl, htext⟩
    rw [positiveInteger, Integer.decode_eq_ok_iff.mpr htext]
    cases n with
    | zero => exact absurd hpos (by simp)
    | succ n => rfl

/-- What is wrong with a value that is not read as a positive integer. -/
inductive IntegerFault (param : Param) : Json → MemberFault → Prop where
  | notString {value : Json} (h : value.kind ≠ .string) :
    IntegerFault param value (.notString param value.kind)
  | notBase64Url {text : String} (h : ∀ octets, text ≠ Base64Url.encode octets) :
    IntegerFault param (.string text) .notBase64Url
  | noOctets {text : String} (h : text = Base64Url.encode []) :
    IntegerFault param (.string text) .noOctets
  | notPositive {text : String} (h : Integer.StandsFor text 0) :
    IntegerFault param (.string text) (.notPositive param)

theorem positiveInteger_eq_error_iff {param : Param} {value : Json} {fault : MemberFault} :
    value.positiveInteger param = .error fault ↔ IntegerFault param value fault := by
  constructor
  · intro h
    by_cases hkind : value.kind = .string
    · obtain ⟨text, rfl⟩ := kind_eq_string_iff.mp hkind
      rw [positiveInteger] at h
      split at h
      · rename_i hzero
        obtain rfl := Except.error.inj h
        exact .notPositive (Integer.decode_eq_ok_iff.mp hzero)
      · rcases Integer.decode_eq_error_iff.mp h with ⟨rfl, hnone⟩ | ⟨rfl, htext⟩
        · exact .notBase64Url hnone
        · exact .noOctets htext
    · rw [positiveInteger_of_kind_ne param hkind] at h
      obtain rfl := Except.error.inj h
      exact .notString hkind
  · rintro (hkind | hnone | htext | hzero)
    · exact positiveInteger_of_kind_ne param hkind
    · rw [positiveInteger, Integer.decode_eq_error_iff.mpr (.inl ⟨rfl, hnone⟩)]
    · rw [positiveInteger, Integer.decode_eq_error_iff.mpr (.inr ⟨rfl, htext⟩)]
    · rw [positiveInteger, Integer.decode_eq_ok_iff.mpr hzero]
      rfl

end Json

theorem Json.positiveInteger_encode (param : Param) (value : ℕ) :
    (Json.string (Integer.encode value)).positiveInteger param =
      if value = 0 then .error (.notPositive param) else .ok value := by
  rw [Json.positiveInteger, Integer.decode_encode]
  cases value with
  | zero => rfl
  | succ value => rfl

end WebKey
