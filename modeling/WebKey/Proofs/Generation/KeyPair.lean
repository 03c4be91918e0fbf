/-
Generated keys.

The loop makes passes until one succeeds, so what it exits with are the numbers of a pass.
These are complete: as many different primes as were asked for, a modulus of the right size
and a private exponent. From complete numbers a key is always made unless its public numbers
are out of bounds, as every further check follows from the primes being different and from
the congruence modulo the totient.

* **`exists_pass_of_search`** — the numbers come from a pass, and its primes from the source;
* **`Components.IsComplete.toKey_eq`** — what becomes of complete numbers;
* **`generated_keys_are_valid`** — the numbers that the loop exits with, and the key.
-/
import Mathlib
import WebKey.Proofs.Generation.Pass
import WebKey.Proofs.Rsa.Components

namespace WebKey.Generation

/-! ### The loop -/

section search

variable {σ : Type} {source : PrimeSource σ} {count size exponent passes : ℕ} {state next : σ}
  {components : Components}

/-- A pass ends the loop or is followed by the next one. -/
theorem search_succ_eq_ok_iff :
    search source count size exponent (passes + 1) state = .ok (components, next) ↔
      ∃ primes mid, drawPrimes source count (totalSize count size) state = .ok (primes, mid) ∧
        (assess size exponent primes = some components ∧ mid = next ∨
          assess size exponent primes = none ∧
            search source count size exponent passes mid = .ok (components, next)) := by
  simp only [search, bind_eq_ok_iff, Prod.exists]
  refine exists_congr fun primes => exists_congr fun mid => and_congr_right fun _ => ?_
  cases assess size exponent primes with
  | none => simp
  | some found =>
    constructor
    · intro h
      obtain ⟨rfl, rfl⟩ := Prod.mk.inj (Except.ok.inj h)
      exact .inl ⟨rfl, rfl⟩
    · rintro (⟨hfound, rfl⟩ | ⟨hfound, -⟩)
      · rw [Option.some_inj.mp hfound]
        rfl
      · exact absurd hfound (by simp)

/-- When the loop exits, the last primes that the source gave have passed the assessment. -/
theorem exists_pass_of_search
    (h : search source count size exponent passes state = .ok (components, next)) :
    ∃ earlier drawn, source.Draws state (earlier ++ drawn) next ∧ drawn.length = count ∧
      assess size exponent (drawn.map Prod.snd) = some components := by
  induction passes generalizing state with
  | zero => exact absurd h (by simp [search])
  | succ passes ih =>
    obtain ⟨primes, mid, hprimes, hpass⟩ := search_succ_eq_ok_iff.mp h
    obtain ⟨draws, hdraws, rfl, hlength⟩ := exists_draws_of_drawPrimes hprimes
    rcases hpass with ⟨hassess, rfl⟩ | ⟨-, hsearch⟩
    · exact ⟨[], draws, hdraws, hlength, hassess⟩
    · obtain ⟨earlier, drawn, hlater, hpass⟩ := ih hsearch
      refine ⟨draws ++ earlier, drawn, ?_, hpass⟩
      rw [List.append_assoc]
      exact hdraws.append hlater

end search

/-! ### From numbers to a key -/

namespace Components.IsComplete

variable {count size exponent : ℕ} {components : Components}

theorem pairwise_coprime (h : components.IsComplete count size exponent) :
    components.primes.Pairwise Nat.Coprime := by
  refine List.Pairwise.imp_of_mem ?_ h.nodup
  intro p q hp hq hne
  exact (Nat.coprime_primes (h.prime p hp) (h.prime q hq)).mpr hne

theorem odd (h : components.IsComplete count size exponent) : Odd components.n := by
  rw [h.n_eq, ← Nat.coprime_two_left, Nat.coprime_list_prod_right_iff]
  intro p hp
  have := h.three_le p hp
  exact Nat.coprime_two_left.mpr ((h.prime p hp).odd_of_ne_two (by omega))

theorem three_le_n (h : components.IsComplete count size exponent) (hcount : 1 ≤ count) :
    3 ≤ components.n := by
  have hpos : 0 < components.primes.length := by
    rw [h.length_eq]
    omega
  obtain ⟨p, hp⟩ := List.exists_mem_of_length_pos hpos
  have hdvd : p ∣ components.n := h.n_eq ▸ List.dvd_prod hp
  exact (h.three_le p hp).trans (Nat.le_of_dvd h.odd.pos hdvd)

/-- The congruence modulo the totient gives one modulo each prime less one. -/
theorem mul_mod_pred (h : components.IsComplete count size exponent) :
    ∀ p ∈ components.primes, components.e * components.d % (p - 1) = 1 := by
  intro p hp
  have hthree := h.three_le p hp
  have hdvd : p - 1 ∣ (components.primes.map (· - 1)).prod :=
    List.dvd_prod (List.mem_map_of_mem hp)
  have hone : components.e * components.d ≡ 1 [MOD p - 1] :=
    h.e_eq ▸ h.mul_modEq_one.of_dvd hdvd
  rw [hone, Nat.mod_eq_of_lt (by omega)]

/-- A key is made of complete numbers unless its modulus is too large or its public exponent is
out of bounds. -/
theorem toKey_eq (h : components.IsComplete count size exponent) (hcount : 2 ≤ count) :
    ∃ spec : KeySpec, spec.primes = components.primes ∧ spec.modulus = components.n ∧
      spec.privateExponent = components.d ∧ spec.publicExponent? = some exponent ∧
      spec.shape = (if count = 2 then .twoPrime else .multiPrime) ∧
      components.toKey =
        if 4096 < size then .error .modulusTooLarge
        else if exponent < 2 then .error .publicExponentTooSmall
        else if 2 ^ 33 - 1 < exponent then .error .publicExponentTooLarge
        else .ok ⟨spec⟩ := by
  have htwo : ∀ p ∈ components.primes, 2 ≤ p := fun p hp => (h.prime p hp).two_le
  obtain ⟨crt, others, hfactors, hkey⟩ := PrivateKey.ofComponents_of_coprime
    (hcount.trans_eq h.length_eq.symm) htwo h.n_eq.symm h.pairwise_coprime h.mul_mod_pred
  refine ⟨.ofFactors components.n components.e components.d crt others, ?_, ?_, ?_, ?_, ?_, ?_⟩
  · rw [KeySpec.primes_ofFactors, hfactors]
  · rw [KeySpec.modulus_ofFactors]
  · rw [KeySpec.privateExponent_ofFactors]
  · rw [KeySpec.publicExponent?_ofFactors, h.e_eq]
  · rw [KeySpec.shape_ofFactors, hfactors, h.length_eq]
  · rw [toKey, hkey, PublicKey.check_of_odd (h.three_le_n (by omega)) h.odd, h.bitLength_n, h.e_eq]
    rw [apply_ite (Except.map _), apply_ite (Except.map _), apply_ite (Except.map _)]
    rfl

end Components.IsComplete

/-! ### Generated keys -/

section generate

variable {σ : Type} {source : PrimeSource σ} {passes count size exponent : ℕ} {state next : σ}
  {components : Components}

/-- The numbers that the loop exits with are complete. -/
theorem isComplete_of_search (hcount : 2 ≤ count) (hsource : source.Sound)
    (h : search source count size exponent passes state = .ok (components, next)) :
    components.IsComplete count size exponent ∧
      ∃ earlier drawn, source.Draws state (earlier ++ drawn) next ∧
        drawn.map Prod.snd = components.primes := by
  obtain ⟨earlier, drawn, hdraws, hlength, hassess⟩ := exists_pass_of_search h
  have hhigh : ∀ p ∈ drawn.map Prod.snd, ∃ bits, HighPrime bits p := by
    intro p hp
    obtain ⟨draw, hdraw, rfl⟩ := List.mem_map.mp hp
    exact ⟨draw.1, hdraws.highPrime hsource draw (List.mem_append_right earlier hdraw)⟩
  obtain ⟨hprimes, hcomplete⟩ := isComplete_of_assess (by omega)
    ((List.length_map _).trans hlength) hhigh hassess
  exact ⟨hcomplete, earlier, drawn, hdraws, hprimes.symm⟩

theorem generate_of_search (hrequest : checkRequest count size = .ok ())
    (h : search source count size exponent passes state = .ok (components, next)) :
    generate source passes count size exponent state = components.toKey.mapError .refused := by
  rw [generate, hrequest]
  show (search source count size exponent passes state >>= _) = _
  rw [h]
  rfl

end generate

/-- **Generated keys are valid.** If the loop exits, its numbers are complete and its primes are
the last ones that the source gave. For a request that passes its check a key with these numbers
is the result if the modulus is not too large and the public exponent within its bounds; if not,
the error says which of the two it was. -/
theorem generated_keys_are_valid {σ : Type} (source : PrimeSource σ)
    (passes count size exponent : ℕ) (state next : σ) (components : Components)
    (hcount : 2 ≤ count) (hsource : source.Sound)
    (hexit : search source count size exponent passes state = .ok (components, next)) :
    components.IsComplete count size exponent ∧
    (∃ earlier drawn, source.Draws state (earlier ++ drawn) next ∧
      drawn.map Prod.snd = components.primes) ∧
    (checkRequest count size = .ok () →
      ((∃ key, generate source passes count size exponent state = .ok key) ↔
        size ≤ 4096 ∧ 2 ≤ exponent ∧ exponent ≤ 2 ^ 33 - 1) ∧
      (∀ key, generate source passes count size exponent state = .ok key →
        key.spec.primes = components.primes ∧ key.spec.modulus = components.n ∧
        key.spec.privateExponent = components.d ∧ key.spec.publicExponent? = some exponent ∧
        key.spec.shape = if count = 2 then .twoPrime else .multiPrime) ∧
      (∀ failure, generate source passes count size exponent state = .error failure →
        failure = .refused
          (if 4096 < size then .modulusTooLarge
          else if exponent < 2 then .publicExponentTooSmall
          else .publicExponentTooLarge))) := by
  obtain ⟨hcomplete, hdrawn⟩ := isComplete_of_search hcount hsource hexit
  refine ⟨hcomplete, hdrawn, fun hrequest => ?_⟩
  obtain ⟨spec, hprimes, hmodulus, hprivate, hpublic, hshape, hkey⟩ := hcomplete.toKey_eq hcount
  have hgenerate := generate_of_search hrequest hexit
  rw [hkey] at hgenerate
  have hok : ∀ key, generate source passes count size exponent state = .ok key ↔
      ¬4096 < size ∧ ¬exponent < 2 ∧ ¬2 ^ 33 - 1 < exponent ∧ ⟨spec⟩ = key := by
    intro key
    rw [hgenerate, mapError_eq_ok_iff, ite_error_eq_ok_iff, ite_error_eq_ok_iff,
      ite_error_eq_ok_iff, Except.ok.injEq]
  refine ⟨?_, fun key h => ?_, fun failure h => ?_⟩
  · constructor
    · rintro ⟨key, h⟩
      obtain ⟨hsize, htwo, hmax, -⟩ := (hok key).mp h
      exact ⟨not_lt.mp hsize, not_lt.mp htwo, not_lt.mp hmax⟩
    · rintro ⟨hsize, htwo, hmax⟩
      exact ⟨⟨spec⟩, (hok _).mpr ⟨not_lt.mpr hsize, not_lt.mpr htwo, not_lt.mpr hmax, rfl⟩⟩
  · obtain ⟨-, -, -, rfl⟩ := (hok key).mp h
    exact ⟨hprimes, hmodulus, hprivate, hpublic, hshape⟩
  · rw [hgenerate, mapError_eq_error_iff] at h
    obtain ⟨error, herror, rfl⟩ := h
    -- one error for each test, and no error when the last one is passed too
    split_ifs at herror ⊢
    · exact congrArg _ (Except.error.inj herror).symm
    · exact congrArg _ (Except.error.inj herror).symm
    · exact congrArg _ (Except.error.inj herror).symm

/-- The source that gives the primes of a list, as long as primes of seven bits are asked for. -/
def PrimeSource.ofSevenBits : PrimeSource (List ℕ) where
  draw size primes :=
    match primes with
    | [] => none
    | p :: rest =>
      if size = 7 ∧ p ∈ [97, 101, 103, 107, 109, 113, 127] then some (p, rest) else none

theorem PrimeSource.ofSevenBits_sound : ofSevenBits.Sound := by
  intro size primes p next _ h
  cases primes with
  | nil => exact absurd h (by simp [ofSevenBits])
  | cons q rest =>
    simp only [ofSevenBits, Option.ite_none_right_eq_some, Option.some_inj] at h
    obtain ⟨⟨rfl, hp⟩, hanswer⟩ := h
    obtain ⟨rfl, rfl⟩ := Prod.mk.inj hanswer
    simp only [List.mem_cons, List.not_mem_nil, or_false] at hp
    rcases hp with rfl | rfl | rfl | rfl | rfl | rfl | rfl
    all_goals exact ⟨by norm_num, by decide, by decide⟩

/-- The first three primes give a modulus of 20 bits only, so a second pass is made. -/
theorem secondPass_key_is_generated :
    (∃ key, generate PrimeSource.ofSevenBits 2 3 21 7 [97, 101, 103, 103, 107, 109] = .ok key) ∧
    ∀ key, generate PrimeSource.ofSevenBits 2 3 21 7 [97, 101, 103, 103, 107, 109] = .ok key →
      key.spec.primes = [103, 107, 109] ∧ key.spec.privateExponent = 667255 ∧
      key.spec.shape = .multiPrime := by
  have hfirst : assess 21 7 [97, 101, 103] = none := if_neg (by decide)
  have hsecond : assess 21 7 [103, 107, 109] = some ⟨1201289, 7, 667255, [103, 107, 109]⟩ :=
    (assess_eq_some_iff (by decide)).mpr ⟨by decide, by decide, 667255, by decide, rfl⟩
  have hexit : search PrimeSource.ofSevenBits 3 21 7 2 [97, 101, 103, 103, 107, 109] =
      .ok (⟨1201289, 7, 667255, [103, 107, 109]⟩, []) :=
    search_succ_eq_ok_iff.mpr ⟨_, [103, 107, 109], rfl, .inr ⟨hfirst,
      search_succ_eq_ok_iff.mpr ⟨_, [], rfl, .inl ⟨hsecond, rfl⟩⟩⟩⟩
  have hrequest : checkRequest 3 21 = .ok () := rfl
  obtain ⟨-, -, hkey⟩ := generated_keys_are_valid PrimeSource.ofSevenBits 2 3 21 7
    [97, 101, 103, 103, 107, 109] [] _ (by decide) PrimeSource.ofSevenBits_sound hexit
  obtain ⟨hok, hfields, -⟩ := hkey hrequest
  refine ⟨hok.mpr (by decide), fun key h => ?_⟩
  obtain ⟨hprimes, -, hprivate, -, hshape⟩ := hfields key h
  exact ⟨hprimes, hprivate, hshape⟩

end WebKey.Generation
