/-
Public exponents for which there are no keys of two primes.

The check of a request does not look at the public exponent. A pass fails if the exponent shares a
factor with one of the primes less one, and then the next pass begins. The product of two primes
with their two highest bits set always has the size of the modulus, so with two primes it depends on
the exponent alone whether any pass can succeed. An even exponent shares a factor with every odd
prime less one: no pass succeeds, whatever the source answers, and no error is ever reported. There
are odd exponents too for which this is so.

* **`HighPrime.bitLength_mul`** — the size of a product of two primes;
* **`assess_eq_none_of_even`** — what becomes of a pass for an even exponent;
* **`search_step_of_forall_not_choice`** and **`search_eq_exhausted`** — if there is no choice,
  every pass is followed by the next one;
* **`CanBeMet`** and **`generation_ends_iff_canBeMet`** — the exponents for which the loop can exit;
* **`impossible_exponents_never_end`** — admitted requests for which it never does.
-/
import WebKey.Proofs.Generation.Feasibility

namespace WebKey.Generation

/-! ### The modulus of two primes -/

/-- The sizes of two primes add up to the size of their product. -/
theorem HighPrime.bitLength_mul {k l p q : ℕ} (hp : HighPrime k p) (hq : HighPrime l q) :
    bitLength (p * q) = k + l := by
  rw [hp.hasTopBits.bitLength_mul hq.hasTopBits, hp.bitLength_eq, hq.bitLength_eq]

theorem HighPrime.odd {k p : ℕ} (h : HighPrime k p) : Odd p :=
  h.prime.odd_of_ne_two (by have := h.three_le; omega)

/-- With two primes, the first one has half of the bits and the second one the rest. -/
theorem shares_two (size : ℕ) : shares 2 (totalSize 2 size) = [size / 2, size - size / 2] := by
  simp [totalSize_of_lt, shares]

/-! ### Even exponents -/

theorem not_coprime_of_even {exponent p : ℕ} (hexponent : Even exponent) (hp : Odd p) :
    ¬exponent.Coprime (p - 1) :=
  Nat.not_coprime_of_dvd_of_dvd one_lt_two hexponent.two_dvd (hp.tsub_odd odd_one).two_dvd

/-- For an even exponent no pass succeeds, with any number of odd primes. -/
theorem assess_eq_none_of_even {size exponent : ℕ} {primes : List ℕ} (hexponent : Even exponent)
    (hne : primes ≠ []) (hprimes : ∀ p ∈ primes, Odd p ∧ 3 ≤ p) :
    assess size exponent primes = none := by
  by_contra hsome
  obtain ⟨-, -, hcoprime⟩ := (exists_assess_eq_some_iff hne fun p hp => (hprimes p hp).2).mp
    (Option.ne_none_iff_exists'.mp hsome)
  obtain ⟨p, hp⟩ := List.exists_mem_of_ne_nil primes hne
  exact not_coprime_of_even hexponent (hprimes p hp).1 (coprime_totient_iff.mp hcoprime p hp)

/-! ### Requests that no choice meets -/

section Exhausted

variable {σ : Type} {source : PrimeSource σ} {count size exponent : ℕ}

/-- Drawing the primes of a pass fails for want of bits or of an answer, and for nothing else. -/
theorem drawPrimes_ne_refused {total : ℕ} {state : σ} (error : RsaError) :
    drawPrimes source count total state ≠ .error (.refused error) := by
  induction count generalizing total state with
  | zero => exact ok_ne_error
  | succ count ih =>
    simp only [drawPrimes]
    split
    · simp
    · cases source.draw (total / (count + 1)) state with
      | none => simp
      | some answer => exact bind_ne_error ih fun _ => ok_ne_error

/-- If there is no choice, the pass that gets its primes is followed by the next one. -/
theorem search_step_of_forall_not_choice (hcount : 0 < count) (hsource : source.Sound)
    (hnone : ∀ primes, ¬Choice count size exponent primes) {state mid : σ} {primes : List ℕ}
    (hprimes : drawPrimes source count (totalSize count size) state = .ok (primes, mid))
    (passes : ℕ) :
    search source count size exponent (passes + 1) state =
      search source count size exponent passes mid := by
  have hhigh := highPrimes_of_drawPrimes hsource hprimes
  have hassess : assess size exponent primes = none := by
    by_contra hsome
    exact hnone primes ((exists_assess_iff hcount hhigh).mp (Option.ne_none_iff_exists'.mp hsome))
  simp only [search, hprimes, hassess, bind, Except.bind]

/-- If there is no choice, no number of passes is enough. -/
theorem search_eq_exhausted (hcount : 0 < count) (hsource : source.Sound)
    (htotal : 2 * count ≤ totalSize count size)
    (hnone : ∀ primes, ¬Choice count size exponent primes) (passes : ℕ) (state : σ) :
    search source count size exponent passes state = .error .exhausted := by
  induction passes generalizing state with
  | zero => rfl
  | succ passes ih =>
    cases hprimes : drawPrimes source count (totalSize count size) state with
    | ok answer =>
      obtain ⟨primes, mid⟩ := answer
      rw [search_step_of_forall_not_choice hcount hsource hnone hprimes, ih]
    | error failure =>
      rw [search, hprimes]
      cases failure with
      | refused error => exact absurd hprimes (drawPrimes_ne_refused error)
      | primeTooSmall => exact absurd hprimes (drawPrimes_ne_primeTooSmall hsource.exact htotal)
      | exhausted => rfl

end Exhausted

/-! ### Exponents that can be met -/

/-- There are two different primes with half of the bits each, and the exponent shares no factor
with either of them less one. -/
def CanBeMet (size exponent : ℕ) : Prop :=
  ∃ p q, p ≠ q ∧ HighPrime (size / 2) p ∧ HighPrime (size - size / 2) q ∧
    exponent.Coprime (p - 1) ∧ exponent.Coprime (q - 1)

section TwoPrimes

variable {size exponent : ℕ}

/-- With two primes the size of the product is no obstacle. -/
theorem exists_choice_two_iff :
    (∃ primes, Choice 2 size exponent primes) ↔ CanBeMet size exponent := by
  constructor
  · rintro ⟨primes, hhigh, hnodup, -, hcoprime⟩
    rw [shares_two] at hhigh
    obtain ⟨p, later, hp, hlater, rfl⟩ := List.forall₂_cons_left_iff.mp hhigh
    obtain ⟨q, none, hq, hnone, rfl⟩ := List.forall₂_cons_left_iff.mp hlater
    obtain rfl := List.forall₂_nil_left_iff.mp hnone
    simp only [List.forall_mem_cons] at hcoprime
    exact ⟨p, q, by simpa using hnodup, hp, hq, hcoprime.1, hcoprime.2.1⟩
  · rintro ⟨p, q, hne, hp, hq, hpcoprime, hqcoprime⟩
    refine ⟨[p, q], ?_, by simpa using hne, ?_, ?_⟩
    · rw [shares_two]
      exact .cons hp (.cons hq .nil)
    · rw [List.prod_pair, hp.bitLength_mul hq, Nat.add_sub_cancel' (Nat.div_le_self size 2)]
    · rw [List.forall_mem_cons, List.forall_mem_singleton]
      exact ⟨hpcoprime, hqcoprime⟩

theorem CanBeMet.odd (h : CanBeMet size exponent) : Odd exponent := by
  obtain ⟨p, -, -, hp, -, hcoprime, -⟩ := h
  by_contra hexponent
  exact not_coprime_of_even (Nat.not_odd_iff_even.mp hexponent) hp.odd hcoprime

/-- An admitted request asks for two primes of at least six bits. -/
theorem six_le_half (hrequest : checkRequest 2 size = .ok ()) : 6 ≤ size / 2 := by
  rcases Nat.lt_or_ge size 64 with hsmall | hlarge
  · exact (le_div_of_enoughPrimes le_rfl hsmall ((checkRequest_eq_ok_iff.mp hrequest).2 hsmall)).2
  · omega

theorem canBeMet_defaultExponent (hrequest : checkRequest 2 size = .ok ()) :
    CanBeMet size defaultExponent :=
  exists_choice_two_iff.mp ((exists_choice_iff two_pos).mpr
    (feasible_of_le_three two_pos (by decide) (six_le_half hrequest)))

/-- A prime with its two highest bits set is not one above a power of two, unless it is three. -/
theorem HighPrime.exists_odd_prime_dvd {k p : ℕ} (hk : 3 ≤ k) (h : HighPrime k p) :
    ∃ r, r.Prime ∧ Odd r ∧ r ∣ p - 1 := by
  by_contra hnone
  obtain ⟨k, rfl⟩ := Nat.exists_eq_add_of_le' (show 2 ≤ k by omega)
  obtain ⟨-, hlow, hhigh⟩ := highPrime_add_two_iff.mp h
  have htwo : ∀ {r : ℕ}, r.Prime → r ∣ p - 1 → r = 2 := by
    intro r hr hdvd
    by_contra hne
    exact hnone ⟨r, hr, hr.odd_of_ne_two hne, hdvd⟩
  have hthree := h.three_le
  obtain ⟨a, ha⟩ : ∃ a, p - 1 = 2 ^ a :=
    ⟨_, Nat.eq_prime_pow_of_unique_prime_dvd (by omega) htwo⟩
  have hpow : 2 ^ 1 ≤ 2 ^ k := Nat.pow_le_pow_right (by decide) (by omega)
  -- the powers of two next to it are too small and too large
  rcases Nat.lt_or_ge (k + 1) a with hlarge | hsmall
  · have hle : 2 ^ (k + 2) ≤ 2 ^ a := Nat.pow_le_pow_right (by decide) hlarge
    rw [show 2 ^ (k + 2) = 4 * 2 ^ k by ring] at hle
    omega
  · have hle : 2 ^ a ≤ 2 ^ (k + 1) := Nat.pow_le_pow_right (by decide) hsmall
    rw [show 2 ^ (k + 1) = 2 * 2 ^ k by ring] at hle
    omega

/-- Not only even exponents cannot be met: the product of all odd numbers of the size of the modulus
shares a factor with every prime less one. -/
theorem exists_odd_not_canBeMet (hrequest : checkRequest 2 size = .ok ()) :
    ∃ exponent, Odd exponent ∧ ¬CanBeMet size exponent := by
  refine ⟨∏ i ∈ Finset.range (2 ^ size), (2 * i + 1), ?_, ?_⟩
  · exact Finset.prod_induction _ Odd (fun _ _ => Odd.mul) odd_one fun i _ => odd_two_mul_add_one i
  · rintro ⟨p, -, -, hp, -, hcoprime, -⟩
    obtain ⟨r, hr, ⟨i, rfl⟩, hdvd⟩ :=
      hp.exists_odd_prime_dvd (by have := six_le_half hrequest; omega)
    refine Nat.not_coprime_of_dvd_of_dvd hr.one_lt
      (Finset.dvd_prod_of_mem (fun i => 2 * i + 1) ?_) hdvd hcoprime
    have hle := Nat.le_of_dvd (by have := hp.three_le; omega) hdvd
    have hlt : p < 2 ^ (size / 2) := bitLength_le_iff.mp hp.bitLength_eq.le
    have hpow : 2 ^ (size / 2) ≤ 2 ^ size :=
      Nat.pow_le_pow_right (by decide) (Nat.div_le_self size 2)
    rw [Finset.mem_range]
    omega

variable {σ : Type} {source : PrimeSource σ}

theorem generate_eq_exhausted (hrequest : checkRequest 2 size = .ok ()) (hsource : source.Sound)
    (hnone : ¬CanBeMet size exponent) (passes : ℕ) (state : σ) :
    generate source passes 2 size exponent state = .error .exhausted := by
  have hhalf := six_le_half hrequest
  have htotal : totalSize 2 size = size := totalSize_of_lt (by decide)
  rw [← exists_choice_two_iff, not_exists] at hnone
  have hsearch := search_eq_exhausted two_pos hsource (by omega) hnone passes state
  rw [generate, hrequest]
  show (search source 2 size exponent passes state >>= _) = _
  rw [hsearch]
  rfl

/-- **Which exponents bring generation to an end.** For an admitted request one pass can succeed
exactly if the exponent can be met, and only then generation ever ends with a key or an error,
within any number of passes; otherwise every pass is in vain, whatever the source answers. Only odd
exponents can be met, and the default exponent always can. -/
theorem generation_ends_iff_canBeMet (exponent : ℕ) (hrequest : checkRequest 2 size = .ok ()) :
    ((∃ (σ : Type) (source : PrimeSource σ) (state next : σ) (components : Components),
        source.Sound ∧ search source 2 size exponent 1 state = .ok (components, next)) ↔
      CanBeMet size exponent) ∧
    ((∃ (σ : Type) (source : PrimeSource σ) (passes : ℕ) (state : σ),
        source.Sound ∧ generate source passes 2 size exponent state ≠ .error .exhausted) ↔
      CanBeMet size exponent) ∧
    (CanBeMet size exponent → Odd exponent) ∧
    CanBeMet size defaultExponent := by
  refine ⟨?_, ?_, CanBeMet.odd, canBeMet_defaultExponent hrequest⟩
  · rw [← exists_choice_two_iff]
    exact exists_search_eq_ok_iff two_pos one_pos
  constructor
  · rintro ⟨σ, source, passes, state, hsource, hends⟩
    by_contra hnone
    exact hends (generate_eq_exhausted hrequest hsource hnone passes state)
  · intro h
    obtain ⟨σ, source, state, next, components, hsource, hsearch⟩ :=
      (exists_search_eq_ok_iff two_pos one_pos).mpr (exists_choice_two_iff.mpr h)
    refine ⟨σ, source, 1, state, hsource, fun hexhausted => ?_⟩
    rw [generate_of_search hrequest hsearch, mapError_eq_error_iff] at hexhausted
    obtain ⟨error, -, hfailure⟩ := hexhausted
    exact Failure.noConfusion hfailure

/-- With 12 bits and the exponent seven, 53 and 59 will do. -/
theorem smallExponent_can_be_met :
    checkRequest 2 12 = .ok () ∧
    ∃ (σ : Type) (source : PrimeSource σ) (passes : ℕ) (state : σ),
      source.Sound ∧ generate source passes 2 12 7 state ≠ .error .exhausted := by
  have hrequest : checkRequest 2 12 = .ok () := rfl
  obtain ⟨-, hends, -, -⟩ := generation_ends_iff_canBeMet 7 hrequest
  exact ⟨hrequest, hends.mpr ⟨53, 59, by decide, by decide, by decide, by decide, by decide⟩⟩

end TwoPrimes

/-- Two requests are admitted for which generation never ends. The exponent zero, which is refused
only once there are primes, is even, so any two odd numbers of 32 bits fail to pass. With the odd
exponent 39 and 12 bits there are the primes 53, 59 and 61, and only 59 can be used. -/
theorem impossible_exponents_never_end :
    checkRequest 2 64 = .ok () ∧
    (∀ p q, Odd p → Odd q → bitLength p = 32 → bitLength q = 32 → assess 64 0 [p, q] = none) ∧
    (∀ (σ : Type) (source : PrimeSource σ) (passes : ℕ) (state : σ), source.Sound →
      generate source passes 2 64 0 state = .error .exhausted) ∧
    checkRequest 2 12 = .ok () ∧
    (∀ (σ : Type) (source : PrimeSource σ) (passes : ℕ) (state : σ), source.Sound →
      generate source passes 2 12 39 state = .error .exhausted) := by
  have hthree : ∀ {p}, bitLength p = 32 → 3 ≤ p := by
    intro p hp
    have := ((bitLength_eq_iff (by decide)).mp hp).1
    omega
  have hzero : ¬CanBeMet 64 0 := fun h => absurd h.odd (by decide)
  have husable : usablePrimes 39 6 = [59] := by decide +kernel
  have hsmall : ¬CanBeMet 12 39 := by
    rintro ⟨p, q, hne, hp, hq, hpcoprime, hqcoprime⟩
    have hp' := mem_usablePrimes_iff.mpr ⟨hp, hpcoprime⟩
    have hq' := mem_usablePrimes_iff.mpr ⟨hq, hqcoprime⟩
    rw [husable, List.mem_singleton] at hp' hq'
    exact hne (hp'.trans hq'.symm)
  refine ⟨rfl, ?_, ?_, rfl, ?_⟩
  · intro p q hp hq hpsize hqsize
    refine assess_eq_none_of_even Even.zero (by simp) ?_
    simp [hp, hq, hthree hpsize, hthree hqsize]
  · exact fun σ source passes state hsource =>
      generate_eq_exhausted rfl hsource hzero passes state
  · exact fun σ source passes state hsource =>
      generate_eq_exhausted rfl hsource hsmall passes state

end WebKey.Generation
