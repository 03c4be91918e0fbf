/-
Which requests can be met.

The estimate of the primes of a size is made for moduli of fewer than 64 bits only, and there it
refuses every request that cannot be met. Larger moduli are admitted with any number of primes. With
two or three primes they can be met, as there are primes close enough to the next power of two. With
more primes it depends: some passes ask for primes of fewer than two bits, and some are never given
enough different ones.

* **`exists_largePrimes`** — three usable primes of a size, in its largest fifth;
* **`feasible_of_le_three`** and **`feasible_of_enoughPrimes`** — requests that can be met;
* **`pass_can_succeed_iff`** — what becomes of a request that passes its check;
* **`admitted_requests_can_fail`** — admitted requests that cannot be met.
-/
import WebKey.Proofs.Generation.Choices
import WebKey.Proofs.Primes.Largest

namespace WebKey.Generation

/-! ### Usable primes in the largest fifth -/

/-- A usable prime in the largest fifth of its size. -/
structure LargePrime (size p : ℕ) : Prop where
  prime : p.Prime
  large : 4 * 2 ^ size ≤ 5 * p
  lt : p < 2 ^ size
  mod_ne : p % defaultExponent ≠ 1

theorem prime_defaultExponent : defaultExponent.Prime := by
  rw [defaultExponent]
  norm_num

theorem LargePrime.two_le {size p : ℕ} (h : LargePrime size p) : 2 ≤ size := by
  have hlt := h.lt
  have htwo := h.prime.two_le
  by_contra hsize
  have hpow : 2 ^ size ≤ 2 ^ 1 := Nat.pow_le_pow_right (by decide) (by omega)
  omega

theorem LargePrime.mem_usablePrimes {size p : ℕ} (h : LargePrime size p) :
    p ∈ usablePrimes defaultExponent size := by
  obtain ⟨k, rfl⟩ := Nat.exists_eq_add_of_le' h.two_le
  have hpow : 2 ^ (k + 2) = 4 * 2 ^ k := by ring
  have hlarge := h.large
  have hlt := h.lt
  rw [hpow] at hlarge hlt
  refine mem_usablePrimes_iff.mpr ⟨highPrime_add_two_iff.mpr ⟨h.prime, by omega, hlt⟩, ?_⟩
  rw [prime_defaultExponent.coprime_iff_not_dvd]
  intro hdvd
  have htwo := h.prime.two_le
  refine h.mod_ne ?_
  rw [← Nat.sub_add_cancel (show 1 ≤ p by omega), ← Nat.mod_add_mod,
    Nat.mod_eq_zero_of_dvd hdvd]
  rfl

/-- For each of the smaller sizes some large primes, about nine tenths of the next power of two. -/
def samplePrimes : (size : ℕ) → List ℕ
  | 6 => [59, 61, 53]
  | 7 => [113, 109, 107, 127]
  | 8 => [229, 233, 227, 223, 239, 241, 211]
  | 9 => [461, 463, 457, 467, 449, 443, 479]
  | 10 => [919, 929, 911, 907, 937, 941]
  | 11 => [1847, 1831, 1861, 1823, 1867]
  | 12 => [3691, 3677, 3697, 3673, 3701]
  | 13 => [7369, 7393, 7351, 7349]
  | 14 => [14747, 14741, 14753, 14737]
  | 15 => [29483, 29501, 29473, 29527]
  | 16 => [58979, 58991, 58997]
  | 17 => [117959, 117973, 117977]
  | 18 => [235927, 235919, 235951]
  | 19 => [471853, 471871, 471847]
  | 20 => [943729, 943699, 943741]
  | 21 => [1887437, 1887433, 1887443]
  | _ => []

theorem largePrime_iff {size p : ℕ} :
    LargePrime size p ↔ p.Prime ∧ 4 * 2 ^ size ≤ 5 * p ∧ p < 2 ^ size ∧ p % 65537 ≠ 1 :=
  ⟨fun h => ⟨h.prime, h.large, h.lt, h.mod_ne⟩, fun h => ⟨h.1, h.2.1, h.2.2.1, h.2.2.2⟩⟩

theorem largePrime_of_mem_samplePrimes (size : ℕ) : ∀ p ∈ samplePrimes size, LargePrime size p := by
  unfold samplePrimes
  simp only [largePrime_iff]
  split
  all_goals
    norm_num

theorem largePrime_of_mem_topPrimes {size p : ℕ} (hsize : 2 ≤ size)
    (h : p ∈ Primes.topPrimes defaultExponent (2 ^ size)) : LargePrime size p := by
  obtain ⟨hrange, hprime, hmod⟩ := Finset.mem_filter.mp h
  obtain ⟨hlow, hhigh⟩ := Finset.mem_Ioc.mp hrange
  have hne : p ≠ 2 ^ size := by
    rintro rfl
    exact Nat.Prime.not_prime_pow hsize hprime
  exact ⟨hprime, by omega, by omega, hmod⟩

/-- From six bits on there are three large primes of each size. -/
theorem exists_largePrimes {size : ℕ} (hsize : 6 ≤ size) :
    ∃ primes : Finset ℕ, 3 ≤ primes.card ∧ ∀ p ∈ primes, LargePrime size p := by
  by_cases hlarge : 22 ≤ size
  · refine ⟨_, Primes.three_le_card_topPrimes (Nat.pow_le_pow_right (by decide) hlarge),
      fun p hp => largePrime_of_mem_topPrimes (by omega) hp⟩
  · refine ⟨(samplePrimes size).toFinset, ?_, fun p hp =>
      largePrime_of_mem_samplePrimes size p (List.mem_toFinset.mp hp)⟩
    interval_cases size
    all_goals
      decide

/-! ### Two and three primes -/

section Few

variable {count size : ℕ} {chosen chosen' : Finset ℕ}

/-- A product of large primes falls short of the power of two by their fifths only. -/
theorem pow_mul_pow_le (h : ∀ p ∈ chosen, LargePrime size p) :
    4 ^ chosen.card * (2 ^ size) ^ chosen.card ≤ 5 ^ chosen.card * ∏ p ∈ chosen, p := by
  rw [← mul_pow, ← Finset.prod_const, ← Finset.prod_const, ← Finset.prod_mul_distrib]
  exact Finset.prod_le_prod' fun p hp => (h p hp).large

theorem prod_le_pow (h : ∀ p ∈ chosen, LargePrime size p) :
    ∏ p ∈ chosen, p ≤ (2 ^ size) ^ chosen.card := by
  rw [← Finset.prod_const]
  exact Finset.prod_le_prod' fun p hp => (h p hp).lt.le

theorem prod_lt_pow (h : ∀ p ∈ chosen, LargePrime size p) (hne : chosen.Nonempty) :
    ∏ p ∈ chosen, p < (2 ^ size) ^ chosen.card := by
  rw [← Finset.prod_const]
  exact Finset.prod_lt_prod_of_nonempty (fun p hp => (h p hp).prime.pos)
    (fun p hp => (h p hp).lt) hne

/-- Three times four fifths is still more than one half. -/
theorem pow_mul_pow_le_two_mul (h : ∀ p ∈ chosen, LargePrime size p)
    (h' : ∀ p ∈ chosen', LargePrime (size + 1) p) (hthree : chosen.card + chosen'.card ≤ 3) :
    (2 ^ size) ^ chosen.card * (2 ^ (size + 1)) ^ chosen'.card ≤
      2 * ((∏ p ∈ chosen, p) * ∏ p ∈ chosen', p) := by
  have hlow := Nat.mul_le_mul (pow_mul_pow_le h) (pow_mul_pow_le h')
  rw [mul_mul_mul_comm, ← pow_add, mul_mul_mul_comm (5 ^ chosen.card), ← pow_add] at hlow
  have hfifths : 5 ^ (chosen.card + chosen'.card) ≤ 2 * 4 ^ (chosen.card + chosen'.card) := by
    generalize chosen.card + chosen'.card = count at hthree ⊢
    interval_cases count
    all_goals
      decide
  have hpos : 0 < 4 ^ (chosen.card + chosen'.card) := by positivity
  refine Nat.le_of_mul_le_mul_left (hlow.trans ?_) hpos
  calc 5 ^ (chosen.card + chosen'.card) * ((∏ p ∈ chosen, p) * ∏ p ∈ chosen', p)
      ≤ 2 * 4 ^ (chosen.card + chosen'.card) * ((∏ p ∈ chosen, p) * ∏ p ∈ chosen', p) :=
        Nat.mul_le_mul_right _ hfifths
    _ = 4 ^ (chosen.card + chosen'.card) * (2 * ((∏ p ∈ chosen, p) * ∏ p ∈ chosen', p)) := by
        rw [mul_assoc, mul_left_comm]

/-- Two or three large primes of the sizes asked for have a product of the right size. -/
theorem feasible_of_le_three (hcount : 0 < count) (hthree : count ≤ 3) (hsix : 6 ≤ size / count) :
    Feasible count size defaultExponent := by
  have htotal : totalSize count size = size := totalSize_of_lt (by omega)
  have hsize : 0 < size := Nat.pos_of_div_pos (show 0 < size / count by omega)
  have hmod := Nat.mod_lt size hcount
  have hbits : (2 ^ (size / count)) ^ (count - size % count) *
      (2 ^ (size / count + 1)) ^ (size % count) = 2 ^ size := by
    rw [← pow_mul, ← pow_mul, ← pow_add, mul_add_mul_mod size hcount]
  obtain ⟨pool, hpool, hlarge⟩ := exists_largePrimes hsix
  obtain ⟨pool', hpool', hlarge'⟩ := exists_largePrimes (show 6 ≤ size / count + 1 by omega)
  obtain ⟨chosen, hchosen, hcard⟩ :=
    Finset.exists_subset_card_eq (show count - size % count ≤ pool.card by omega)
  obtain ⟨chosen', hchosen', hcard'⟩ :=
    Finset.exists_subset_card_eq (show size % count ≤ pool'.card by omega)
  replace hlarge : ∀ p ∈ chosen, LargePrime (size / count) p := fun p hp => hlarge p (hchosen hp)
  replace hlarge' : ∀ p ∈ chosen', LargePrime (size / count + 1) p :=
    fun p hp => hlarge' p (hchosen' hp)
  have hne : chosen.Nonempty := Finset.card_pos.mp (by omega)
  have hlow := pow_mul_pow_le_two_mul hlarge hlarge' (by omega)
  have hhigh := Nat.mul_lt_mul_of_lt_of_le (prod_lt_pow hlarge hne) (prod_le_pow hlarge')
    (by positivity)
  rw [hcard, hcard', hbits] at hlow hhigh
  rw [← exists_choice_iff hcount, exists_choice_iff_exists_selection hcount hsize, htotal]
  refine ⟨chosen, fun p hp => List.mem_toFinset.mpr (hlarge p hp).mem_usablePrimes, chosen',
    fun p hp => List.mem_toFinset.mpr (hlarge' p hp).mem_usablePrimes, hcard, hcard', ?_, ?_⟩
  · rw [← mul_pow_sub_one hsize.ne' 2] at hlow
    exact Nat.le_of_mul_le_mul_left hlow two_pos
  · rwa [mul_pow_sub_one hsize.ne']

end Few

/-! ### Small moduli -/

section Small

variable {count size : ℕ}

/-- The estimate needs primes of at least two bits. -/
theorem two_le_div_of_enoughPrimes (h : enoughPrimes count size = true) : 2 ≤ size / count := by
  simp only [enoughPrimes, Bool.and_eq_true, decide_eq_true_eq] at h
  by_contra hdiv
  have hle : size / count * logTwo ≤ 1 * logTwo := Nat.mul_le_mul_right _ (by omega)
  exact absurd (h.1.trans_le hle) (by decide)

/-- For small moduli the estimate lets at most seven primes through, of at least six bits. -/
theorem le_div_of_enoughPrimes (hcount : 2 ≤ count) (hsize : size < 64)
    (h : enoughPrimes count size = true) : count < 8 ∧ 6 ≤ size / count := by
  have hall : ∀ size < 64, ∀ count < 32, 2 ≤ count → enoughPrimes count size = true →
      count < 8 ∧ 6 ≤ size / count := by decide +kernel
  have htwo := (Nat.le_div_iff_mul_le (by omega)).mp (two_le_div_of_enoughPrimes h)
  exact hall size hsize count (by omega) hcount h

/-- The sample primes of the sizes asked for are enough, and their product has the right size. -/
def SampleFits (count size : ℕ) : Prop :=
  (picks samplePrimes count (totalSize count size)).length = count ∧
    (picks samplePrimes count (totalSize count size)).Nodup ∧
    bitLength (picks samplePrimes count (totalSize count size)).prod = size

instance (count size : ℕ) : Decidable (SampleFits count size) :=
  inferInstanceAs (Decidable (_ ∧ _ ∧ _))

theorem sampleFits_of_enoughPrimes : ∀ size < 64, ∀ count < 8, 4 ≤ count →
    enoughPrimes count size = true → SampleFits count size := by
  decide +kernel

theorem SampleFits.choice (hcount : 0 < count) (h : SampleFits count size) :
    Choice count size defaultExponent (picks samplePrimes count (totalSize count size)) := by
  obtain ⟨hlength, hnodup, hprod⟩ := h
  obtain ⟨henough, henough'⟩ := (length_picks_eq_iff samplePrimes hcount).mp hlength
  have husable : ∀ (k n p : ℕ), p ∈ (samplePrimes k).take n →
      HighPrime k p ∧ defaultExponent.Coprime (p - 1) := fun k n p hp =>
    mem_usablePrimes_iff.mp
      (largePrime_of_mem_samplePrimes k p (List.mem_of_mem_take hp)).mem_usablePrimes
  refine ⟨?_, hnodup, hprod, ?_⟩
  · refine (forall₂_shares_iff hcount).mpr ⟨_, _, rfl, ⟨?_, fun p hp => (husable _ _ p hp).1⟩,
      ?_, fun p hp => (husable _ _ p hp).1⟩
    · rw [List.length_take, min_eq_left henough]
    · rw [List.length_take, min_eq_left henough']
  · rw [picks, List.forall_mem_append]
    exact ⟨fun p hp => (husable _ _ p hp).2, fun p hp => (husable _ _ p hp).2⟩

/-- For small moduli the estimate lets nothing through that cannot be met. -/
theorem feasible_of_enoughPrimes (hcount : 2 ≤ count) (hsize : size < 64)
    (h : enoughPrimes count size = true) : Feasible count size defaultExponent := by
  obtain ⟨hfew, hsix⟩ := le_div_of_enoughPrimes hcount hsize h
  rcases Nat.lt_or_ge 3 count with hmany | hthree
  · have hfits := sampleFits_of_enoughPrimes size hsize count hfew hmany h
    exact (exists_choice_iff (by omega)).mp ⟨_, hfits.choice (by omega)⟩
  · exact feasible_of_le_three (by omega) hthree hsix

end Small

/-! ### Admitted requests -/

section Admitted

variable {count size : ℕ}

theorem checkRequest_eq_ok_iff :
    checkRequest count size = .ok () ↔
      2 ≤ count ∧ (size < 64 → enoughPrimes count size = true) := by
  rw [checkRequest, ite_error_eq_ok_iff, ite_error_eq_ok_iff, not_lt]
  refine and_congr_right fun _ => ?_
  cases enoughPrimes count size with
  | true => simp
  | false => simp

/-- A choice has a prime of the smaller size, which has at least two bits. -/
theorem Feasible.two_mul_le {exponent : ℕ} (hcount : 0 < count) (h : Feasible count size exponent) :
    2 * count ≤ totalSize count size := by
  obtain ⟨primes, hchoice⟩ := (exists_choice_iff hcount).mpr h
  have hhigh := hchoice.high
  obtain ⟨count, rfl⟩ := Nat.exists_eq_add_of_lt hcount
  rw [Nat.zero_add, shares] at hhigh
  cases hhigh with
  | cons hp _ =>
    have htwo := (Nat.le_div_iff_mul_le (by omega)).mp hp.two_le
    rwa [Nat.zero_add]

/-- **What becomes of a request that passes its check.** No pass asks for a prime of fewer than two
bits exactly if there are two bits for each prime, in a total that a word holds. The loop can exit
with the numbers of a key, within the first pass or within more, exactly if the request is feasible,
and then no prime is too small. For moduli of fewer than 64 bits, and for two and three primes, it
is. -/
theorem pass_can_succeed_iff (hrequest : checkRequest count size = .ok ()) :
    ((∀ (σ : Type) (source : PrimeSource σ) (passes : ℕ) (state : σ), source.Sound →
        search source count size defaultExponent passes state ≠ .error .primeTooSmall) ↔
      2 * count ≤ totalSize count size) ∧
    (size < wordBound → (2 * count ≤ totalSize count size ↔
      2 * count ≤ exactTotal count size ∧ exactTotal count size < wordBound)) ∧
    (∀ passes, 0 < passes →
      ((∃ (σ : Type) (source : PrimeSource σ) (state next : σ) (components : Components),
          source.Sound ∧
          search source count size defaultExponent passes state = .ok (components, next) ∧
          components.IsComplete count size defaultExponent) ↔
        Feasible count size defaultExponent)) ∧
    (Feasible count size defaultExponent → 2 * count ≤ totalSize count size) ∧
    (size < 64 ∨ count ≤ 3 → Feasible count size defaultExponent) := by
  obtain ⟨hcount, henough⟩ := checkRequest_eq_ok_iff.mp hrequest
  have hpos : 0 < count := by omega
  refine ⟨?_, fun hword => ?_, fun passes hpasses => ?_, fun h => h.two_mul_le hpos, ?_⟩
  · constructor
    · intro h
      by_contra htotal
      exact h (List ℕ) .replay 1 [] PrimeSource.replay_sound
        (search_eq_primeTooSmall hpos one_pos (by omega))
    · intro htotal σ source passes state hsource
      exact search_ne_primeTooSmall hsource.exact passes htotal
  · rw [← not_lt, totalSize_lt_iff hword, not_or, not_lt, not_le]
  · rw [← exists_choice_iff hpos, ← exists_search_eq_ok_iff hpos hpasses]
    constructor
    · rintro ⟨σ, source, state, next, components, hsource, h, -⟩
      exact ⟨σ, source, state, next, components, hsource, h⟩
    · rintro ⟨σ, source, state, next, components, hsource, h⟩
      exact ⟨σ, source, state, next, components, hsource, h,
        (isComplete_of_search hcount hsource h).1⟩
  · intro h
    rcases Nat.lt_or_ge size 64 with hsmall | hlarge
    · exact feasible_of_enoughPrimes hcount hsmall (henough hsmall)
    · have hthree : count ≤ 3 := by omega
      refine feasible_of_le_three hpos hthree ((Nat.le_div_iff_mul_le hpos).mpr ?_)
      omega

/-- With two primes and 2048 bits the first pass can succeed. -/
theorem usual_request_can_succeed :
    checkRequest 2 2048 = .ok () ∧
    ∃ (σ : Type) (source : PrimeSource σ) (state next : σ) (components : Components),
      source.Sound ∧
      search source 2 2048 defaultExponent 1 state = .ok (components, next) ∧
      components.IsComplete 2 2048 defaultExponent := by
  have hrequest : checkRequest 2 2048 = .ok () := rfl
  obtain ⟨-, -, hexit, -, hfeasible⟩ := pass_can_succeed_iff hrequest
  exact ⟨hrequest, (hexit 1 one_pos).mpr (hfeasible (.inr (by decide)))⟩

end Admitted

/-- Two requests are admitted that cannot be met. With 36 primes and 64 bits every pass asks for a
prime of one bit. With ten primes five of six bits are needed, and there are only three. -/
theorem admitted_requests_can_fail :
    checkRequest 36 64 = .ok () ∧
    (∀ (σ : Type) (source : PrimeSource σ) (passes : ℕ) (state : σ), 0 < passes →
      search source 36 64 defaultExponent passes state = .error .primeTooSmall) ∧
    checkRequest 10 64 = .ok () ∧
    ∀ (σ : Type) (source : PrimeSource σ) (passes : ℕ) (state next : σ) (components : Components),
      source.Sound →
      search source 10 64 defaultExponent passes state ≠ .ok (components, next) := by
  refine ⟨rfl, ?_, rfl, ?_⟩
  · intro σ source passes state hpasses
    exact search_eq_primeTooSmall (by decide) hpasses (by decide)
  · intro σ source passes state next components hsource h
    obtain ⟨primes, hchoice⟩ := exists_choice_of_search (by decide) hsource h
    have hfeasible := (exists_choice_iff (by decide)).mp ⟨primes, hchoice⟩
    have henough := ((length_picks_eq_iff _ (by decide)).mp hfeasible.enough).1
    rw [show totalSize 10 64 / 10 = 6 by decide] at henough
    have hsix : (usablePrimes defaultExponent 6).length = 3 := by decide +kernel
    exact absurd (henough.trans_eq hsix) (by decide)

end WebKey.Generation
