/-
The largest primes of a size.

Among the numbers up to at least `2 ^ 22`, the largest fifth holds three primes that are not one
modulo the public exponent. The linear bounds are close enough for that: the primes of the fifth
make up more than the primes that are one modulo the exponent can, and two primes beside them.

* **`topPrimes`** — the primes in the largest fifth, but those that are one modulo a number;
* **`theta_sub_theta_le`** and **`le_theta_sub_theta`** — what they make up;
* **`three_le_card_topPrimes`** — there are at least three.
-/
import WebKey.Proofs.Primes.Bounds
import WebKey.Proofs.Primes.Progression

namespace WebKey.Primes

open Chebyshev

/-- The primes in the largest fifth of the numbers up to `m` that are not one modulo `q`. -/
def topPrimes (q m : ℕ) : Finset ℕ :=
  (Finset.Ioc (4 * m / 5) m).filter fun p => p.Prime ∧ p % q ≠ 1

/-! ### What primes make up -/

theorem theta_sub_theta {a b : ℕ} (h : a ≤ b) :
    θ b - θ a = ∑ p ∈ (Finset.Ioc a b).filter Nat.Prime, Real.log p := by
  rw [theta, theta, Nat.floor_natCast, Nat.floor_natCast, Finset.sum_filter, Finset.sum_filter,
    Finset.sum_filter, ← Finset.sum_Ioc_consecutive _ a.zero_le h, add_sub_cancel_left]

/-- The primes that are one modulo `q` contribute little. -/
theorem sum_log_progressionPrimes_le {q n bound : ℕ} (hq : q.Prime) (hbound : bound ≤ q * n + 1) :
    ∑ p ∈ progressionPrimes q bound, Real.log p ≤ n * Real.log (4 * (q + 1) ^ 2 : ℕ) := by
  have hpos : ∀ p ∈ progressionPrimes q bound, (p : ℝ) ≠ 0 := fun p hp =>
    Nat.cast_ne_zero.mpr (Finset.mem_filter.mp hp).2.1.ne_zero
  rw [← Real.log_prod hpos, ← Real.log_pow]
  refine Real.log_le_log (Finset.prod_pos fun p hp => ?_) ?_
  · exact Nat.cast_pos.mpr (Finset.mem_filter.mp hp).2.1.pos
  · rw [← Nat.cast_prod, ← Nat.cast_pow]
    exact Nat.cast_le.mpr (prod_progressionPrimes_le hq hbound)

theorem theta_sub_theta_le {q m n : ℕ} (hq : q.Prime) (hn : m ≤ q * n + 1) :
    θ m - θ (4 * m / 5 : ℕ) ≤
      (topPrimes q m).card * Real.log m + n * Real.log (4 * (q + 1) ^ 2 : ℕ) := by
  rw [theta_sub_theta (by omega), ← Finset.sum_filter_add_sum_filter_not _ (· % q ≠ 1)]
  refine add_le_add ?_ (le_trans ?_ (sum_log_progressionPrimes_le hq hn))
  · rw [Finset.filter_filter, ← nsmul_eq_mul]
    refine Finset.sum_le_card_nsmul _ _ _ fun p hp => ?_
    obtain ⟨hrange, hprime, -⟩ := Finset.mem_filter.mp hp
    refine Real.log_le_log (by exact_mod_cast hprime.pos) ?_
    exact_mod_cast (Finset.mem_Ioc.mp hrange).2
  · refine Finset.sum_le_sum_of_subset_of_nonneg (fun p hp => ?_) fun p _ _ => ?_
    · simp only [Finset.mem_filter, Finset.mem_Ioc, not_not] at hp
      exact Finset.mem_filter.mpr ⟨Finset.mem_Ioc.mpr (by omega), hp.1.2, hp.2⟩
    · exact Real.log_natCast_nonneg p

/-! ### Large numbers -/

section Large

variable {y : ℝ}

theorem le_sqrt_of_large (hy : 2 ^ 22 ≤ y) : 2 ^ 11 ≤ √y :=
  Real.le_sqrt_of_sq_le (by rwa [← pow_mul])

/-- The logarithm of a large number is small against its square root. -/
theorem log_le_mul_sqrt (hy : 2 ^ 22 ≤ y) : Real.log y ≤ 0.00746 * √y := by
  have hroot := le_sqrt_of_large hy
  have hlog := log_le_of_two_pow (show 0 < √y by linarith) 11
  rw [Real.log_sqrt (by linarith)] at hlog
  have htwo := Real.log_two_lt_d9
  push_cast at hlog
  linarith

theorem sqrt_mul_log_le (hy : 2 ^ 22 ≤ y) : √y * Real.log y ≤ 0.00746 * y := by
  calc √y * Real.log y ≤ √y * (0.00746 * √y) :=
        mul_le_mul_of_nonneg_left (log_le_mul_sqrt hy) (Real.sqrt_nonneg y)
    _ = 0.00746 * (√y * √y) := by ring
    _ = 0.00746 * y := by rw [Real.mul_self_sqrt (by linarith)]

theorem log_le_mul (hy : 2 ^ 22 ≤ y) : Real.log y ≤ 0.000004 * y := by
  have hlog := log_le_mul_sqrt hy
  have hroot : 2 ^ 11 * √y ≤ √y * √y :=
    mul_le_mul_of_nonneg_right (le_sqrt_of_large hy) (Real.sqrt_nonneg y)
  rw [Real.mul_self_sqrt (by linarith)] at hroot
  linarith

end Large

/-! ### The largest fifth -/

section TopPrimes

variable {m : ℕ}

/-- The linear bounds leave room between four fifths of a number and the number. -/
theorem le_theta_sub_theta (hm : 2 ^ 22 ≤ m) :
    0.0089 * m - 24100 ≤ θ m - θ (4 * m / 5 : ℕ) := by
  have hm' : (2 : ℝ) ^ 22 ≤ m := by exact_mod_cast hm
  have hlow := psi_ge_linear m
  have htheta := psi_sub_theta_le (show (1 : ℝ) ≤ m by linarith)
  have hhigh := (theta_le_psi (4 * m / 5 : ℕ)).trans (psi_le_linear (4 * m / 5))
  have hfifth : 5 * ((4 * m / 5 : ℕ) : ℝ) ≤ 4 * m := by exact_mod_cast Nat.mul_div_le (4 * m) 5
  have hproduct := sqrt_mul_log_le hm'
  have hlog := log_le_mul hm'
  linarith

/-- **The largest fifth of the numbers up to at least `2 ^ 22` holds three primes that are not one
modulo the public exponent.** -/
theorem three_le_card_topPrimes (hm : 2 ^ 22 ≤ m) : 3 ≤ (topPrimes 65537 m).card := by
  by_contra hfew
  have hm' : (2 : ℝ) ^ 22 ≤ m := by exact_mod_cast hm
  have hprime : Nat.Prime 65537 := by norm_num
  obtain ⟨n, hn, hlow⟩ : ∃ n, m ≤ 65537 * n + 1 ∧ 65537 * n ≤ m + 65537 :=
    ⟨m / 65537 + 1, by omega, by omega⟩
  have hlow' : 65537 * (n : ℝ) ≤ m + 65537 := by exact_mod_cast hlow
  have hlower := le_theta_sub_theta hm
  have hupper := theta_sub_theta_le hprime hn
  have hlog := log_le_mul hm'
  have hfew' : ((topPrimes 65537 m).card : ℝ) * Real.log m ≤ 2 * Real.log m := by
    refine mul_le_mul_of_nonneg_right ?_ (Real.log_natCast_nonneg m)
    exact_mod_cast (by omega : (topPrimes 65537 m).card ≤ 2)
  have hconstant : (n : ℝ) * Real.log (4 * (65537 + 1) ^ 2 : ℕ) ≤ n * 24.3 := by
    refine mul_le_mul_of_nonneg_left ?_ n.cast_nonneg
    have hpow : Real.log (4 * (65537 + 1) ^ 2 : ℕ) ≤ Real.log (2 ^ 35) :=
      Real.log_le_log (by positivity) (by norm_num)
    rw [Real.log_pow] at hpow
    have htwo := Real.log_two_lt_d9
    push_cast at hpow ⊢
    linarith
  linarith

end TopPrimes

end WebKey.Primes
