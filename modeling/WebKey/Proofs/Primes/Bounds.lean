/-
Linear bounds for the primes up to a number.

The factorials of `30 * n` and `n` are compared with those of `15 * n`, `10 * n` and `6 * n`. The
logarithm of their quotient is a sum over prime powers with the coefficients zero and one, the
latter for all prime powers between `5 * n` and `30 * n`. As the factorials are known well enough,
the function `ψ` is bounded from both sides by multiples of its argument that are close together.

* **`log_factorial_eq_sum`** — factorials and prime powers;
* **`factorialRatio`** — the logarithm of the quotient, as a sum in `factorialRatio_eq_sum`;
* **`factorialRatio_le_psi`**, **`psi_le_add_factorialRatio`** — what it says about `ψ`;
* **`le_factorialRatio`**, **`factorialRatio_le`** — its size;
* **`psi_ge_linear`**, **`psi_le_linear`** — the bounds for `ψ`.
-/
import Mathlib

namespace WebKey.Primes

open Chebyshev
open ArithmeticFunction (vonMangoldt)
open scoped Nat ArithmeticFunction.vonMangoldt

/-! ### Factorials and prime powers -/

theorem log_factorial (n : ℕ) : Real.log (n ! : ℕ) = ∑ m ∈ Finset.Ioc 0 n, Real.log m := by
  induction n with
  | zero => simp
  | succ n ih =>
    rw [Nat.factorial_succ, Nat.cast_mul, Real.log_mul (by positivity) (by positivity), ih,
      Finset.sum_Ioc_succ_top n.zero_le, add_comm]

/-- Each prime power up to `n` divides so many of the factors of `n !`. -/
theorem log_factorial_eq_sum {n bound : ℕ} (h : n ≤ bound) :
    Real.log (n ! : ℕ) = ∑ d ∈ Finset.Ioc 0 bound, Λ d * (n / d : ℕ) := by
  have hsum : Real.log (n ! : ℕ) = ∑ d ∈ Finset.Ioc 0 n, Λ d * (n / d : ℕ) := by
    rw [log_factorial, ← ArithmeticFunction.sum_Ioc_mul_zeta_eq_sum,
      ArithmeticFunction.vonMangoldt_mul_zeta]
    rfl
  rw [hsum]
  refine Finset.sum_subset (Finset.Ioc_subset_Ioc_right h) fun d hd hlarge => ?_
  have hlt : n < d := by
    rw [Finset.mem_Ioc] at hd hlarge
    omega
  rw [Nat.div_eq_of_lt hlt, Nat.cast_zero, mul_zero]

/-- The logarithm of the quotient of factorials. -/
noncomputable def factorialRatio (n : ℕ) : ℝ :=
  Real.log ((30 * n)! : ℕ) + Real.log (n ! : ℕ) - Real.log ((15 * n)! : ℕ) -
    Real.log ((10 * n)! : ℕ) - Real.log ((6 * n)! : ℕ)

/-- How often a prime power counts in the quotient, if its quotient with `30 * n` is `m`. -/
def weight (m : ℕ) : ℤ := m + (m / 30 : ℕ) - (m / 2 : ℕ) - (m / 3 : ℕ) - (m / 5 : ℕ)

theorem weight_nonneg (m : ℕ) : 0 ≤ weight m := by
  rw [weight]
  omega

theorem weight_le_one (m : ℕ) : weight m ≤ 1 := by
  rw [weight]
  omega

theorem weight_eq_one {m : ℕ} (hpos : 0 < m) (hlt : m < 6) : weight m = 1 := by
  rw [weight]
  omega

theorem mul_mul_div_div {c : ℕ} (hc : 0 < c) (c' n d : ℕ) :
    c * c' * n / d / c = c' * n / d := by
  rw [Nat.div_div_eq_div_mul, mul_comm d, mul_assoc, Nat.mul_div_mul_left _ _ hc]

theorem factorialRatio_eq_sum (n : ℕ) :
    factorialRatio n = ∑ d ∈ Finset.Ioc 0 (30 * n), Λ d * weight (30 * n / d) := by
  rw [factorialRatio, log_factorial_eq_sum le_rfl,
    log_factorial_eq_sum (show n ≤ 30 * n by omega),
    log_factorial_eq_sum (show 15 * n ≤ 30 * n by omega),
    log_factorial_eq_sum (show 10 * n ≤ 30 * n by omega),
    log_factorial_eq_sum (show 6 * n ≤ 30 * n by omega), ← Finset.sum_add_distrib,
    ← Finset.sum_sub_distrib, ← Finset.sum_sub_distrib, ← Finset.sum_sub_distrib]
  refine Finset.sum_congr rfl fun d _ => ?_
  have hone := mul_mul_div_div (show 0 < 30 by decide) 1 n d
  have htwo := mul_mul_div_div (show 0 < 2 by decide) 15 n d
  have hthree := mul_mul_div_div (show 0 < 3 by decide) 10 n d
  have hfive := mul_mul_div_div (show 0 < 5 by decide) 6 n d
  rw [one_mul] at hone
  rw [weight, hone, htwo, hthree, hfive]
  simp only [Int.cast_sub, Int.cast_add, Int.cast_natCast]
  ring

/-- The sum counts no prime power more than once. -/
theorem factorialRatio_le_psi (n : ℕ) : factorialRatio n ≤ ψ (30 * n : ℕ) := by
  rw [factorialRatio_eq_sum, psi, Nat.floor_natCast]
  refine Finset.sum_le_sum fun d _ => ?_
  exact mul_le_of_le_one_right ArithmeticFunction.vonMangoldt_nonneg
    (by exact_mod_cast weight_le_one _)

/-- The sum counts all prime powers between `5 * n` and `30 * n`. -/
theorem psi_le_add_factorialRatio (n : ℕ) :
    ψ (30 * n : ℕ) ≤ ψ (5 * n : ℕ) + factorialRatio n := by
  have hlarge : ∑ d ∈ Finset.Ioc (5 * n) (30 * n), Λ d ≤ factorialRatio n := by
    rw [factorialRatio_eq_sum]
    calc ∑ d ∈ Finset.Ioc (5 * n) (30 * n), Λ d
        = ∑ d ∈ Finset.Ioc (5 * n) (30 * n), Λ d * weight (30 * n / d) := by
          refine Finset.sum_congr rfl fun d hd => ?_
          rw [Finset.mem_Ioc] at hd
          have hpos : 0 < 30 * n / d := Nat.div_pos hd.2 (by omega)
          have hlt : 30 * n / d < 6 := Nat.div_lt_of_lt_mul (by omega)
          rw [weight_eq_one hpos hlt, Int.cast_one, mul_one]
      _ ≤ ∑ d ∈ Finset.Ioc 0 (30 * n), Λ d * weight (30 * n / d) := by
          refine Finset.sum_le_sum_of_subset_of_nonneg
            (Finset.Ioc_subset_Ioc_left (5 * n).zero_le) fun d _ _ => ?_
          exact mul_nonneg ArithmeticFunction.vonMangoldt_nonneg
            (by exact_mod_cast weight_nonneg _)
  rw [psi, psi, Nat.floor_natCast, Nat.floor_natCast,
    ← Finset.sum_Ioc_consecutive _ (5 * n).zero_le (show 5 * n ≤ 30 * n by omega)]
  linarith

/-! ### The size of the quotient -/

theorem le_log_factorial {n : ℕ} (hn : 0 < n) : n * Real.log n - n ≤ Real.log (n ! : ℕ) := by
  have hle := Stirling.le_log_factorial_stirling hn.ne'
  have hlog : 0 ≤ Real.log n := Real.log_natCast_nonneg n
  have hpi : 0 ≤ Real.log (2 * Real.pi) := Real.log_nonneg (by linarith [Real.pi_gt_three])
  linarith

theorem log_factorial_le {n : ℕ} (hn : 0 < n) :
    Real.log (n ! : ℕ) ≤ n * Real.log n - n + Real.log n + 1 := by
  induction n, hn using Nat.le_induction with
  | base => simp
  | succ n hn ih =>
    have hpos : (0 : ℝ) < n := by exact_mod_cast hn
    -- the logarithm grows by at least the inverse of its argument
    have hstep : 1 ≤ (n + 1) * (Real.log (n + 1) - Real.log n) := by
      have hle := Real.one_sub_inv_le_log_of_pos (show (0 : ℝ) < (n + 1) / n by positivity)
      rw [Real.log_div (by positivity) hpos.ne', inv_div] at hle
      calc (1 : ℝ) = (n + 1) * (1 - n / (n + 1)) := by field_simp; ring
        _ ≤ _ := mul_le_mul_of_nonneg_left hle (by positivity)
    rw [Nat.factorial_succ, Nat.cast_mul, Real.log_mul (by positivity) (by positivity)]
    push_cast
    linarith

/-- The logarithm of `2 ^ 14 * 3 ^ 9 * 5 ^ 5`, by which the quotient grows. -/
noncomputable def growth : ℝ := 14 * Real.log 2 + 9 * Real.log 3 + 5 * Real.log 5

theorem growth_eq : growth = 14 * Real.log 2 + Real.log (3 ^ 9 * 5 ^ 5) := by
  rw [growth, Real.log_mul (by positivity) (by positivity), Real.log_pow, Real.log_pow]
  push_cast
  ring

theorem growth_gt : 27.62 < growth := by
  have hpow : Real.log (2 ^ 181) ≤ Real.log ((3 ^ 9 * 5 ^ 5) ^ 7) :=
    Real.log_le_log (by positivity) (by norm_num)
  rw [Real.log_pow, Real.log_pow] at hpow
  have htwo := Real.log_two_gt_d9
  rw [growth_eq]
  push_cast at hpow
  generalize Real.log (3 ^ 9 * 5 ^ 5) = odd at hpow ⊢
  linarith

theorem growth_lt : growth < 27.64 := by
  have hpow : Real.log ((3 ^ 9 * 5 ^ 5) ^ 8) ≤ Real.log (2 ^ 207) :=
    Real.log_le_log (by positivity) (by norm_num)
  rw [Real.log_pow, Real.log_pow] at hpow
  have htwo := Real.log_two_lt_d9
  rw [growth_eq]
  push_cast at hpow
  generalize Real.log (3 ^ 9 * 5 ^ 5) = odd at hpow ⊢
  linarith

/-- The logarithms of the five factors. -/
theorem log_factors :
    Real.log (30 : ℕ) = Real.log 2 + Real.log 3 + Real.log 5 ∧
      Real.log (15 : ℕ) = Real.log 3 + Real.log 5 ∧
      Real.log (10 : ℕ) = Real.log 2 + Real.log 5 ∧
      Real.log (6 : ℕ) = Real.log 2 + Real.log 3 := by
  refine ⟨?_, ?_, ?_, ?_⟩
  · rw [← Real.log_mul (by norm_num) (by norm_num), ← Real.log_mul (by norm_num) (by norm_num)]
    norm_num
  all_goals
    rw [← Real.log_mul (by norm_num) (by norm_num)]
    norm_num

section Bounds

variable {n : ℕ}

theorem log_natCast_mul (hn : 0 < n) {c : ℕ} (hc : 0 < c) :
    Real.log (c * n : ℕ) = Real.log c + Real.log n := by
  rw [Nat.cast_mul, Real.log_mul (by positivity) (by positivity)]

/-- The factorials are known up to a logarithm, and the larger terms of the five cancel. -/
theorem factorialRatio_le (hn : 0 < n) :
    factorialRatio n ≤ n * growth + Real.log (30 * n : ℕ) + Real.log n + 2 := by
  have h30 := log_factorial_le (show 0 < 30 * n by omega)
  have h1 := log_factorial_le hn
  have h15 := le_log_factorial (show 0 < 15 * n by omega)
  have h10 := le_log_factorial (show 0 < 10 * n by omega)
  have h6 := le_log_factorial (show 0 < 6 * n by omega)
  obtain ⟨hl30, hl15, hl10, hl6⟩ := log_factors
  rw [log_natCast_mul hn (by decide), hl30] at h30 ⊢
  rw [log_natCast_mul hn (by decide), hl15] at h15
  rw [log_natCast_mul hn (by decide), hl10] at h10
  rw [log_natCast_mul hn (by decide), hl6] at h6
  rw [factorialRatio, growth]
  push_cast at h30 h15 h10 h6
  linarith

theorem le_factorialRatio (hn : 0 < n) :
    n * growth - Real.log (15 * n : ℕ) - Real.log (10 * n : ℕ) - Real.log (6 * n : ℕ) - 3 ≤
      factorialRatio n := by
  have h30 := le_log_factorial (show 0 < 30 * n by omega)
  have h1 := le_log_factorial hn
  have h15 := log_factorial_le (show 0 < 15 * n by omega)
  have h10 := log_factorial_le (show 0 < 10 * n by omega)
  have h6 := log_factorial_le (show 0 < 6 * n by omega)
  obtain ⟨hl30, hl15, hl10, hl6⟩ := log_factors
  rw [log_natCast_mul hn (by decide), hl30] at h30
  rw [log_natCast_mul hn (by decide), hl15] at h15 ⊢
  rw [log_natCast_mul hn (by decide), hl10] at h10 ⊢
  rw [log_natCast_mul hn (by decide), hl6] at h6 ⊢
  rw [factorialRatio, growth]
  push_cast at h30 h15 h10 h6
  linarith

end Bounds

/-! ### Linear bounds -/

/-- The logarithm lies below its tangent at a power of two. -/
theorem log_le_of_two_pow {x : ℝ} (hx : 0 < x) (k : ℕ) :
    Real.log x ≤ x / 2 ^ k + k * Real.log 2 - 1 := by
  have hle := Real.log_le_sub_one_of_pos (show 0 < x / 2 ^ k by positivity)
  rw [Real.log_div hx.ne' (by positivity), Real.log_pow] at hle
  linarith

theorem psi_le_of_lt {m : ℕ} (h : m < 4400) : ψ m ≤ 24000 := by
  have hlt : (m : ℝ) < 4400 := by exact_mod_cast h
  have htwo := Real.log_two_lt_d9
  have hfour : Real.log 4 = 2 * Real.log 2 := by
    rw [show (4 : ℝ) = 2 ^ 2 by norm_num, Real.log_pow, Nat.cast_ofNat]
  have hnonneg : (0 : ℝ) ≤ m := m.cast_nonneg
  have hle := psi_le_const_mul_self hnonneg
  rw [hfour] at hle
  nlinarith

/-- The quotient covers `ψ` from a sixth of a number on, so `ψ` grows by at most six fifths of a
thirtieth of `growth`. The constants leave some room. -/
theorem psi_le_linear (m : ℕ) : ψ m ≤ 1.12 * m + 24000 := by
  induction m using Nat.strongRecOn with
  | ind m ih =>
    have hnonneg : (0 : ℝ) ≤ m := m.cast_nonneg
    by_cases hsmall : m < 4400
    · have hle := psi_le_of_lt hsmall
      linarith
    · have htwo := Real.log_two_lt_d9
      -- the bound for a sixth of `m` and the growth of the quotient
      obtain ⟨n, hn, hm, hlow⟩ : ∃ n, 0 < n ∧ m ≤ 30 * n ∧ 30 * n ≤ m + 30 :=
        ⟨m / 30 + 1, by omega, by omega, by omega⟩
      have hsixth := ih (5 * n) (by omega)
      have hstep := psi_le_add_factorialRatio n
      have hmono : ψ m ≤ ψ (30 * n : ℕ) := psi_mono (by exact_mod_cast hm)
      have hratio := factorialRatio_le hn
      have hlog := log_le_of_two_pow (show (0 : ℝ) < (30 * n : ℕ) by positivity) 15
      have hlog' := log_le_of_two_pow (show (0 : ℝ) < n by positivity) 10
      have hgrowth := mul_le_mul_of_nonneg_left growth_lt.le (show (0 : ℝ) ≤ n by positivity)
      have hlow' : (30 * n : ℝ) ≤ m + 30 := by exact_mod_cast hlow
      have hlarge : (4400 : ℝ) ≤ m := by exact_mod_cast not_lt.mp hsmall
      push_cast at *
      linarith

/-- For the lower bound the quotient is enough by itself. -/
theorem psi_ge_linear (m : ℕ) : 0.92 * m - 3 * Real.log m - 32 ≤ ψ m := by
  obtain ⟨n, hn, hlow⟩ : ∃ n, 30 * n ≤ m ∧ m ≤ 30 * n + 29 := ⟨m / 30, by omega, by omega⟩
  have hlow' : (m : ℝ) ≤ 30 * n + 29 := by exact_mod_cast hlow
  have hlogm : 0 ≤ Real.log m := Real.log_natCast_nonneg m
  rcases n.eq_zero_or_pos with rfl | hpos
  · have hnonneg := psi_nonneg m
    push_cast at hlow'
    linarith
  · have hmono : ψ (30 * n : ℕ) ≤ ψ m := psi_mono (by exact_mod_cast hn)
    have hratio := (le_factorialRatio hpos).trans (factorialRatio_le_psi n)
    have hlog : ∀ c ≤ 30, 0 < c → Real.log (c * n : ℕ) ≤ Real.log m := by
      intro c hc hcpos
      refine Real.log_le_log (by positivity) ?_
      exact_mod_cast (Nat.mul_le_mul_right n hc).trans hn
    have h15 := hlog 15 (by decide) (by decide)
    have h10 := hlog 10 (by decide) (by decide)
    have h6 := hlog 6 (by decide) (by decide)
    have hgrowth := mul_le_mul_of_nonneg_left growth_gt.le (show (0 : ℝ) ≤ n by positivity)
    linarith

end WebKey.Primes
