/-
Primes that are one modulo a prime.

The product of the numbers `q * j + 1`, with `j` from one to `n`, is divisible by `n !` as far as
that is coprime to `q`. The primes among these numbers that are larger than `n` divide what is left,
which is at most the power `n` of a constant. So there are few of them.

* **`dvd_progression`** — the factors of `n !` in the product;
* **`prod_progressionPrimes_le`** — the primes up to `q * n + 1` that are one modulo `q`.
-/
import Mathlib

namespace WebKey.Primes

open scoped Nat

/-- The product of the numbers `q * j + 1` with `j` from one to `n`. -/
def progression (q n : ℕ) : ℕ := ∏ i ∈ Finset.range n, (q * (i + 1) + 1)

section Progression

variable {q n : ℕ}

/-- Modulo a number coprime to `q`, the product becomes one of successive numbers. -/
theorem dvd_progression {m : ℕ} (hcoprime : q.Coprime m) (hm : m ∣ n !) : m ∣ progression q n := by
  have hpos : 0 < m := Nat.pos_of_dvd_of_pos hm n.factorial_pos
  obtain ⟨u, hu⟩ : ∃ u, q * u ≡ 1 [MOD m] := by
    refine ⟨q ^ (φ m - 1), ?_⟩
    rw [← pow_succ', Nat.sub_add_cancel (Nat.totient_pos.mpr hpos)]
    exact Nat.ModEq.pow_totient hcoprime
  have hterm : ∀ i, u * (q * (i + 1) + 1) ≡ u + 1 + i [MOD m] := by
    intro i
    calc u * (q * (i + 1) + 1) = q * u * (i + 1) + u := by ring
      _ ≡ 1 * (i + 1) + u [MOD m] := (hu.mul_right _).add_right _
      _ = u + 1 + i := by ring
  have hsuccessive : u ^ n * progression q n ≡ (u + 1).ascFactorial n [MOD m] := by
    have hpow : u ^ n * progression q n = ∏ i ∈ Finset.range n, u * (q * (i + 1) + 1) := by
      rw [progression, Finset.prod_mul_distrib, Finset.prod_const, Finset.card_range]
    rw [hpow, Nat.ascFactorial_eq_prod_range]
    exact Nat.ModEq.prod fun i _ => hterm i
  have hdvd : m ∣ u ^ n * progression q n :=
    (hsuccessive.dvd_iff dvd_rfl).mpr (hm.trans (Nat.factorial_dvd_ascFactorial (u + 1) n))
  have hu' : m.Coprime u := by
    refine Nat.Coprime.symm (Nat.coprime_of_mul_modEq_one q ?_)
    rwa [mul_comm]
  exact (hu'.pow_right n).dvd_of_dvd_mul_left hdvd

theorem progression_le (q n : ℕ) : progression q n ≤ (q + 1) ^ n * n ! := by
  rw [← Finset.prod_range_add_one_eq_factorial, progression, ← Finset.card_range n,
    ← Finset.prod_const, Finset.card_range, ← Finset.prod_mul_distrib]
  refine Finset.prod_le_prod' fun i _ => ?_
  rw [Nat.succ_mul]
  omega

theorem factorization_factorial_le (hq : q.Prime) : (n !).factorization q ≤ n := by
  have : Fact q.Prime := ⟨hq⟩
  have hval := sub_one_mul_padicValNat_factorial (p := q) n
  rw [Nat.factorization_def _ hq]
  have hle : padicValNat q n ! ≤ (q - 1) * padicValNat q n ! :=
    Nat.le_mul_of_pos_left _ (by have := hq.two_le; omega)
  omega

/-- The primes between `n` and `q * n + 1` that are one modulo `q`. -/
def largePrimes (q n : ℕ) : Finset ℕ :=
  (Finset.Ioc n (q * n + 1)).filter fun p => p.Prime ∧ p % q = 1

theorem dvd_progression_of_mem {p : ℕ} (hq : 0 < q) (hp : p ∈ largePrimes q n) :
    p ∣ progression q n := by
  obtain ⟨hrange, hprime, hone⟩ := Finset.mem_filter.mp hp
  obtain ⟨hlow, hhigh⟩ := Finset.mem_Ioc.mp hrange
  have hdiv := Nat.div_add_mod p q
  rw [hone] at hdiv
  have hpos : 0 < p / q := by
    refine Nat.pos_of_ne_zero fun h => hprime.one_lt.ne' ?_
    rw [h] at hdiv
    omega
  have hle : p / q ≤ n := Nat.le_of_mul_le_mul_left (by omega) hq
  have hmem : p / q - 1 ∈ Finset.range n := Finset.mem_range.mpr (by omega)
  have hdvd := Finset.dvd_prod_of_mem (fun i => q * (i + 1) + 1) hmem
  simp only [Nat.sub_add_cancel hpos, hdiv] at hdvd
  exact hdvd

theorem prod_largePrimes_le (hq : q.Prime) : ∏ p ∈ largePrimes q n, p ≤ ((q + 1) ^ 2) ^ n := by
  have hfactor := Nat.ordProj_mul_ordCompl_eq_self n ! q
  have hpos : 0 < ordCompl[q] n ! := Nat.ordCompl_pos q n.factorial_ne_zero
  have hfirst : ordCompl[q] n ! ∣ progression q n :=
    dvd_progression (Nat.coprime_ordCompl hq n.factorial_ne_zero) (Nat.ordCompl_dvd _ _)
  have hsecond : ∏ p ∈ largePrimes q n, p ∣ progression q n :=
    Finset.prod_primes_dvd _ (fun p hp => (Finset.mem_filter.mp hp).2.1.prime)
      fun p hp => dvd_progression_of_mem hq.pos hp
  have hcoprime : (ordCompl[q] n !).Coprime (∏ p ∈ largePrimes q n, p) := by
    refine Nat.Coprime.prod_right fun p hp => ?_
    obtain ⟨hrange, hprime, -⟩ := Finset.mem_filter.mp hp
    have hlarge : n < p := (Finset.mem_Ioc.mp hrange).1
    exact Nat.Coprime.coprime_dvd_left (Nat.ordCompl_dvd _ _)
      (hprime.coprime_factorial_of_lt hlarge).symm
  have hmul : ordCompl[q] n ! * ∏ p ∈ largePrimes q n, p ≤
      ordCompl[q] n ! * ((q + 1) ^ 2) ^ n := by
    calc ordCompl[q] n ! * ∏ p ∈ largePrimes q n, p
        ≤ progression q n := Nat.le_of_dvd (Finset.prod_pos fun i _ => Nat.succ_pos _)
          (hcoprime.mul_dvd_of_dvd_of_dvd hfirst hsecond)
      _ ≤ (q + 1) ^ n * n ! := progression_le q n
      _ = ordCompl[q] n ! * ((q + 1) ^ n * ordProj[q] n !) := by
          conv_lhs => rw [← hfactor]
          ring
      _ ≤ ordCompl[q] n ! * ((q + 1) ^ n * (q + 1) ^ n) := by
          refine Nat.mul_le_mul_left _ (Nat.mul_le_mul_left _ ?_)
          exact (Nat.pow_le_pow_left q.le_succ _).trans
            (Nat.pow_le_pow_right q.succ_pos (factorization_factorial_le hq))
      _ = ordCompl[q] n ! * ((q + 1) ^ 2) ^ n := by rw [← mul_pow, ← sq]
  exact Nat.le_of_mul_le_mul_left hmul hpos

/-- The primes up to a bound that are one modulo `q`. -/
def progressionPrimes (q bound : ℕ) : Finset ℕ :=
  (Finset.Ioc 0 bound).filter fun p => p.Prime ∧ p % q = 1

theorem prod_progressionPrimes_le {bound : ℕ} (hq : q.Prime) (hbound : bound ≤ q * n + 1) :
    ∏ p ∈ progressionPrimes q bound, p ≤ (4 * (q + 1) ^ 2) ^ n := by
  rw [← Finset.prod_filter_mul_prod_filter_not _ (· ≤ n), mul_pow]
  refine Nat.mul_le_mul ?_ ?_
  · refine le_trans ?_ (primorial_le_four_pow n)
    refine Finset.prod_le_prod_of_subset_of_one_le' (fun p hp => ?_) fun p hp _ => ?_
    · simp only [progressionPrimes, Finset.mem_filter, Finset.mem_Ioc] at hp
      exact Finset.mem_filter.mpr ⟨Finset.mem_range.mpr (by omega), hp.1.2.1⟩
    · exact (Finset.mem_filter.mp hp).2.one_le
  · refine le_trans ?_ (prod_largePrimes_le hq)
    refine Finset.prod_le_prod_of_subset_of_one_le' (fun p hp => ?_) fun p hp _ => ?_
    · simp only [progressionPrimes, Finset.mem_filter, Finset.mem_Ioc] at hp
      exact Finset.mem_filter.mpr ⟨Finset.mem_Ioc.mpr (by omega), hp.1.2⟩
    · exact (Finset.mem_filter.mp hp).2.1.one_le

end Progression

end WebKey.Primes
