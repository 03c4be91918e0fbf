/-
Euclid's algorithm computes inverses.

`IsInverse a m x` says that `x` is the inverse of `a` modulo `m`, in reduced form. There
is at most one (`IsInverse.unique`), and only if `a` and `m` are coprime
(`IsInverse.coprime`).

* **`euclid_fst`**, **`euclid_snd`** — the two results of Euclid's algorithm: the greatest
  common divisor, and a coefficient that gives it modulo `m`;
* **`inverse?_eq_some_iff`** — `inverse?` finds the inverse and nothing else;
* **`IsInverse.exists_of_coprime`** — coprimality is enough for an inverse.
-/
import Mathlib
import WebKey.Rsa.Inverse

namespace WebKey

/-- `x` is the inverse of `a` modulo `m`, in reduced form. -/
@[mk_iff]
structure IsInverse (a m x : ℕ) : Prop where
  one_le : 1 ≤ x
  lt : x < m
  mul_modEq_one : a * x ≡ 1 [MOD m]

instance (a m x : ℕ) : Decidable (IsInverse a m x) := decidable_of_iff' _ (isInverse_iff a m x)

namespace IsInverse

variable {a m x y : ℕ}

theorem coprime (h : IsInverse a m x) : a.Coprime m :=
  Nat.coprime_of_mul_modEq_one x h.mul_modEq_one

theorem unique (hx : IsInverse a m x) (hy : IsInverse a m y) : x = y := by
  have hmod : a * x ≡ a * y [MOD m] := hx.mul_modEq_one.trans hy.mul_modEq_one.symm
  have hxy : x ≡ y [MOD m] := Nat.ModEq.cancel_left_of_coprime hx.coprime.symm hmod
  exact hxy.eq_of_lt_of_lt hx.lt hy.lt

end IsInverse

/-! ### Euclid's algorithm -/

theorem euclid_fst (r r' : ℕ) (s s' : ℤ) : (euclid r r' s s').1 = r.gcd r' := by
  fun_induction euclid r r' s s' with
  | case1 r s s' => simp
  | case2 r r' s s' hr' ih => rw [ih, Nat.gcd_comm, ← Nat.gcd_rec, Nat.gcd_comm]

/-- Each remainder is its coefficient times `a`, modulo `m`; a step of the algorithm keeps
this for both of them, so it holds of the divisor at the end. -/
theorem euclid_snd {a m : ℤ} (r r' : ℕ) (s s' : ℤ) (hs : a * s ≡ r [ZMOD m])
    (hs' : a * s' ≡ r' [ZMOD m]) :
    a * (euclid r r' s s').2 ≡ (euclid r r' s s').1 [ZMOD m] := by
  fun_induction euclid r r' s s' with
  | case1 r s s' => exact hs
  | case2 r r' s s' hr' ih =>
    refine ih hs' ?_
    have hmod : ((r % r' : ℕ) : ℤ) = r - (r / r' : ℕ) * r' := by
      push_cast
      linarith [Int.emod_add_mul_ediv (r : ℤ) r', mul_comm (r' : ℤ) ((r : ℤ) / r')]
    calc a * (s - (r / r' : ℕ) * s')
        = a * s - (r / r' : ℕ) * (a * s') := by ring
      _ ≡ r - (r / r' : ℕ) * r' [ZMOD m] := hs.sub (hs'.mul_left _)
      _ = ((r % r' : ℕ) : ℤ) := hmod.symm

/-! ### Inverses -/

theorem isInverse_of_inverse? {a m x : ℕ} (hm : 1 < m) (h : inverse? a m = some x) :
    IsInverse a m x := by
  have hcoeff := euclid_snd (a := a) (m := m) a m 1 0 (by rw [mul_one])
    ((Int.modEq_zero_iff_dvd.mpr (by simp)).trans (Int.modEq_zero_iff_dvd.mpr dvd_rfl).symm)
  rcases hE : euclid a m 1 0 with ⟨divisor, coefficient⟩
  rw [hE] at hcoeff
  simp only [inverse?, hE] at h
  split at h
  · rename_i hone
    subst hone
    rw [Option.some_inj] at h
    have hx : (x : ℤ) = coefficient % m := by
      rw [← h, Int.toNat_of_nonneg (Int.emod_nonneg _ (by omega))]
    have hmul : a * x ≡ 1 [MOD m] := by
      rw [← Int.natCast_modEq_iff]
      push_cast
      rw [hx]
      exact ((Int.mod_modEq coefficient m).mul_left a).trans hcoeff
    refine ⟨?_, ?_, hmul⟩
    · -- modulo more than one, zero is no inverse
      rcases Nat.eq_zero_or_pos x with rfl | hpos
      · rw [mul_zero, Nat.ModEq, Nat.zero_mod, Nat.mod_eq_of_lt hm] at hmul
        exact absurd hmul (by omega)
      · exact hpos
    · have hlt := Int.emod_lt_of_pos coefficient (show (0 : ℤ) < m by omega)
      omega
  · exact absurd h (by simp)

theorem inverse?_of_coprime {a m : ℕ} (h : a.Coprime m) : ∃ x, inverse? a m = some x := by
  have hone : (euclid a m 1 0).1 = 1 := (euclid_fst a m 1 0).trans h
  exact ⟨_, if_pos hone⟩

/-- The inverse is found when there is one, and nothing else is. -/
theorem inverse?_eq_some_iff {a m x : ℕ} (hm : 1 < m) :
    inverse? a m = some x ↔ IsInverse a m x := by
  constructor
  · exact isInverse_of_inverse? hm
  · intro hx
    obtain ⟨y, hy⟩ := inverse?_of_coprime hx.coprime
    rw [hy, (isInverse_of_inverse? hm hy).unique hx]

/-- Modulo more than one, coprime numbers have an inverse. -/
theorem IsInverse.exists_of_coprime {a m : ℕ} (hm : 1 < m) (h : a.Coprime m) :
    ∃ x, IsInverse a m x := by
  obtain ⟨x, hx⟩ := inverse?_of_coprime h
  exact ⟨x, isInverse_of_inverse? hm hx⟩

end WebKey
