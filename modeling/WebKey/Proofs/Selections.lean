/-
Products of selections.

From an ascending list so many numbers are selected. The first ones have the smallest product and
the last ones the largest. One selection becomes another one number at a time, and if that never
doubles the product, every window whose ends differ by the factor two is hit on the way.

* **`Selections.prod_take_le`**, **`Selections.prod_le_prod_reverse_take`** — the smallest product
  and the largest;
* **`Selections.exists_prod_between`** — a product in a window, with numbers from two lists.
-/
import Mathlib

namespace WebKey.Selections

/-! ### The smallest product and the largest -/

/-- What is selected is at least what comes first, one by one. -/
theorem forall₂_take_of_sublist {r : ℕ → ℕ → Prop} (hrefl : ∀ x, r x x) {pool chosen : List ℕ}
    (hpool : pool.Pairwise r) (hchosen : chosen.Sublist pool) :
    List.Forall₂ r (pool.take chosen.length) chosen := by
  induction pool generalizing chosen with
  | nil =>
    rw [List.sublist_nil.mp hchosen]
    exact .nil
  | cons first rest ih =>
    obtain ⟨hfirst, hrest⟩ := List.pairwise_cons.mp hpool
    cases hchosen with
    | cons _ hsub =>
      cases chosen with
      | nil => exact .nil
      | cons x later =>
        exact .cons (hfirst x (hsub.subset (by simp)))
          (ih hrest ((List.sublist_cons_self x later).trans hsub))
    | cons_cons _ hsub => exact .cons (hrefl first) (ih hrest hsub)

section Ascending

variable {pool : List ℕ} {chosen : Finset ℕ}

theorem toFinset_filter_mem (hchosen : chosen ⊆ pool.toFinset) :
    (pool.filter (· ∈ chosen)).toFinset = chosen := by
  ext x
  simp only [List.mem_toFinset, List.mem_filter, decide_eq_true_eq]
  exact ⟨fun h => h.2, fun h => ⟨List.mem_toFinset.mp (hchosen h), h⟩⟩

theorem prod_filter_mem (hpool : pool.Nodup) (hchosen : chosen ⊆ pool.toFinset) :
    (pool.filter (· ∈ chosen)).prod = ∏ x ∈ chosen, x := by
  have hprod := List.prod_toFinset id (hpool.filter (· ∈ chosen))
  rw [toFinset_filter_mem hchosen, List.map_id] at hprod
  exact hprod.symm

theorem length_filter_mem (hpool : pool.Nodup) (hchosen : chosen ⊆ pool.toFinset) :
    (pool.filter (· ∈ chosen)).length = chosen.card := by
  rw [← List.toFinset_card_of_nodup (hpool.filter _), toFinset_filter_mem hchosen]

theorem prod_take_le (hpool : pool.Pairwise (· < ·)) (hchosen : chosen ⊆ pool.toFinset) :
    (pool.take chosen.card).prod ≤ ∏ x ∈ chosen, x := by
  rw [← prod_filter_mem (hpool.imp ne_of_lt) hchosen,
    ← length_filter_mem (hpool.imp ne_of_lt) hchosen]
  exact (forall₂_take_of_sublist le_refl (hpool.imp le_of_lt) List.filter_sublist).prod_le_prod'

theorem prod_le_prod_reverse_take (hpool : pool.Pairwise (· < ·))
    (hchosen : chosen ⊆ pool.toFinset) :
    ∏ x ∈ chosen, x ≤ (pool.reverse.take chosen.card).prod := by
  rw [← prod_filter_mem (hpool.imp ne_of_lt) hchosen,
    ← length_filter_mem (hpool.imp ne_of_lt) hchosen, ← List.prod_reverse, ← List.length_reverse]
  have hreverse : pool.reverse.Pairwise (· ≥ ·) :=
    List.pairwise_reverse.mpr (hpool.imp le_of_lt)
  exact (forall₂_take_of_sublist (r := (· ≥ ·)) le_refl hreverse
    List.filter_sublist.reverse).flip.prod_le_prod'

end Ascending

/-! ### Products in between -/

section Exchange

variable {chosen : Finset ℕ} {x y : ℕ}

theorem card_exchange (hx : x ∈ chosen) (hy : y ∉ chosen) :
    (insert y (chosen.erase x)).card = chosen.card := by
  have hyerase : y ∉ chosen.erase x := fun h => hy (Finset.mem_of_mem_erase h)
  rw [Finset.card_insert_of_notMem hyerase, Finset.card_erase_add_one hx]

theorem mul_prod_exchange (hx : x ∈ chosen) (hy : y ∉ chosen) :
    x * ∏ z ∈ insert y (chosen.erase x), z = y * ∏ z ∈ chosen, z := by
  have hyerase : y ∉ chosen.erase x := fun h => hy (Finset.mem_of_mem_erase h)
  have hprod : x * ∏ z ∈ chosen.erase x, z = ∏ z ∈ chosen, z := Finset.mul_prod_erase chosen id hx
  rw [Finset.prod_insert hyerase, mul_left_comm, hprod]

theorem sdiff_exchange {target : Finset ℕ} (hx : x ∉ target) :
    target \ insert y (chosen.erase x) = (target \ chosen).erase y := by
  ext z
  simp only [Finset.mem_sdiff, Finset.mem_insert, Finset.mem_erase]
  have hne : z ∈ target → z ≠ x := fun hz hzx => hx (hzx ▸ hz)
  tauto

end Exchange

/-- The numbers differ by less than the factor two. -/
def Narrow (pool : Finset ℕ) : Prop :=
  ∀ x ∈ pool, ∀ y ∈ pool, y < 2 * x

/-- One selection becomes the other by exchanges, and none of them doubles the product. -/
theorem exists_mul_prod_between {pool low high : Finset ℕ} {factor bound : ℕ}
    (hpool : Narrow pool) (hlow : low ⊆ pool) (hhigh : high ⊆ pool) (hcard : low.card = high.card)
    (hlt : factor * ∏ x ∈ low, x < 2 * bound) (hle : bound ≤ factor * ∏ x ∈ high, x) :
    ∃ chosen ⊆ pool, chosen.card = low.card ∧ bound ≤ factor * ∏ x ∈ chosen, x ∧
      factor * ∏ x ∈ chosen, x < 2 * bound := by
  -- the induction is on how many numbers of the other selection are still missing
  induction hmissing : (high \ low).card generalizing low with
  | zero =>
    have hsub : high ⊆ low := Finset.sdiff_eq_empty_iff_subset.mp (Finset.card_eq_zero.mp hmissing)
    obtain rfl := Finset.eq_of_subset_of_card_le hsub hcard.le
    exact ⟨_, hlow, rfl, hle, hlt⟩
  | succ missing ih =>
    by_cases hdone : bound ≤ factor * ∏ x ∈ low, x
    · exact ⟨low, hlow, rfl, hdone, hlt⟩
    obtain ⟨y, hy⟩ : (high \ low).Nonempty := Finset.card_pos.mp (by omega)
    obtain ⟨x, hx⟩ : (low \ high).Nonempty :=
      Finset.card_pos.mp (by rw [Finset.card_sdiff_comm hcard]; omega)
    obtain ⟨hyhigh, hylow⟩ := Finset.mem_sdiff.mp hy
    obtain ⟨hxlow, hxhigh⟩ := Finset.mem_sdiff.mp hx
    have hsub : insert y (low.erase x) ⊆ pool :=
      Finset.insert_subset (hhigh hyhigh) ((Finset.erase_subset x low).trans hlow)
    have hprod : factor * ∏ z ∈ insert y (low.erase x), z < 2 * bound := by
      have hratio : y < 2 * x := hpool x (hlow hxlow) y (hhigh hyhigh)
      have hmul := mul_prod_exchange hxlow hylow
      have hdouble : ∏ z ∈ insert y (low.erase x), z ≤ 2 * ∏ z ∈ low, z := by
        refine Nat.le_of_mul_le_mul_left ?_ (show 0 < x by omega)
        rw [hmul, mul_left_comm, ← mul_assoc]
        exact Nat.mul_le_mul_right _ hratio.le
      calc factor * ∏ z ∈ insert y (low.erase x), z
          ≤ factor * (2 * ∏ z ∈ low, z) := Nat.mul_le_mul_left factor hdouble
        _ = 2 * (factor * ∏ z ∈ low, z) := mul_left_comm ..
        _ < 2 * bound := by omega
    obtain ⟨chosen, hchosen, hsame, hfit⟩ := ih hsub ((card_exchange hxlow hylow).trans hcard) hprod
      (by rw [sdiff_exchange hxhigh, Finset.card_erase_of_mem hy, hmissing, Nat.add_sub_cancel])
    exact ⟨chosen, hchosen, hsame.trans (card_exchange hxlow hylow), hfit⟩

/-- The same with numbers from two lists. -/
theorem exists_prod_between {pool pool' low low' high high' : Finset ℕ} {bound : ℕ}
    (hpool : Narrow pool) (hpool' : Narrow pool') (hlow : low ⊆ pool) (hlow' : low' ⊆ pool')
    (hhigh : high ⊆ pool) (hhigh' : high' ⊆ pool') (hcard : low.card = high.card)
    (hcard' : low'.card = high'.card)
    (hlt : (∏ x ∈ low, x) * ∏ x ∈ low', x < 2 * bound)
    (hle : bound ≤ (∏ x ∈ high, x) * ∏ x ∈ high', x) :
    ∃ chosen ⊆ pool, ∃ chosen' ⊆ pool', chosen.card = low.card ∧ chosen'.card = low'.card ∧
      bound ≤ (∏ x ∈ chosen, x) * ∏ x ∈ chosen', x ∧
      (∏ x ∈ chosen, x) * ∏ x ∈ chosen', x < 2 * bound := by
  -- the numbers from the first list are exchanged before those from the second
  by_cases hmid : bound ≤ (∏ x ∈ high, x) * ∏ x ∈ low', x
  · rw [mul_comm] at hmid hlt
    obtain ⟨chosen, hchosen, hsame, hfit⟩ :=
      exists_mul_prod_between hpool hlow hhigh hcard hlt hmid
    rw [mul_comm] at hfit
    exact ⟨chosen, hchosen, low', hlow', hsame, rfl, hfit⟩
  · have hmid' : (∏ x ∈ high, x) * ∏ x ∈ low', x < 2 * bound := by omega
    obtain ⟨chosen, hchosen, hsame, hfit⟩ :=
      exists_mul_prod_between hpool' hlow' hhigh' hcard' hmid' hle
    exact ⟨high, hhigh, chosen, hchosen, hcard.symm, hsame, hfit⟩

/-! ### Selections from ascending lists -/

section Lists

variable {pool pool' : List ℕ} {count count' bound : ℕ}

theorem card_toFinset_take (hpool : pool.Nodup) (hcount : count ≤ pool.length) :
    (pool.take count).toFinset.card = count := by
  rw [List.toFinset_card_of_nodup (hpool.sublist (pool.take_sublist count)), List.length_take,
    min_eq_left hcount]

theorem prod_toFinset_take (hpool : pool.Nodup) :
    ∏ x ∈ (pool.take count).toFinset, x = (pool.take count).prod := by
  have hprod := List.prod_toFinset id (hpool.sublist (pool.take_sublist count))
  rwa [List.map_id] at hprod

theorem toFinset_take_subset : (pool.take count).toFinset ⊆ pool.toFinset := by
  intro x hx
  exact List.mem_toFinset.mpr (List.mem_of_mem_take (List.mem_toFinset.mp hx))

/-- There is a selection from both lists with a product in the window if the lists are long
enough, the smallest product is not above it and the largest one not below. -/
theorem exists_selection_iff (hpool : pool.Pairwise (· < ·)) (hpool' : pool'.Pairwise (· < ·))
    (hnarrow : Narrow pool.toFinset) (hnarrow' : Narrow pool'.toFinset) :
    (∃ chosen ⊆ pool.toFinset, ∃ chosen' ⊆ pool'.toFinset, chosen.card = count ∧
      chosen'.card = count' ∧ bound ≤ (∏ x ∈ chosen, x) * ∏ x ∈ chosen', x ∧
      (∏ x ∈ chosen, x) * ∏ x ∈ chosen', x < 2 * bound) ↔
    count ≤ pool.length ∧ count' ≤ pool'.length ∧
      (pool.take count).prod * (pool'.take count').prod < 2 * bound ∧
      bound ≤ (pool.reverse.take count).prod * (pool'.reverse.take count').prod := by
  have hnodup := hpool.imp ne_of_lt
  have hnodup' := hpool'.imp ne_of_lt
  constructor
  · rintro ⟨chosen, hchosen, chosen', hchosen', rfl, rfl, hle, hlt⟩
    refine ⟨?_, ?_, ?_, ?_⟩
    · exact (Finset.card_le_card hchosen).trans pool.toFinset_card_le
    · exact (Finset.card_le_card hchosen').trans pool'.toFinset_card_le
    · exact lt_of_le_of_lt
        (Nat.mul_le_mul (prod_take_le hpool hchosen) (prod_take_le hpool' hchosen')) hlt
    · exact hle.trans (Nat.mul_le_mul (prod_le_prod_reverse_take hpool hchosen)
        (prod_le_prod_reverse_take hpool' hchosen'))
  · rintro ⟨hcount, hcount', hlt, hle⟩
    have hreverse := List.nodup_reverse.mpr hnodup
    have hreverse' := List.nodup_reverse.mpr hnodup'
    rw [← prod_toFinset_take hnodup, ← prod_toFinset_take hnodup'] at hlt
    rw [← prod_toFinset_take hreverse, ← prod_toFinset_take hreverse'] at hle
    have hcard := card_toFinset_take hnodup hcount
    have hcard' := card_toFinset_take hnodup' hcount'
    obtain ⟨chosen, hchosen, chosen', hchosen', hsame, hsame', hfit⟩ :=
      exists_prod_between hnarrow hnarrow' toFinset_take_subset toFinset_take_subset
        (pool.toFinset_reverse ▸ toFinset_take_subset)
        (pool'.toFinset_reverse ▸ toFinset_take_subset)
        (hcard.trans (card_toFinset_take hreverse (hcount.trans_eq List.length_reverse.symm)).symm)
        (hcard'.trans
          (card_toFinset_take hreverse' (hcount'.trans_eq List.length_reverse.symm)).symm) hlt hle
    exact ⟨chosen, hchosen, chosen', hchosen', hsame.trans hcard, hsame'.trans hcard', hfit⟩

end Lists

end WebKey.Selections
