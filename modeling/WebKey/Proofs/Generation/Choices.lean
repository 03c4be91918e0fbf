/-
The primes with which a pass succeeds.

A pass succeeds with different primes of the sizes asked for if their product has the size of the
modulus and the public exponent is coprime to each of them less one. Whether there are such primes
is settled by the first and the last usable primes of the two sizes: there have to be enough, the
first ones must not be too large together, and the last ones not too small.

* **`HasTopBits.bitLength_mul`** — the size of a product of two numbers;
* **`Choice`** — primes with which a pass succeeds;
* **`exists_search_eq_ok_iff`** — the loop can exit if there are such primes;
* **`usablePrimes`** — the primes that may be among them;
* **`Feasible`** and **`exists_choice_iff`** — whether there are such primes.
-/
import WebKey.Proofs.Generation.KeyPair
import WebKey.Proofs.Generation.Sizes
import WebKey.Proofs.Selections

namespace WebKey.Generation

/-! ### Numbers with their two highest bits set -/

theorem bitLength_eq_iff {n size : ℕ} (hsize : 0 < size) :
    bitLength n = size ↔ 2 ^ (size - 1) ≤ n ∧ n < 2 ^ size := by
  rw [← bitLength_le_iff, ← not_lt, ← bitLength_le_iff]
  omega

/-- The two highest bits of a number are set. -/
def HasTopBits (n : ℕ) : Prop := n / 2 ^ (bitLength n - 2) = 3

instance (n : ℕ) : Decidable (HasTopBits n) :=
  inferInstanceAs (Decidable (n / 2 ^ (bitLength n - 2) = 3))

theorem HasTopBits.three_le {n : ℕ} (h : HasTopBits n) : 3 ≤ n :=
  h ▸ Nat.div_le_self n (2 ^ (bitLength n - 2))

theorem HasTopBits.two_le_bitLength {n : ℕ} (h : HasTopBits n) : 2 ≤ bitLength n := by
  have hthree := h.three_le
  by_contra hsize
  have hlt : n < 2 ^ 1 := bitLength_le_iff.mp (by omega)
  omega

/-- These are the numbers of at least three quarters of the next power of two. -/
theorem hasTopBits_iff {k n : ℕ} :
    bitLength n = k + 2 ∧ HasTopBits n ↔ 3 * 2 ^ k ≤ n ∧ n < 4 * 2 ^ k := by
  have hpow : 2 ^ (k + 2) = 4 * 2 ^ k := by ring
  have hhalf : 2 ^ (k + 2 - 1) = 2 * 2 ^ k := by
    rw [show k + 2 - 1 = k + 1 by omega]
    ring
  have hhigh : n / 2 ^ k = 3 ↔ 3 * 2 ^ k ≤ n ∧ n < 4 * 2 ^ k := by
    have hpos : 0 < 2 ^ k := by positivity
    rw [Nat.div_eq_iff hpos]
    omega
  have hbits : 3 * 2 ^ k ≤ n ∧ n < 4 * 2 ^ k → bitLength n = k + 2 := by
    intro h
    rw [bitLength_eq_iff (by omega), hpow, hhalf]
    omega
  constructor
  · rintro ⟨hsize, h⟩
    rwa [HasTopBits, hsize, Nat.add_sub_cancel, hhigh] at h
  · intro h
    refine ⟨hbits h, ?_⟩
    rwa [HasTopBits, hbits h, Nat.add_sub_cancel, hhigh]

/-- The product of two such numbers is more than one half of the next power of two, so no bit is
lost. -/
theorem HasTopBits.bitLength_mul {m n : ℕ} (hm : HasTopBits m) (hn : HasTopBits n) :
    bitLength (m * n) = bitLength m + bitLength n := by
  obtain ⟨k, hk⟩ := Nat.exists_eq_add_of_le' hm.two_le_bitLength
  obtain ⟨l, hl⟩ := Nat.exists_eq_add_of_le' hn.two_le_bitLength
  obtain ⟨hmlow, hmhigh⟩ := hasTopBits_iff.mp ⟨hk, hm⟩
  obtain ⟨hnlow, hnhigh⟩ := hasTopBits_iff.mp ⟨hl, hn⟩
  have hlow := Nat.mul_le_mul hmlow hnlow
  have hhigh := Nat.mul_lt_mul'' hmhigh hnhigh
  have hbits : 2 ^ (k + 2 + (l + 2)) = 4 * 2 ^ k * (4 * 2 ^ l) := by ring
  have hhalf : 2 ^ (k + 2 + (l + 2) - 1) = 8 * (2 ^ k * 2 ^ l) := by
    rw [show k + 2 + (l + 2) - 1 = k + l + 3 by omega]
    ring
  rw [hk, hl, bitLength_eq_iff (by omega), hbits, hhalf]
  refine ⟨le_trans ?_ hlow, hhigh⟩
  calc 8 * (2 ^ k * 2 ^ l) ≤ 9 * (2 ^ k * 2 ^ l) := Nat.mul_le_mul_right _ (by decide)
    _ = 3 * 2 ^ k * (3 * 2 ^ l) := by ring

theorem HighPrime.hasTopBits {size p : ℕ} (h : HighPrime size p) : HasTopBits p := by
  rw [HasTopBits, h.bitLength_eq]
  exact h.high

theorem HighPrime.two_le {size p : ℕ} (h : HighPrime size p) : 2 ≤ size :=
  h.bitLength_eq ▸ h.hasTopBits.two_le_bitLength

theorem highPrime_add_two_iff {k p : ℕ} :
    HighPrime (k + 2) p ↔ p.Prime ∧ 3 * 2 ^ k ≤ p ∧ p < 4 * 2 ^ k := by
  rw [← hasTopBits_iff]
  constructor
  · intro h
    exact ⟨h.prime, h.bitLength_eq, h.hasTopBits⟩
  · rintro ⟨hprime, hsize, h⟩
    refine ⟨hprime, hsize, ?_⟩
    rwa [HasTopBits, hsize] at h

instance (size p : ℕ) : Decidable (HighPrime size p) :=
  decidable_of_iff (p.Prime ∧ bitLength p = size ∧ p / 2 ^ (size - 2) = 3)
    ⟨fun h => ⟨h.1, h.2.1, h.2.2⟩, fun h => ⟨h.prime, h.bitLength_eq, h.high⟩⟩

theorem three_le_of_forall₂ {sizes primes : List ℕ} (h : List.Forall₂ HighPrime sizes primes) :
    ∀ p ∈ primes, 3 ≤ p := by
  induction h with
  | nil => simp
  | cons hp _ ih =>
    rw [List.forall_mem_cons]
    exact ⟨hp.three_le, ih⟩

theorem prod_pos_of_three_le {primes : List ℕ} (h : ∀ p ∈ primes, 3 ≤ p) : 0 < primes.prod :=
  List.prod_pos fun p hp => by have := h p hp; omega

/-! ### Choices -/

/-- A pass that draws these primes succeeds. -/
structure Choice (count size exponent : ℕ) (primes : List ℕ) : Prop where
  high : List.Forall₂ HighPrime (shares count (totalSize count size)) primes
  nodup : primes.Nodup
  bitLength_prod : bitLength primes.prod = size
  coprime : ∀ p ∈ primes, exponent.Coprime (p - 1)

theorem coprime_totient_iff {exponent : ℕ} {primes : List ℕ} :
    exponent.Coprime (totient primes) ↔ ∀ p ∈ primes, exponent.Coprime (p - 1) := by
  rw [totient_eq_prod, Nat.coprime_list_prod_right_iff, List.forall_mem_map]

/-- The source that gives the primes of a list, as long as they are what it is asked for. -/
def PrimeSource.replay : PrimeSource (List ℕ) where
  draw size primes :=
    match primes with
    | [] => none
    | p :: rest => if HighPrime size p then some (p, rest) else none

namespace PrimeSource

theorem replay_draw_eq_some_iff {size p : ℕ} {primes rest : List ℕ} :
    replay.draw size primes = some (p, rest) ↔ HighPrime size p ∧ primes = p :: rest := by
  cases primes with
  | nil => simp [replay]
  | cons q later =>
    simp only [replay, Option.ite_none_right_eq_some, Option.some_inj, Prod.mk.injEq,
      List.cons.injEq]
    constructor
    · rintro ⟨h, rfl, rfl⟩
      exact ⟨h, rfl, rfl⟩
    · rintro ⟨h, rfl, rfl⟩
      exact ⟨h, rfl, rfl⟩

theorem replay_sound : replay.Sound :=
  fun _ _ _ _ _ h => (replay_draw_eq_some_iff.mp h).1

theorem replay_draws {sizes primes : List ℕ} (h : List.Forall₂ HighPrime sizes primes) :
    replay.Draws primes (sizes.zip primes) [] := by
  induction h with
  | nil => exact .nil []
  | cons hp _ ih => exact .cons hp.two_le (replay_draw_eq_some_iff.mpr ⟨hp, rfl⟩) ih

/-- A pass gets the primes of the list if they have the sizes of the shares. -/
theorem replay_drawPrimes {count total : ℕ} {primes : List ℕ}
    (h : List.Forall₂ HighPrime (shares count total) primes) :
    drawPrimes replay count total primes = .ok (primes, []) :=
  (drawPrimes_eq_ok_iff replay_sound.exact).mpr ⟨_, replay_draws h,
    List.map_fst_zip h.length_eq.le, List.map_snd_zip h.length_eq.ge⟩

end PrimeSource

section Loop

variable {σ : Type} {source : PrimeSource σ} {count size exponent : ℕ} {primes : List ℕ}

/-- A pass succeeds with the primes of a choice and with no others. -/
theorem exists_assess_iff (hcount : 0 < count)
    (hhigh : List.Forall₂ HighPrime (shares count (totalSize count size)) primes) :
    (∃ components, assess size exponent primes = some components) ↔
      Choice count size exponent primes := by
  have hne : primes ≠ [] := by
    rintro rfl
    have hlength := hhigh.length_eq
    rw [length_shares, List.length_nil] at hlength
    omega
  rw [exists_assess_eq_some_iff hne (three_le_of_forall₂ hhigh), coprime_totient_iff]
  constructor
  · rintro ⟨hnodup, hsize, hcoprime⟩
    exact ⟨hhigh, hnodup, hsize, hcoprime⟩
  · intro h
    exact ⟨h.nodup, h.bitLength_prod, h.coprime⟩

/-- The primes of a pass have the sizes of the shares and their two highest bits set. -/
theorem highPrimes_of_drawPrimes (hsource : source.Sound) {total : ℕ} {state next : σ}
    (h : drawPrimes source count total state = .ok (primes, next)) :
    List.Forall₂ HighPrime (shares count total) primes := by
  obtain ⟨draws, hdraws, hsizes, rfl⟩ := (drawPrimes_eq_ok_iff hsource.exact).mp h
  rw [← hsizes, List.forall₂_map_left_iff, List.forall₂_map_right_iff, List.forall₂_same]
  exact hdraws.highPrime hsource

/-- If the loop exits, its last pass has drawn a choice. -/
theorem exists_choice_of_search (hcount : 0 < count) (hsource : source.Sound) {passes : ℕ}
    {state next : σ} {components : Components}
    (h : search source count size exponent passes state = .ok (components, next)) :
    ∃ primes, Choice count size exponent primes := by
  induction passes generalizing state with
  | zero => exact absurd h (by simp [search])
  | succ passes ih =>
    obtain ⟨primes, mid, hprimes, hpass⟩ := search_succ_eq_ok_iff.mp h
    rcases hpass with ⟨hassess, -⟩ | ⟨-, hsearch⟩
    · have hhigh := highPrimes_of_drawPrimes hsource hprimes
      exact ⟨_, (exists_assess_iff hcount hhigh).mp ⟨components, hassess⟩⟩
    · exact ih hsearch

/-- A source that gives the primes of a choice lets the first pass succeed. -/
theorem Choice.exists_search (h : Choice count size exponent primes) (hcount : 0 < count)
    (passes : ℕ) :
    ∃ components, search .replay count size exponent (passes + 1) primes =
      .ok (components, []) := by
  obtain ⟨components, hassess⟩ := (exists_assess_iff hcount h.high).mpr h
  exact ⟨components, search_succ_eq_ok_iff.mpr
    ⟨primes, [], PrimeSource.replay_drawPrimes h.high, .inl ⟨hassess, rfl⟩⟩⟩

/-- Some sound source lets the loop exit exactly if there is a choice. -/
theorem exists_search_eq_ok_iff (hcount : 0 < count) {passes : ℕ} (hpasses : 0 < passes) :
    (∃ (σ : Type) (source : PrimeSource σ) (state next : σ) (components : Components),
      source.Sound ∧
        search source count size exponent passes state = .ok (components, next)) ↔
      ∃ primes, Choice count size exponent primes := by
  constructor
  · rintro ⟨σ, source, state, next, components, hsource, h⟩
    exact exists_choice_of_search hcount hsource h
  · rintro ⟨primes, hchoice⟩
    obtain ⟨passes, rfl⟩ := Nat.exists_eq_add_of_lt hpasses
    obtain ⟨components, h⟩ := hchoice.exists_search hcount passes
    rw [Nat.zero_add]
    exact ⟨_, .replay, primes, [], components, PrimeSource.replay_sound, h⟩

end Loop

/-! ### Whether there is a choice -/

/-- The primes of this size that can be part of a choice, in ascending order. -/
def usablePrimes (exponent size : ℕ) : List ℕ :=
  (List.range (2 ^ size)).filter fun p => HighPrime size p ∧ exponent.Coprime (p - 1)

section Usable

variable {exponent size p : ℕ}

theorem mem_usablePrimes_iff :
    p ∈ usablePrimes exponent size ↔ HighPrime size p ∧ exponent.Coprime (p - 1) := by
  rw [usablePrimes, List.mem_filter, decide_eq_true_eq, List.mem_range, and_iff_right_iff_imp]
  rintro ⟨hp, -⟩
  exact bitLength_le_iff.mp hp.bitLength_eq.le

theorem pairwise_usablePrimes (exponent size : ℕ) :
    (usablePrimes exponent size).Pairwise (· < ·) :=
  List.pairwise_lt_range.filter _

theorem narrow_usablePrimes (exponent size : ℕ) :
    Selections.Narrow (usablePrimes exponent size).toFinset := by
  intro x hx y hy
  have hxhigh := (mem_usablePrimes_iff.mp (List.mem_toFinset.mp hx)).1
  have hyhigh := (mem_usablePrimes_iff.mp (List.mem_toFinset.mp hy)).1
  obtain ⟨k, rfl⟩ := Nat.exists_eq_add_of_le' hxhigh.two_le
  have hx3 := (highPrime_add_two_iff.mp hxhigh).2.1
  have hy4 := (highPrime_add_two_iff.mp hyhigh).2.2
  omega

end Usable

/-- The first primes of the lists, so many of each size as there are shares of that size. -/
def picks (pool : ℕ → List ℕ) (count total : ℕ) : List ℕ :=
  (pool (total / count)).take (count - total % count) ++
    (pool (total / count + 1)).take (total % count)

theorem three_le_of_mem_picks {count total exponent : ℕ} :
    ∀ p ∈ picks (usablePrimes exponent) count total, 3 ≤ p := by
  rw [picks, List.forall_mem_append]
  exact ⟨fun p hp => (mem_usablePrimes_iff.mp (List.mem_of_mem_take hp)).1.three_le,
    fun p hp => (mem_usablePrimes_iff.mp (List.mem_of_mem_take hp)).1.three_le⟩

/-- There are enough usable primes, the first of them do not have too large a product, and the
last of them not too small a one. -/
structure Feasible (count size exponent : ℕ) : Prop where
  enough : (picks (usablePrimes exponent) count (totalSize count size)).length = count
  prod_first_lt : (picks (usablePrimes exponent) count (totalSize count size)).prod < 2 ^ size
  le_prod_last : 2 ^ (size - 1) ≤
    (picks (fun k => (usablePrimes exponent k).reverse) count (totalSize count size)).prod

section Feasible

variable {count size exponent : ℕ}

section Selection

variable {primes : List ℕ} {chosen chosen' : Finset ℕ}

/-- A choice is a selection of usable primes, so many of each size as there are shares. -/
theorem Choice.exists_selection (hcount : 0 < count) (h : Choice count size exponent primes) :
    ∃ chosen ⊆ (usablePrimes exponent (totalSize count size / count)).toFinset,
      ∃ chosen' ⊆ (usablePrimes exponent (totalSize count size / count + 1)).toFinset,
        chosen.card = count - totalSize count size % count ∧
        chosen'.card = totalSize count size % count ∧
        bitLength ((∏ x ∈ chosen, x) * ∏ x ∈ chosen', x) = size := by
  obtain ⟨hhigh, hnodup, hprod, hcoprime⟩ := h
  obtain ⟨front, back, rfl, ⟨hfront, hfronthigh⟩, hback, hbackhigh⟩ :=
    (forall₂_shares_iff hcount).mp hhigh
  obtain ⟨hfrontnodup, hbacknodup, -⟩ := List.nodup_append.mp hnodup
  rw [List.forall_mem_append] at hcoprime
  have hfrontprod := List.prod_toFinset id hfrontnodup
  have hbackprod := List.prod_toFinset id hbacknodup
  simp only [id_eq, List.map_id] at hfrontprod hbackprod
  refine ⟨front.toFinset, ?_, back.toFinset, ?_, ?_, ?_, ?_⟩
  · intro p hp
    rw [List.mem_toFinset] at hp ⊢
    exact mem_usablePrimes_iff.mpr ⟨hfronthigh p hp, hcoprime.1 p hp⟩
  · intro p hp
    rw [List.mem_toFinset] at hp ⊢
    exact mem_usablePrimes_iff.mpr ⟨hbackhigh p hp, hcoprime.2 p hp⟩
  · rw [List.toFinset_card_of_nodup hfrontnodup, hfront]
  · rw [List.toFinset_card_of_nodup hbacknodup, hback]
  · rw [hfrontprod, hbackprod, ← List.prod_append, hprod]

theorem usable_of_mem_toList {k p : ℕ} (hchosen : chosen ⊆ (usablePrimes exponent k).toFinset)
    (hp : p ∈ chosen.toList) : HighPrime k p ∧ exponent.Coprime (p - 1) :=
  mem_usablePrimes_iff.mp (List.mem_toFinset.mp (hchosen (Finset.mem_toList.mp hp)))

/-- Such a selection is a choice, the primes of the smaller size in front. -/
theorem choice_of_selection (hcount : 0 < count)
    (hchosen : chosen ⊆ (usablePrimes exponent (totalSize count size / count)).toFinset)
    (hchosen' : chosen' ⊆ (usablePrimes exponent (totalSize count size / count + 1)).toFinset)
    (hcard : chosen.card = count - totalSize count size % count)
    (hcard' : chosen'.card = totalSize count size % count)
    (hprod : bitLength ((∏ x ∈ chosen, x) * ∏ x ∈ chosen', x) = size) :
    Choice count size exponent (chosen.toList ++ chosen'.toList) where
  high := by
    refine (forall₂_shares_iff hcount).mpr ⟨_, _, rfl,
      ⟨?_, fun p hp => (usable_of_mem_toList hchosen hp).1⟩,
      ?_, fun p hp => (usable_of_mem_toList hchosen' hp).1⟩
    · rw [Finset.length_toList, hcard]
    · rw [Finset.length_toList, hcard']
  nodup := by
    refine List.Nodup.append chosen.nodup_toList chosen'.nodup_toList fun p hp hp' => ?_
    -- the two sizes differ
    have hbits := (usable_of_mem_toList hchosen hp).1.bitLength_eq
    have hbits' := (usable_of_mem_toList hchosen' hp').1.bitLength_eq
    omega
  bitLength_prod := by
    rw [List.prod_append, Finset.prod_toList, Finset.prod_toList, hprod]
  coprime := by
    rw [List.forall_mem_append]
    exact ⟨fun p hp => (usable_of_mem_toList hchosen hp).2,
      fun p hp => (usable_of_mem_toList hchosen' hp).2⟩

end Selection

theorem exists_choice_iff_exists_selection (hcount : 0 < count) (hsize : 0 < size) :
    (∃ primes, Choice count size exponent primes) ↔
      ∃ chosen ⊆ (usablePrimes exponent (totalSize count size / count)).toFinset,
        ∃ chosen' ⊆ (usablePrimes exponent (totalSize count size / count + 1)).toFinset,
          chosen.card = count - totalSize count size % count ∧
          chosen'.card = totalSize count size % count ∧
          2 ^ (size - 1) ≤ (∏ x ∈ chosen, x) * ∏ x ∈ chosen', x ∧
          (∏ x ∈ chosen, x) * ∏ x ∈ chosen', x < 2 * 2 ^ (size - 1) := by
  simp only [mul_pow_sub_one hsize.ne', ← bitLength_eq_iff hsize]
  constructor
  · rintro ⟨primes, h⟩
    exact h.exists_selection hcount
  · rintro ⟨chosen, hchosen, chosen', hchosen', hcard, hcard', hprod⟩
    exact ⟨_, choice_of_selection hcount hchosen hchosen' hcard hcard' hprod⟩

theorem length_picks_eq_iff (pool : ℕ → List ℕ) {total : ℕ} (hcount : 0 < count) :
    (picks pool count total).length = count ↔
      count - total % count ≤ (pool (total / count)).length ∧
        total % count ≤ (pool (total / count + 1)).length := by
  have hlt := Nat.mod_lt total hcount
  rw [picks, List.length_append, List.length_take, List.length_take]
  omega

/-- **There is a choice exactly if there are enough usable primes and their extreme products are
not on the wrong side.** -/
theorem exists_choice_iff (hcount : 0 < count) :
    (∃ primes, Choice count size exponent primes) ↔ Feasible count size exponent := by
  rcases size.eq_zero_or_pos with rfl | hsize
  · -- no product of primes has size zero
    constructor
    · rintro ⟨primes, hchoice⟩
      have hprod := bitLength_le_iff.mp hchoice.bitLength_prod.le
      have hpos := prod_pos_of_three_le (three_le_of_forall₂ hchoice.high)
      omega
    · intro h
      have hprod := h.prod_first_lt
      have hpos : 0 < (picks (usablePrimes exponent) count (totalSize count 0)).prod :=
        prod_pos_of_three_le three_le_of_mem_picks
      omega
  · rw [exists_choice_iff_exists_selection hcount hsize, Selections.exists_selection_iff
      (pairwise_usablePrimes _ _) (pairwise_usablePrimes _ _) (narrow_usablePrimes _ _)
      (narrow_usablePrimes _ _), mul_pow_sub_one hsize.ne', ← and_assoc, ← List.prod_append,
      ← List.prod_append, ← length_picks_eq_iff (usablePrimes exponent) hcount]
    constructor
    · rintro ⟨henough, hfirst, hlast⟩
      exact ⟨henough, hfirst, hlast⟩
    · intro h
      exact ⟨h.enough, h.prod_first_lt, h.le_prod_last⟩

end Feasible

end WebKey.Generation
