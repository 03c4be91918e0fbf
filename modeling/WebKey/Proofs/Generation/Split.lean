/-
How a pass splits the size of the modulus.

A pass takes one turn for each prime. In each turn it asks for an even share of the bits that
remain, and it takes the size of the answer away from them. If the answers have the sizes that are
asked for, the sizes ascend and add up to the total, so nothing is ever taken away that does not
remain. A product has at most as many bits as its factors together, and two factors with their two
highest bits set lose none of them.

* **`Turns`** — the turns of a pass, and `drawPrimes_eq_ok_iff_turns`;
* **`Turns.sizes_eq`** — what is asked for are the shares of the total;
* **`pairwise_shares`** and **`eq_of_mem_shares`** — the shares ascend, and each is rounded down or
  up;
* **`bitLength_prod_le_sum`** — the size of a product;
* **`prime_sizes_split_total`** — the sizes of the primes of a pass, and the size of their product.
-/
import WebKey.Proofs.Generation.Choices

namespace WebKey.Generation

/-! ### Turns -/

/-- A turn of a pass: the bits that remain, the size that is asked for, and the answer. -/
structure Turn where
  remaining : ℕ
  size : ℕ
  prime : ℕ

section Turns

variable {σ : Type} {source : PrimeSource σ}

/-- A pass for so many primes, with so many bits for them, takes these turns. -/
inductive Turns (source : PrimeSource σ) : (count remaining : ℕ) → σ → List Turn → σ → Prop where
  | nil (remaining : ℕ) (state : σ) : Turns source 0 remaining state [] state
  | cons {count remaining p : ℕ} {state mid next : σ} {later : List Turn}
      (hsize : 2 ≤ remaining / (count + 1))
      (hdraw : source.draw (remaining / (count + 1)) state = some (p, mid))
      (hlater : Turns source count (remaining - bitLength p) mid later next) :
      Turns source (count + 1) remaining state (⟨remaining, remaining / (count + 1), p⟩ :: later)
        next

variable {count total : ℕ} {state next : σ} {primes : List ℕ} {turns : List Turn}

/-- The primes of a pass are the answers of its turns. -/
theorem drawPrimes_eq_ok_iff_turns :
    drawPrimes source count total state = .ok (primes, next) ↔
      ∃ turns, Turns source count total state turns next ∧ turns.map Turn.prime = primes := by
  induction count generalizing total state primes with
  | zero =>
    constructor
    · intro h
      obtain ⟨rfl, rfl⟩ := Prod.mk.inj (Except.ok.inj h)
      exact ⟨[], .nil total state, rfl⟩
    · rintro ⟨turns, hturns, rfl⟩
      cases hturns
      rfl
  | succ count ih =>
    rw [drawPrimes_succ_eq_ok_iff]
    constructor
    · rintro ⟨hsize, p, mid, rest, hdraw, hrest, rfl⟩
      obtain ⟨later, hlater, rfl⟩ := ih.mp hrest
      exact ⟨_, .cons hsize hdraw hlater, rfl⟩
    · rintro ⟨turns, hturns, rfl⟩
      cases hturns with
      | @cons _ _ p _ mid _ later hsize hdraw hlater =>
        exact ⟨hsize, p, mid, later.map Turn.prime, hdraw, ih.mpr ⟨later, hlater, rfl⟩, rfl⟩

namespace Turns

/-- The sizes that are asked for are the shares of the total. -/
theorem sizes_eq (hsource : source.Exact) (h : Turns source count total state turns next) :
    turns.map Turn.size = shares count total := by
  induction h with
  | nil => rfl
  | cons hsize hdraw _ ih =>
    rw [hsource _ _ _ _ hsize hdraw] at ih
    rw [List.map_cons, ih, shares]

/-- The answers have the sizes that are asked for. -/
theorem bitLength_eq (hsource : source.Exact) (h : Turns source count total state turns next) :
    ∀ turn ∈ turns, bitLength turn.prime = turn.size := by
  induction h with
  | nil => simp
  | cons hsize hdraw _ ih =>
    rw [List.forall_mem_cons]
    exact ⟨hsource _ _ _ _ hsize hdraw, ih⟩

/-- No more bits are asked for than remain. -/
theorem size_le (h : Turns source count total state turns next) :
    ∀ turn ∈ turns, turn.size ≤ turn.remaining := by
  induction h with
  | nil => simp
  | cons _ _ _ ih =>
    rw [List.forall_mem_cons]
    exact ⟨Nat.div_le_self _ _, ih⟩

theorem length_eq (h : Turns source count total state turns next) : turns.length = count := by
  induction h with
  | nil => rfl
  | cons _ _ _ ih => rw [List.length_cons, ih]

theorem primes_ne_nil (hcount : 0 < count) (h : Turns source count total state turns next) :
    turns.map Turn.prime ≠ [] := by
  rw [← List.length_pos_iff_ne_nil, List.length_map, h.length_eq]
  exact hcount

end Turns

/-- A source that always has an answer is asked until there are as many primes as wanted. -/
theorem exists_drawPrimes_eq_ok (hsource : source.Exact)
    (hanswers : ∀ size state, 2 ≤ size → ∃ answer, source.draw size state = some answer)
    (htotal : 2 * count ≤ total) (state : σ) :
    ∃ primes next, drawPrimes source count total state = .ok (primes, next) := by
  induction count generalizing total state with
  | zero => exact ⟨[], state, rfl⟩
  | succ count ih =>
    obtain ⟨hsize, hrest⟩ := two_le_share htotal
    obtain ⟨⟨p, mid⟩, hdraw⟩ := hanswers _ state hsize
    obtain ⟨primes, next, hprimes⟩ := ih hrest mid
    refine ⟨p :: primes, next, drawPrimes_succ_eq_ok_iff.mpr
      ⟨hsize, p, mid, primes, hdraw, ?_, rfl⟩⟩
    rw [hsource _ _ _ _ hsize hdraw, hprimes]

end Turns

/-! ### The shares -/

section shares

variable {count : ℕ} (total : ℕ)

theorem pairwise_shares (hcount : 0 < count) : (shares count total).Pairwise (· ≤ ·) := by
  rw [shares_eq total hcount, List.pairwise_append]
  refine ⟨List.pairwise_replicate.mpr (.inr le_rfl), List.pairwise_replicate.mpr (.inr le_rfl), ?_⟩
  intro k hk l hl
  rw [List.eq_of_mem_replicate hk, List.eq_of_mem_replicate hl]
  exact Nat.le_succ _

/-- A share is the total divided by the number of shares, rounded down or up. -/
theorem eq_of_mem_shares {k : ℕ} (hcount : 0 < count) (h : k ∈ shares count total) :
    k = total / count ∨ k = total ⌈/⌉ count := by
  rw [shares_eq total hcount, List.mem_append, List.mem_replicate, List.mem_replicate] at h
  rcases h with ⟨-, rfl⟩ | ⟨hmod, rfl⟩
  · exact .inl rfl
  · -- there is a remainder, so rounding up is not rounding down
    right
    have hdiv := Nat.div_add_mod total count
    rw [Nat.ceilDiv_eq_add_pred_div, eq_comm, Nat.div_eq_iff hcount, Nat.succ_mul, mul_comm]
    have hlt := Nat.mod_lt total hcount
    omega

end shares

/-! ### The size of a product -/

theorem bitLength_mul_le (m n : ℕ) : bitLength (m * n) ≤ bitLength m + bitLength n := by
  rw [bitLength_le_iff, pow_add]
  exact Nat.mul_lt_mul'' (bitLength_le_iff.mp le_rfl) (bitLength_le_iff.mp le_rfl)

/-- A product has at most as many bits as its factors together, if there are any. -/
theorem bitLength_prod_le_sum {factors : List ℕ} (hne : factors ≠ []) :
    bitLength factors.prod ≤ (factors.map bitLength).sum := by
  induction factors with
  | nil => exact absurd rfl hne
  | cons factor rest ih =>
    rw [List.prod_cons, List.map_cons, List.sum_cons]
    cases rest with
    | nil => simp
    | cons second rest =>
      exact (bitLength_mul_le _ _).trans (Nat.add_le_add_left (ih (List.cons_ne_nil _ _)) _)

section Pass

variable {σ : Type} {source : PrimeSource σ} {count size total : ℕ} {state next : σ}
  {primes : List ℕ} {turns : List Turn}

/-- The sizes of the primes of a pass add up to the total. -/
theorem Turns.sum_bitLength (hcount : 0 < count) (hsource : source.Exact)
    (h : Turns source count total state turns next) :
    ((turns.map Turn.prime).map bitLength).sum = total := by
  have hsizes : (turns.map Turn.prime).map bitLength = turns.map Turn.size := by
    rw [List.map_map]
    exact List.map_congr_left (h.bitLength_eq hsource)
  rw [hsizes, h.sizes_eq hsource, sum_shares total hcount]

theorem Turns.bitLength_prod_le (hcount : 0 < count) (hsource : source.Exact)
    (h : Turns source count total state turns next) :
    bitLength (turns.map Turn.prime).prod ≤ total :=
  (bitLength_prod_le_sum (h.primes_ne_nil hcount)).trans_eq (h.sum_bitLength hcount hsource)

/-! ### Two primes -/

/-- The product of two primes with their two highest bits set has the size of the modulus. -/
theorem bitLength_prod_of_two (hsource : source.Exact)
    (h : drawPrimes source 2 total state = .ok (primes, next))
    (hhigh : ∀ p ∈ primes, HasTopBits p) : bitLength primes.prod = total := by
  obtain ⟨turns, hturns, rfl⟩ := drawPrimes_eq_ok_iff_turns.mp h
  have hsum := hturns.sum_bitLength two_pos hsource
  obtain ⟨first, second, rfl⟩ := List.length_eq_two.mp hturns.length_eq
  simp only [List.map_cons, List.map_nil, List.forall_mem_cons] at hhigh
  simp only [List.map_cons, List.map_nil, List.sum_pair] at hsum
  simp only [List.map_cons, List.map_nil, List.prod_pair]
  rw [hhigh.1.bitLength_mul hhigh.2.1, hsum]

/-- If their product has the right size, only equal primes and an exponent that shares a factor with
one of them less one make a pass fail. -/
theorem assess_eq_none_iff {exponent : ℕ} (hne : primes ≠ []) (hthree : ∀ p ∈ primes, 3 ≤ p)
    (hsize : bitLength primes.prod = size) :
    assess size exponent primes = none ↔
      ¬primes.Nodup ∨ ¬exponent.Coprime (totient primes) := by
  rw [← not_and_or, ← not_iff_not, not_not, ← ne_eq, Option.ne_none_iff_exists',
    exists_assess_eq_some_iff hne hthree, and_iff_right hsize]

/-- **The sizes of the primes split the total exactly.** Let the source answer with numbers of the
requested size. A pass asks for a prime of fewer than two bits exactly if there are fewer than two
bits for each prime, which is so if the exact total has too few of them or is too large for a word.
Otherwise the total is exact, and the pass gets its primes as long as there are answers. Then the
sizes that it asks for ascend, each of them is an even share of the total, rounded down or up, they
add up to the total, and no answer takes more bits than remain. The product of the primes has at
most as many bits as the total. Two primes with their two highest bits set always have a product of
the size of the modulus, and the pass fails for other reasons only. -/
theorem prime_sizes_split_total {σ : Type} (source : PrimeSource σ) (count size : ℕ) (state : σ)
    (hcount : 2 ≤ count) (hsource : source.Exact) :
    (drawPrimes source count (totalSize count size) state = .error .primeTooSmall ↔
      totalSize count size < 2 * count) ∧
    (size < wordBound →
      (totalSize count size < 2 * count ↔
        exactTotal count size < 2 * count ∨ wordBound ≤ exactTotal count size) ∧
      (2 * count ≤ totalSize count size → totalSize count size = exactTotal count size)) ∧
    (2 * count ≤ totalSize count size →
      (∀ k state, 2 ≤ k → ∃ answer, source.draw k state = some answer) →
      ∃ primes next, drawPrimes source count (totalSize count size) state = .ok (primes, next)) ∧
    ∀ primes next, drawPrimes source count (totalSize count size) state = .ok (primes, next) →
      (∃ turns, Turns source count (totalSize count size) state turns next ∧
        turns.map Turn.prime = primes ∧
        (turns.map Turn.size).Pairwise (· ≤ ·) ∧
        (∀ turn ∈ turns, turn.size = totalSize count size / count ∨
          turn.size = totalSize count size ⌈/⌉ count) ∧
        (turns.map Turn.size).sum = totalSize count size ∧
        ∀ turn ∈ turns, bitLength turn.prime ≤ turn.remaining) ∧
      bitLength (productOf primes) ≤ totalSize count size ∧
      (count = 2 → (∀ p ∈ primes, HasTopBits p) →
        bitLength (productOf primes) = size ∧
        ∀ exponent, assess size exponent primes = none ↔
          ¬primes.Nodup ∨ ¬exponent.Coprime (totient primes)) := by
  have hpos : 0 < count := by omega
  refine ⟨?_, fun hword => ⟨totalSize_lt_iff hword, totalSize_eq_of_two_mul_le hword⟩,
    fun htotal hanswers => exists_drawPrimes_eq_ok hsource hanswers htotal state, ?_⟩
  · constructor
    · intro h
      by_contra htotal
      exact drawPrimes_ne_primeTooSmall hsource (not_lt.mp htotal) h
    · exact drawPrimes_eq_primeTooSmall hpos
  · intro primes next h
    obtain ⟨turns, hturns, rfl⟩ := drawPrimes_eq_ok_iff_turns.mp h
    have hsizes := hturns.sizes_eq hsource
    rw [productOf_eq_prod]
    refine ⟨⟨turns, hturns, rfl, ?_, ?_, ?_, ?_⟩, ?_, ?_⟩
    · rw [hsizes]
      exact pairwise_shares _ hpos
    · intro turn hturn
      exact eq_of_mem_shares _ hpos (hsizes ▸ List.mem_map_of_mem hturn)
    · rw [hsizes, sum_shares _ hpos]
    · intro turn hturn
      exact (hturns.bitLength_eq hsource turn hturn).trans_le (hturns.size_le turn hturn)
    · exact hturns.bitLength_prod_le hpos hsource
    · rintro rfl hhigh
      have hsize : bitLength (turns.map Turn.prime).prod = size :=
        bitLength_prod_of_two hsource h hhigh
      exact ⟨hsize, fun exponent =>
        assess_eq_none_iff (hturns.primes_ne_nil hpos) (fun p hp => (hhigh p hp).three_le) hsize⟩

/-- For a modulus of 29 bits seven primes share 30 bits, and for one of 13 bits the product of two
primes has all of them. -/
theorem replayed_primes_split_total :
    drawPrimes .replay 7 (totalSize 7 29) [13, 13, 13, 13, 13, 29, 31] =
      .ok ([13, 13, 13, 13, 13, 29, 31], []) ∧
    bitLength (productOf [13, 13, 13, 13, 13, 29, 31]) ≤ 30 ∧
    drawPrimes .replay 2 (totalSize 2 13) [53, 97] = .ok ([53, 97], []) ∧
    bitLength (productOf [53, 97]) = 13 := by
  have hexact := PrimeSource.replay_sound.exact
  have hseven : drawPrimes .replay 7 (totalSize 7 29) [13, 13, 13, 13, 13, 29, 31] =
      .ok ([13, 13, 13, 13, 13, 29, 31], []) := PrimeSource.replay_drawPrimes (by decide)
  have htwo : drawPrimes .replay 2 (totalSize 2 13) [53, 97] = .ok ([53, 97], []) :=
    PrimeSource.replay_drawPrimes (by decide)
  obtain ⟨-, -, -, hsplit⟩ := prime_sizes_split_total .replay 7 29 [13, 13, 13, 13, 13, 29, 31]
    (by decide) hexact
  obtain ⟨-, -, -, hpair⟩ := prime_sizes_split_total .replay 2 13 [53, 97] le_rfl hexact
  exact ⟨hseven, (hsplit _ _ hseven).2.1, htwo,
    ((hpair _ _ htwo).2.2 rfl (by decide)).1⟩

end Pass

end WebKey.Generation
