/-
The sizes of the primes of a pass.

Each prime is asked for with an even share of the bits that remain. If the source answers with
exactly so many bits, what remains does not depend on the answers, and neither do the sizes.
They differ by one bit at most, and the smaller ones come first.

The total that is shared out is a sum. If a word does not hold it, too few bits are kept for even
the first prime.

* **`exactTotal`** and **`totalSize_lt_iff`** — the total as it is meant, and what is kept of it;
* **`shares`** — the sizes, one after the other, and all at once in `shares_eq`;
* **`drawPrimes_eq_ok_iff`** — the primes of a pass are the answers to these sizes;
* **`search_eq_primeTooSmall`** and **`search_ne_primeTooSmall`** — which passes ask for a prime
  of fewer than two bits.
-/
import WebKey.Proofs.Generation.Pass

namespace WebKey.Generation

/-! ### The total -/

/-- What the sizes of the primes are meant to add up to, whether or not a word holds it. -/
def exactTotal (count size : ℕ) : ℕ :=
  if 7 ≤ count then size + (count - 2) / 5 else size

section Total

variable {count size : ℕ}

theorem totalSize_of_lt (hcount : count < 7) : totalSize count size = size :=
  if_neg (not_le.mpr hcount)

theorem totalSize_eq_exactTotal (h : exactTotal count size < wordBound) :
    totalSize count size = exactTotal count size := by
  rw [totalSize, exactTotal]
  by_cases hcount : 7 ≤ count
  · rw [exactTotal, if_pos hcount] at h
    rw [if_pos hcount, if_pos hcount, addSizes, Nat.mod_eq_of_lt h]
  · rw [if_neg hcount, if_neg hcount]

/-- Of a sum that no word holds, less than one bit is kept for each prime. -/
theorem totalSize_lt_of_wordBound_le (hsize : size < wordBound)
    (h : wordBound ≤ exactTotal count size) : totalSize count size < count := by
  by_cases hcount : 7 ≤ count
  · rw [exactTotal, if_pos hcount] at h
    rw [totalSize, if_pos hcount, addSizes, Nat.mod_eq_sub_mod h]
    have hle := Nat.mod_le (size + (count - 2) / 5 - wordBound) wordBound
    omega
  · rw [exactTotal, if_neg hcount] at h
    exact absurd h (not_le.mpr hsize)

/-- The total is too small for the primes if the exact one is, or if a word does not hold it. So it
makes no difference to the requests that fail whether such a sum is an error already. -/
theorem totalSize_lt_iff (hsize : size < wordBound) :
    totalSize count size < 2 * count ↔
      exactTotal count size < 2 * count ∨ wordBound ≤ exactTotal count size := by
  rcases Nat.lt_or_ge (exactTotal count size) wordBound with hfits | hlarge
  · rw [totalSize_eq_exactTotal hfits, or_iff_left (not_le.mpr hfits)]
  · have hlt := totalSize_lt_of_wordBound_le hsize hlarge
    exact iff_of_true (by omega) (.inr hlarge)

/-- With two bits for each prime nothing has been lost. -/
theorem totalSize_eq_of_two_mul_le (hsize : size < wordBound)
    (h : 2 * count ≤ totalSize count size) : totalSize count size = exactTotal count size := by
  refine totalSize_eq_exactTotal (not_le.mp fun hlarge => ?_)
  exact absurd ((totalSize_lt_iff hsize).mpr (.inr hlarge)) (not_lt.mpr h)

/-- Seven primes for a modulus of the largest size: one bit is added, and none is kept. -/
example : totalSize 7 (wordBound - 1) = 0 := by decide

end Total

/-! ### Even shares -/

/-- So many shares of the total, each of them an even share of what remains. -/
def shares : (count total : ℕ) → List ℕ
  | 0, _ => []
  | count + 1, total => total / (count + 1) :: shares count (total - total / (count + 1))

theorem length_shares (count total : ℕ) : (shares count total).length = count := by
  induction count generalizing total with
  | zero => rfl
  | succ count ih => rw [shares, List.length_cons, ih]

/-- The remainder of the division goes to the last shares, one each. -/
theorem shares_mul_add {count : ℕ} (k : ℕ) {r : ℕ} (hr : r < count) :
    shares count (count * k + r) =
      List.replicate (count - r) k ++ List.replicate r (k + 1) := by
  induction count generalizing k r with
  | zero => exact absurd hr r.not_lt_zero
  | succ count ih =>
    have hrest : (count + 1) * k + r - k = count * k + r := by
      rw [Nat.succ_mul]
      omega
    rw [shares, Nat.mul_add_div count.succ_pos, Nat.div_eq_of_lt hr, Nat.add_zero, hrest]
    rcases (Nat.lt_succ_iff.mp hr).lt_or_eq with hless | rfl
    · rw [ih k hless, Nat.succ_sub hless.le, List.replicate_succ, List.cons_append]
    · -- each of the shares that are left gets one of the remainder
      rw [Nat.add_sub_cancel_left, List.replicate_one, List.singleton_append, ← Nat.mul_succ]
      cases r with
      | zero => rfl
      | succ r =>
        rw [← Nat.add_zero ((r + 1) * k.succ), ih k.succ r.succ_pos, List.replicate_zero,
          List.append_nil]
        rfl

theorem shares_eq {count : ℕ} (total : ℕ) (hcount : 0 < count) :
    shares count total = List.replicate (count - total % count) (total / count) ++
      List.replicate (total % count) (total / count + 1) := by
  rw [← shares_mul_add (total / count) (Nat.mod_lt total hcount), Nat.div_add_mod]

theorem mul_add_mul_mod {count : ℕ} (total : ℕ) (hcount : 0 < count) :
    total / count * (count - total % count) + (total / count + 1) * (total % count) = total := by
  have hle := (Nat.mod_lt total hcount).le
  calc total / count * (count - total % count) + (total / count + 1) * (total % count)
      = total / count * (count - total % count + total % count) + total % count := by ring
    _ = total := by rw [Nat.sub_add_cancel hle, Nat.div_add_mod']

/-- No bit of the total is lost, and none is asked for twice. -/
theorem sum_shares {count : ℕ} (total : ℕ) (hcount : 0 < count) :
    (shares count total).sum = total := by
  rw [shares_eq total hcount, List.sum_append, List.sum_replicate, List.sum_replicate,
    smul_eq_mul, smul_eq_mul, mul_comm, mul_comm (total % count), mul_add_mul_mod total hcount]

/-- With two bits for each share, the first one has two bits, and it leaves two for each other. -/
theorem two_le_share {count total : ℕ} (htotal : 2 * (count + 1) ≤ total) :
    2 ≤ total / (count + 1) ∧ 2 * count ≤ total - total / (count + 1) := by
  have hsize : 2 ≤ total / (count + 1) := (Nat.le_div_iff_mul_le count.succ_pos).mpr htotal
  have hmul := Nat.mul_div_le total (count + 1)
  have hle : 2 * count ≤ count * (total / (count + 1)) := by
    rw [Nat.mul_comm 2]
    exact Nat.mul_le_mul_left count hsize
  rw [Nat.succ_mul] at hmul
  exact ⟨hsize, by omega⟩

theorem forall₂_replicate_iff {r : ℕ → ℕ → Prop} {count x : ℕ} {ys : List ℕ} :
    List.Forall₂ r (List.replicate count x) ys ↔ ys.length = count ∧ ∀ y ∈ ys, r x y := by
  induction count generalizing ys with
  | zero =>
    rw [List.replicate_zero, List.forall₂_nil_left_iff, List.length_eq_zero_iff]
    exact ⟨fun h => ⟨h, by simp [h]⟩, fun h => h.1⟩
  | succ count ih =>
    rw [List.replicate_succ, List.forall₂_cons_left_iff]
    cases ys with
    | nil => simp
    | cons y rest => simp [ih, and_left_comm]

/-- What holds for the shares holds for those in front and for those at the back. -/
theorem forall₂_shares_iff {r : ℕ → ℕ → Prop} {count total : ℕ} {ys : List ℕ}
    (hcount : 0 < count) :
    List.Forall₂ r (shares count total) ys ↔
      ∃ front back, ys = front ++ back ∧
        (front.length = count - total % count ∧ ∀ y ∈ front, r (total / count) y) ∧
        (back.length = total % count ∧ ∀ y ∈ back, r (total / count + 1) y) := by
  rw [shares_eq total hcount]
  simp only [← forall₂_replicate_iff]
  constructor
  · intro h
    refine ⟨ys.take (count - total % count), ys.drop (count - total % count),
      (List.take_append_drop _ ys).symm, ?_, ?_⟩
    · have hfront := List.forall₂_take (count - total % count) h
      rwa [List.take_left' List.length_replicate] at hfront
    · have hback := List.forall₂_drop (count - total % count) h
      rwa [List.drop_left' List.length_replicate] at hback
  · rintro ⟨front, back, rfl, hfront, hback⟩
    exact List.rel_append hfront hback

/-! ### A pass -/

/-- The source answers with numbers of the requested size. -/
def PrimeSource.Exact {σ : Type} (source : PrimeSource σ) : Prop :=
  ∀ (size : ℕ) (state : σ) (p : ℕ) (next : σ), 2 ≤ size →
    source.draw size state = some (p, next) → bitLength p = size

theorem PrimeSource.Sound.exact {σ : Type} {source : PrimeSource σ} (h : source.Sound) :
    source.Exact :=
  fun size state p next hsize hdraw => (h size state p next hsize hdraw).bitLength_eq

section Pass

variable {σ : Type} {source : PrimeSource σ} {count size exponent total : ℕ} {state next : σ}
  {primes : List ℕ}

/-- The primes of a pass are what the source answers to the shares. -/
theorem drawPrimes_eq_ok_iff (hsource : source.Exact) :
    drawPrimes source count total state = .ok (primes, next) ↔
      ∃ draws, source.Draws state draws next ∧ draws.map Prod.fst = shares count total ∧
        draws.map Prod.snd = primes := by
  induction count generalizing total state primes with
  | zero =>
    constructor
    · intro h
      obtain ⟨rfl, rfl⟩ := Prod.mk.inj (Except.ok.inj h)
      exact ⟨[], .nil state, rfl, rfl⟩
    · rintro ⟨draws, hdraws, hsizes, rfl⟩
      obtain rfl := List.map_eq_nil_iff.mp hsizes
      cases hdraws
      rfl
  | succ count ih =>
    rw [drawPrimes_succ_eq_ok_iff, shares]
    constructor
    · rintro ⟨hsize, p, mid, rest, hdraw, hrest, rfl⟩
      rw [hsource _ _ _ _ hsize hdraw] at hrest
      obtain ⟨draws, hdraws, hsizes, rfl⟩ := ih.mp hrest
      exact ⟨_ :: draws, .cons hsize hdraw hdraws, by rw [List.map_cons, hsizes], rfl⟩
    · rintro ⟨draws, hdraws, hsizes, rfl⟩
      cases hdraws with
      | nil => exact absurd hsizes (by simp)
      | @cons size p _ mid _ draws hsize hdraw hdraws =>
        obtain ⟨rfl, hrest⟩ := List.cons.inj hsizes
        refine ⟨hsize, p, mid, draws.map Prod.snd, hdraw, ?_, rfl⟩
        rw [hsource _ _ _ _ hsize hdraw]
        exact ih.mpr ⟨draws, hdraws, hrest, rfl⟩

/-- A share of fewer than two bits ends a pass at its first prime. -/
theorem drawPrimes_eq_primeTooSmall (hcount : 0 < count) (htotal : total < 2 * count) :
    drawPrimes source count total state = .error .primeTooSmall := by
  cases count with
  | zero => exact absurd hcount (lt_irrefl 0)
  | succ count =>
    rw [drawPrimes]
    exact if_pos (Nat.div_lt_of_lt_mul (by omega))

theorem drawPrimes_ne_primeTooSmall (hsource : source.Exact) (htotal : 2 * count ≤ total) :
    drawPrimes source count total state ≠ .error .primeTooSmall := by
  induction count generalizing total state with
  | zero => exact fun h => absurd h (by simp [drawPrimes])
  | succ count ih =>
    obtain ⟨hsize, hrest⟩ := two_le_share htotal
    simp only [drawPrimes, if_neg (not_lt.mpr hsize)]
    cases hdraw : source.draw (total / (count + 1)) state with
    | none => simp
    | some answer =>
      obtain ⟨p, mid⟩ := answer
      simp only [hsource _ _ _ _ hsize hdraw]
      exact bind_ne_error (ih hrest) fun _ => ok_ne_error

/-! ### The loop -/

theorem search_eq_primeTooSmall {passes : ℕ} (hcount : 0 < count) (hpasses : 0 < passes)
    (htotal : totalSize count size < 2 * count) :
    search source count size exponent passes state = .error .primeTooSmall := by
  cases passes with
  | zero => exact absurd hpasses (lt_irrefl 0)
  | succ passes =>
    rw [search, drawPrimes_eq_primeTooSmall hcount htotal]
    rfl

theorem search_ne_primeTooSmall (hsource : source.Exact) (passes : ℕ)
    (htotal : 2 * count ≤ totalSize count size) :
    search source count size exponent passes state ≠ .error .primeTooSmall := by
  induction passes generalizing state with
  | zero => exact fun h => absurd h (by simp [search])
  | succ passes ih =>
    rw [search]
    refine bind_ne_error (drawPrimes_ne_primeTooSmall hsource htotal) fun result => ?_
    obtain ⟨primes, mid⟩ := result
    dsimp only
    cases assess size exponent primes with
    | none => exact ih
    | some components => exact ok_ne_error

end Pass

end WebKey.Generation
