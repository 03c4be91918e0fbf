/-
One pass of key generation.

Nothing is known about the primes but what the source promises: a sound source answers with
primes of the requested size that have their two highest bits set. Such primes are at least
three, and this is all that a pass needs for its results to make a consistent key.

* **`PrimeSource.Draws`** — what the source is asked for and what it answers, in order;
* **`exists_draws_of_drawPrimes`** — the primes of a pass are answers of the source;
* **`assess_eq_some_iff`**, **`exists_assess_eq_some_iff`** — what a pass tests, and the numbers
  that it makes;
* **`isComplete_of_assess`** — the numbers of a pass that succeeds.
-/
import Mathlib
import WebKey.Generation.KeyPair
import WebKey.Proofs.Rsa.Consistency

namespace WebKey.Generation

/-! ### Sources of primes -/

/-- A prime of exactly `size` bits with its two highest bits set. -/
structure HighPrime (size p : ℕ) : Prop where
  prime : p.Prime
  bitLength_eq : bitLength p = size
  high : p / 2 ^ (size - 2) = 3

theorem HighPrime.three_le {size p : ℕ} (h : HighPrime size p) : 3 ≤ p :=
  h.high ▸ Nat.div_le_self p (2 ^ (size - 2))

namespace PrimeSource

variable {σ : Type}

/-- The source answers with primes of the requested size that have their two highest bits set. -/
def Sound (source : PrimeSource σ) : Prop :=
  ∀ (size : ℕ) (state : σ) (p : ℕ) (next : σ), 2 ≤ size →
    source.draw size state = some (p, next) → HighPrime size p

/-- Asked for the sizes on the left one after the other, the source gives the answers on the
right. -/
inductive Draws (source : PrimeSource σ) : σ → List (ℕ × ℕ) → σ → Prop where
  | nil (state : σ) : Draws source state [] state
  | cons {size p : ℕ} {state mid next : σ} {rest : List (ℕ × ℕ)} (hsize : 2 ≤ size)
      (hdraw : source.draw size state = some (p, mid)) (hrest : Draws source mid rest next) :
      Draws source state ((size, p) :: rest) next

namespace Draws

variable {source : PrimeSource σ} {state mid next : σ} {draws later : List (ℕ × ℕ)}

theorem append (h : Draws source state draws mid) (hlater : Draws source mid later next) :
    Draws source state (draws ++ later) next := by
  induction h with
  | nil state => exact hlater
  | cons hsize hdraw _ ih => exact .cons hsize hdraw (ih hlater)

theorem highPrime (hsource : source.Sound) (h : Draws source state draws next) :
    ∀ draw ∈ draws, HighPrime draw.1 draw.2 := by
  induction h with
  | nil state => simp
  | cons hsize hdraw _ ih =>
    rw [List.forall_mem_cons]
    exact ⟨hsource _ _ _ _ hsize hdraw, ih⟩

end Draws

end PrimeSource

/-! ### Drawing the primes -/

section drawPrimes

variable {σ : Type} {source : PrimeSource σ} {count remaining : ℕ} {state next : σ}
  {primes : List ℕ}

/-- One prime is drawn with its share of the bits, and the rest with the bits it leaves. -/
theorem drawPrimes_succ_eq_ok_iff :
    drawPrimes source (count + 1) remaining state = .ok (primes, next) ↔
      2 ≤ remaining / (count + 1) ∧ ∃ p mid rest,
        source.draw (remaining / (count + 1)) state = some (p, mid) ∧
        drawPrimes source count (remaining - bitLength p) mid = .ok (rest, next) ∧
        primes = p :: rest := by
  simp only [drawPrimes]
  rw [ite_error_eq_ok_iff, not_lt]
  refine and_congr_right fun _ => ?_
  cases source.draw (remaining / (count + 1)) state with
  | none => simp
  | some answer =>
    obtain ⟨p, mid⟩ := answer
    simp only [bind_eq_ok_iff]
    constructor
    · rintro ⟨⟨rest, last⟩, hrest, hok⟩
      obtain ⟨rfl, rfl⟩ := Prod.mk.inj (Except.ok.inj hok)
      exact ⟨p, mid, rest, rfl, hrest, rfl⟩
    · rintro ⟨p', mid', rest, hdraw, hrest, rfl⟩
      obtain ⟨rfl, rfl⟩ := Prod.mk.inj (Option.some_inj.mp hdraw)
      exact ⟨(rest, next), hrest, rfl⟩

/-- The primes of a pass are as many answers of the source as were asked for, in order. -/
theorem exists_draws_of_drawPrimes
    (h : drawPrimes source count remaining state = .ok (primes, next)) :
    ∃ draws, source.Draws state draws next ∧ draws.map Prod.snd = primes ∧
      draws.length = count := by
  induction count generalizing remaining state primes with
  | zero =>
    obtain ⟨rfl, rfl⟩ := Prod.mk.inj (Except.ok.inj h)
    exact ⟨[], .nil state, rfl, rfl⟩
  | succ count ih =>
    obtain ⟨hsize, p, mid, rest, hdraw, hrest, rfl⟩ := drawPrimes_succ_eq_ok_iff.mp h
    obtain ⟨draws, hdraws, hmap, hlength⟩ := ih hrest
    refine ⟨_, .cons hsize hdraw hdraws, ?_, ?_⟩
    · rw [List.map_cons, hmap]
    · rw [List.length_cons, hlength]

end drawPrimes

/-! ### Assessing the primes -/

theorem totient_eq_prod (primes : List ℕ) : totient primes = (primes.map (· - 1)).prod :=
  productOf_eq_prod _

/-- Modulo the totient there is more than one remainder, so inverses are what they should be. -/
theorem one_lt_totient {primes : List ℕ} (hne : primes ≠ []) (hthree : ∀ p ∈ primes, 3 ≤ p) :
    1 < totient primes := by
  rw [totient_eq_prod]
  cases primes with
  | nil => exact absurd rfl hne
  | cons p rest =>
    rw [List.forall_mem_cons] at hthree
    have hrest : 0 < (rest.map (· - 1)).prod := by
      refine List.prod_pos fun m hm => ?_
      obtain ⟨r, hr, rfl⟩ := List.mem_map.mp hm
      have := hthree.2 r hr
      omega
    rw [List.map_cons, List.prod_cons]
    have hp : 2 ≤ p - 1 := by omega
    calc 1 < (p - 1) * 1 := by omega
      _ ≤ (p - 1) * (rest.map (· - 1)).prod := Nat.mul_le_mul_left _ hrest

/-- The primes have to differ and to give a modulus of the right size, and the public exponent
needs an inverse modulo the totient. -/
theorem assess_eq_some_iff {size exponent : ℕ} {primes : List ℕ} {components : Components}
    (htotient : 1 < totient primes) :
    assess size exponent primes = some components ↔
      primes.Nodup ∧ bitLength primes.prod = size ∧
      ∃ d, IsInverse exponent (totient primes) d ∧
        components = ⟨primes.prod, exponent, d, primes⟩ := by
  rw [assess, productOf_eq_prod]
  split
  · rename_i hprimes
    rw [Option.map_eq_some_iff]
    constructor
    · rintro ⟨d, hd, rfl⟩
      exact ⟨hprimes.1, hprimes.2, d, (inverse?_eq_some_iff htotient).mp hd, rfl⟩
    · rintro ⟨-, -, d, hd, rfl⟩
      exact ⟨d, (inverse?_eq_some_iff htotient).mpr hd, rfl⟩
  · rename_i hprimes
    constructor
    · intro h
      exact absurd h (by simp)
    · rintro ⟨hnodup, hsize, -⟩
      exact absurd ⟨hnodup, hsize⟩ hprimes

/-- A pass succeeds if the primes differ, their product has the right size and the public exponent
is coprime to the totient. -/
theorem exists_assess_eq_some_iff {size exponent : ℕ} {primes : List ℕ} (hne : primes ≠ [])
    (hthree : ∀ p ∈ primes, 3 ≤ p) :
    (∃ components, assess size exponent primes = some components) ↔
      primes.Nodup ∧ bitLength primes.prod = size ∧ exponent.Coprime (totient primes) := by
  have htotient := one_lt_totient hne hthree
  simp only [assess_eq_some_iff htotient]
  constructor
  · rintro ⟨components, hnodup, hsize, d, hd, -⟩
    exact ⟨hnodup, hsize, hd.coprime⟩
  · rintro ⟨hnodup, hsize, hcoprime⟩
    obtain ⟨d, hd⟩ := IsInverse.exists_of_coprime htotient hcoprime
    exact ⟨_, hnodup, hsize, d, hd, rfl⟩

/-- The numbers of a key with so many different primes, a modulus of `size` bits and this public
exponent. -/
structure Components.IsComplete (count size exponent : ℕ) (components : Components) : Prop where
  length_eq : components.primes.length = count
  prime : ∀ p ∈ components.primes, p.Prime
  three_le : ∀ p ∈ components.primes, 3 ≤ p
  nodup : components.primes.Nodup
  n_eq : components.n = components.primes.prod
  bitLength_n : bitLength components.n = size
  e_eq : components.e = exponent
  d_pos : 0 < components.d
  d_lt : components.d < (components.primes.map (· - 1)).prod
  mul_modEq_one : exponent * components.d ≡ 1 [MOD (components.primes.map (· - 1)).prod]

/-- A pass that succeeds makes the numbers of a key. -/
theorem isComplete_of_assess {count size exponent : ℕ} {primes : List ℕ}
    {components : Components} (hcount : 1 ≤ count) (hlength : primes.length = count)
    (hhigh : ∀ p ∈ primes, ∃ bits, HighPrime bits p)
    (h : assess size exponent primes = some components) :
    components.primes = primes ∧ components.IsComplete count size exponent := by
  have hne : primes ≠ [] := by
    rintro rfl
    rw [List.length_nil] at hlength
    omega
  have hprime : ∀ p ∈ primes, p.Prime := by
    intro p hp
    obtain ⟨bits, hbits⟩ := hhigh p hp
    exact hbits.prime
  have hthree : ∀ p ∈ primes, 3 ≤ p := by
    intro p hp
    obtain ⟨bits, hbits⟩ := hhigh p hp
    exact hbits.three_le
  obtain ⟨hnodup, hsize, d, hd, rfl⟩ := (assess_eq_some_iff (one_lt_totient hne hthree)).mp h
  rw [totient_eq_prod] at hd
  exact ⟨rfl, hlength, hprime, hthree, hnodup, rfl, hsize, rfl, hd.one_le, hd.lt,
    hd.mul_modEq_one⟩

end WebKey.Generation
