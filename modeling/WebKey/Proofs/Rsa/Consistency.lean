/-
The private keys that the checking factory accepts.

* **`PublicKey.check_eq_ok_iff`** — the public numbers that are accepted;
* **`Consistent`** — the factors, exponents and coefficients of a key fit each other;
* **`checkFactors_eq_ok_iff`** — these are the keys that pass the check of the factors;
* **`checking_privateKey_eq_ok_iff`** — the specifications with factors that the factory
  turns into keys.

The check recomputes the values of the later primes with a running product.
`LaterConsistent` says the same by recursion on the list, and `laterConsistent_iff` turns
it into a statement about each element with the factors before it.
-/
import Mathlib
import WebKey.Proofs.Computation
import WebKey.Proofs.Rsa.Inverse
import WebKey.Rsa.KeyFactory

namespace WebKey

/-! ### Public numbers -/

theorem bitLength_le_iff {n size : ℕ} : bitLength n ≤ size ↔ n < 2 ^ size := by
  rw [bitLength]
  split
  · rename_i hn
    simp [hn]
  · rename_i hn
    rw [Nat.add_one_le_iff, Nat.log2_lt hn]

namespace PublicKey

/-- An odd modulus, at least three and of at most `maxSize` bits. -/
@[mk_iff]
structure GoodModulus (maxSize n : ℕ) : Prop where
  lt_two_pow : n < 2 ^ maxSize
  three_le : 3 ≤ n
  odd : Odd n

/-- A public exponent within its bounds. -/
@[mk_iff]
structure GoodExponent (e : ℕ) : Prop where
  two_le : 2 ≤ e
  le_max : e ≤ 2 ^ 33 - 1

instance (maxSize n : ℕ) : Decidable (GoodModulus maxSize n) :=
  decidable_of_iff' _ (goodModulus_iff maxSize n)

instance (e : ℕ) : Decidable (GoodExponent e) := decidable_of_iff' _ (goodExponent_iff e)

theorem checkModulus_eq_ok_iff {maxSize n : ℕ} :
    checkModulus maxSize n = .ok () ↔ GoodModulus maxSize n := by
  rw [checkModulus, ite_error_eq_ok_iff, ite_error_eq_ok_iff, not_lt, bitLength_le_iff]
  constructor
  · rintro ⟨hsize, hgood, -⟩
    exact ⟨hsize, by omega, Nat.odd_iff.mpr (by omega)⟩
  · rintro ⟨hsize, hthree, hodd⟩
    have := Nat.odd_iff.mp hodd
    exact ⟨hsize, by omega, rfl⟩

theorem check_eq_ok_iff {maxSize n e : ℕ} :
    check maxSize n e = .ok () ↔ GoodModulus maxSize n ∧ GoodExponent e := by
  rw [check, check_bind_eq_ok_iff, checkModulus_eq_ok_iff, ite_error_eq_ok_iff,
    ite_error_eq_ok_iff, not_lt, not_lt]
  constructor
  · rintro ⟨hn, htwo, hmax, -⟩
    exact ⟨hn, htwo, hmax⟩
  · rintro ⟨hn, htwo, hmax⟩
    exact ⟨hn, htwo, hmax, rfl⟩

theorem ofNumbers_eq_ok_iff {maxSize n e : ℕ} {key : PublicKey} :
    ofNumbers maxSize n e = .ok key ↔ (GoodModulus maxSize n ∧ GoodExponent e) ∧ key = ⟨n, e⟩ := by
  rw [ofNumbers, check_bind_eq_ok_iff, check_eq_ok_iff]
  constructor
  · rintro ⟨hgood, hok⟩
    exact ⟨hgood, (Except.ok.inj hok).symm⟩
  · rintro ⟨hgood, rfl⟩
    exact ⟨hgood, rfl⟩

end PublicKey

/-! ### Factors and their values -/

theorem productOf_eq_prod (factors : List ℕ) : productOf factors = factors.prod := by
  rw [productOf, List.prod_eq_foldl_nat]

/-- The factors of a key, in order. -/
def factorsOf (crt : CrtValues) (others : List OtherPrime) : List ℕ :=
  crt.p :: crt.q :: others.map OtherPrime.prime

/-- The test that every factor is at least two, which is made twice. -/
theorem not_any_le_one_iff {factors : List ℕ} :
    ¬factors.any (· ≤ 1) = true ↔ ∀ r ∈ factors, 2 ≤ r := by
  simp only [List.any_eq_true, decide_eq_true_eq, not_exists, not_and, not_le]
  rfl

/-- The factors, exponents and coefficients of a key fit each other. -/
structure Consistent (n e d : ℕ) (crt : CrtValues) (others : List OtherPrime) : Prop where
  two_le : ∀ r ∈ factorsOf crt others, 2 ≤ r
  prod_eq : (factorsOf crt others).prod = n
  pairwise_coprime : (factorsOf crt others).Pairwise Nat.Coprime
  mul_modEq_one : ∀ r ∈ factorsOf crt others, 2 ≤ r - 1 ∧ e * d ≡ 1 [MOD r - 1]
  dp_eq : crt.dp = d % (crt.p - 1)
  dq_eq : crt.dq = d % (crt.q - 1)
  qi_inverse : IsInverse crt.q crt.p crt.qi
  exponent_eq : ∀ i (hi : i < others.length), others[i].exponent = d % (others[i].prime - 1)
  coefficient_inverse : ∀ i (hi : i < others.length),
    IsInverse ((factorsOf crt others).take (i + 2)).prod others[i].prime others[i].coefficient

/-- A private exponent that is inverse to the public one modulo a factor less one does not
vanish there. -/
theorem Consistent.mod_pred_ne_zero {n e d r : ℕ} {crt : CrtValues} {others : List OtherPrime}
    (h : Consistent n e d crt others) (hr : r ∈ factorsOf crt others) : d % (r - 1) ≠ 0 := by
  intro hd
  obtain ⟨hpred, hone⟩ := h.mul_modEq_one r hr
  have hzero : e * d ≡ 0 [MOD r - 1] :=
    (Nat.modEq_zero_iff_dvd.mpr (Nat.dvd_of_mod_eq_zero hd)).mul_left e
  have hdvd : r - 1 ∣ 1 := Nat.modEq_zero_iff_dvd.mp (hone.symm.trans hzero)
  exact absurd (Nat.le_of_dvd one_pos hdvd) (by omega)

/-- The values of later primes fit, where `product` is the product of all factors before
these primes. -/
def LaterConsistent (d : ℕ) : ℕ → List OtherPrime → Prop
  | _, [] => True
  | product, info :: rest =>
    info.exponent = d % (info.prime - 1) ∧ IsInverse product info.prime info.coefficient ∧
      LaterConsistent d (product * info.prime) rest

instance decidableLaterConsistent (d : ℕ) :
    ∀ (product : ℕ) (others : List OtherPrime), Decidable (LaterConsistent d product others)
  | _, [] => isTrue trivial
  | product, info :: rest =>
    have := decidableLaterConsistent d (product * info.prime) rest
    inferInstanceAs (Decidable (_ ∧ _ ∧ _))

theorem laterConsistent_iff {d product : ℕ} {others : List OtherPrime} :
    LaterConsistent d product others ↔
      (∀ i (hi : i < others.length), others[i].exponent = d % (others[i].prime - 1)) ∧
      ∀ i (hi : i < others.length),
        IsInverse (product * ((others.map OtherPrime.prime).take i).prod) others[i].prime
          others[i].coefficient := by
  induction others generalizing product with
  | nil => simp [LaterConsistent]
  | cons info rest ih =>
    rw [LaterConsistent, ih]
    -- position `i` of the rest is position `i + 1` of the list, and `info.prime` moves from
    -- the product of the rest to the factors before that position
    constructor
    · rintro ⟨hexp, hinv, hexps, hinvs⟩
      constructor
      · intro i hi
        cases i with
        | zero => exact hexp
        | succ i => exact hexps i (by simpa using hi)
      · intro i hi
        cases i with
        | zero => simpa using hinv
        | succ i => simpa [mul_assoc] using hinvs i (by simpa using hi)
    · rintro ⟨hexps, hinvs⟩
      have hinv : IsInverse (product * 1) info.prime info.coefficient := hinvs 0 (by simp)
      rw [mul_one] at hinv
      refine ⟨hexps 0 (by simp), hinv, fun i hi => hexps (i + 1) (by simpa using hi), ?_⟩
      intro i hi
      rw [mul_assoc]
      exact hinvs (i + 1) (by simpa using hi)

namespace LaterConsistent

variable {d product : ℕ} {others : List OtherPrime}

/-- Every later prime is coprime to the product of the factors before all of them. -/
theorem coprime (h : LaterConsistent d product others) :
    ∀ r ∈ others.map OtherPrime.prime, product.Coprime r := by
  induction others generalizing product with
  | nil => simp
  | cons info rest ih =>
    obtain ⟨-, hinv, hrest⟩ := h
    rw [List.map_cons, List.forall_mem_cons]
    refine ⟨hinv.coprime, fun r hr => ?_⟩
    -- the rest is coprime to a product that `product` divides
    exact (ih hrest r hr).coprime_mul_right

theorem pairwise_coprime (h : LaterConsistent d product others) :
    (others.map OtherPrime.prime).Pairwise Nat.Coprime := by
  induction others generalizing product with
  | nil => simp
  | cons info rest ih =>
    obtain ⟨-, -, hrest⟩ := h
    rw [List.map_cons, List.pairwise_cons]
    exact ⟨fun r hr => (hrest.coprime r hr).coprime_mul_left, ih hrest⟩

end LaterConsistent

/-! ### The check of the factors -/

/-- Computing the values of the later primes and comparing them with those at hand succeeds
exactly when these are consistent. -/
theorem checkOthers_otherPrimes_iff {d product : ℕ} {others : List OtherPrime}
    (htwo : ∀ r ∈ others.map OtherPrime.prime, 2 ≤ r) :
    (∃ expected, otherPrimes d product (others.map OtherPrime.prime) = .ok expected ∧
      checkOthers expected others = .ok ()) ↔ LaterConsistent d product others := by
  induction others generalizing product with
  | nil => simp [otherPrimes, checkOthers, LaterConsistent]
  | cons info rest ih =>
    rw [List.map_cons, List.forall_mem_cons] at htwo
    rw [LaterConsistent, ← ih htwo.2, ← inverse?_eq_some_iff (by omega), List.map_cons, otherPrimes]
    -- without an inverse neither side holds; with one, the comparison is made element by element
    cases hinv : inverse? product info.prime with
    | none => simp
    | some coefficient =>
      simp only [Option.some_inj, bind_eq_ok_iff]
      constructor
      · rintro ⟨expected, ⟨others, hothers, hexpected⟩, hcheck⟩
        rw [← Except.ok.inj hexpected, checkOthers, ite_error_eq_ok_iff, ite_error_eq_ok_iff,
          not_not, not_not] at hcheck
        obtain ⟨hexp, hcoeff, hrest⟩ := hcheck
        exact ⟨hexp.symm, hcoeff, others, hothers, hrest⟩
      · rintro ⟨hexp, hcoeff, others, hothers, hrest⟩
        refine ⟨_, ⟨others, hothers, rfl⟩, ?_⟩
        rw [checkOthers, ite_error_eq_ok_iff, ite_error_eq_ok_iff, not_not, not_not]
        exact ⟨hexp.symm, hcoeff, hrest⟩

/-- The values of a list of primes are computed when the second is invertible modulo the
first, and when the values of the later ones are. -/
theorem crtValues_eq_ok_iff {d p q : ℕ} {rest : List ℕ} {crt : CrtValues}
    {others : List OtherPrime} (htwo : ∀ r ∈ p :: q :: rest, 2 ≤ r) :
    crtValues d (p :: q :: rest) = .ok (crt, others) ↔
      ∃ qi, IsInverse q p qi ∧ otherPrimes d (p * q) rest = .ok others ∧
        crt = ⟨p, q, d % (p - 1), d % (q - 1), qi⟩ := by
  have hany : ¬(p :: q :: rest).any (· ≤ 1) = true := not_any_le_one_iff.mpr htwo
  have hp : 2 ≤ p := htwo p (by simp)
  simp only [crtValues, if_neg hany, ← inverse?_eq_some_iff (show 1 < p from hp)]
  cases inverse? q p with
  | none => simp
  | some qi =>
    simp only [Option.some_inj, bind_eq_ok_iff, exists_eq_left']
    constructor
    · rintro ⟨later, hlater, hok⟩
      obtain ⟨rfl, rfl⟩ := Prod.mk.inj (Except.ok.inj hok)
      exact ⟨hlater, rfl⟩
    · rintro ⟨hlater, rfl⟩
      exact ⟨others, hlater, rfl⟩

/-- With `LaterConsistent` for the later primes, which is how the check goes through them. -/
theorem consistent_iff {n e d : ℕ} {crt : CrtValues} {others : List OtherPrime} :
    Consistent n e d crt others ↔
      (∀ r ∈ factorsOf crt others, 2 ≤ r) ∧ (factorsOf crt others).prod = n ∧
      (∀ r ∈ factorsOf crt others, e * d % (r - 1) = 1) ∧
      (crt.dp = d % (crt.p - 1) ∧ crt.dq = d % (crt.q - 1)) ∧ IsInverse crt.q crt.p crt.qi ∧
      LaterConsistent d (crt.p * crt.q) others := by
  have htake : ∀ i, ((factorsOf crt others).take (i + 2)).prod =
      crt.p * crt.q * ((others.map OtherPrime.prime).take i).prod := by
    intro i
    simp [factorsOf, mul_assoc]
  rw [laterConsistent_iff]
  constructor
  · rintro ⟨htwo, hprod, -, hmul, hdp, hdq, hqi, hexp, hcoeff⟩
    refine ⟨htwo, hprod, fun r hr => ?_, ⟨hdp, hdq⟩, hqi, hexp, fun i hi => htake i ▸ hcoeff i hi⟩
    obtain ⟨hpred, hone⟩ := hmul r hr
    rw [hone, Nat.mod_eq_of_lt (by omega)]
  · rintro ⟨htwo, hprod, hmul, ⟨hdp, hdq⟩, hqi, hexp, hcoeff⟩
    have hlater : LaterConsistent d (crt.p * crt.q) others :=
      laterConsistent_iff.mpr ⟨hexp, hcoeff⟩
    refine ⟨htwo, hprod, ?_, fun r hr => ?_, hdp, hdq, hqi, hexp, fun i hi => ?_⟩
    · -- the first two by `qi`, the later ones by their coefficients
      rw [factorsOf, List.pairwise_cons, List.pairwise_cons, List.forall_mem_cons]
      exact ⟨⟨hqi.coprime.symm, fun r hr => (hlater.coprime r hr).coprime_mul_right⟩,
        fun r hr => (hlater.coprime r hr).coprime_mul_left, hlater.pairwise_coprime⟩
    · have hr2 := htwo r hr
      have hone := hmul r hr
      -- modulo one there is no remainder one, so the factor is not two
      have hpred : r - 1 ≠ 1 := by
        intro h
        rw [h, Nat.mod_one] at hone
        exact absurd hone zero_ne_one
      refine ⟨by omega, ?_⟩
      rw [Nat.ModEq, hone, Nat.mod_eq_of_lt (by omega)]
    · rw [htake]
      exact hcoeff i hi

instance (n e d : ℕ) (crt : CrtValues) (others : List OtherPrime) :
    Decidable (Consistent n e d crt others) :=
  decidable_of_iff' _ consistent_iff

/-- The check of the factors accepts exactly the consistent keys. -/
theorem checkFactors_eq_ok_iff {n e d : ℕ} {crt : CrtValues} {others : List OtherPrime} :
    checkFactors n e d crt others = .ok () ↔ Consistent n e d crt others := by
  have hmul : ¬(factorsOf crt others).any (fun r => decide (e * d % (r - 1) ≠ 1)) = true ↔
      ∀ r ∈ factorsOf crt others, e * d % (r - 1) = 1 := by
    simp only [List.any_eq_true, decide_eq_true_eq, not_exists, not_and, not_not]
  simp only [checkFactors, show crt.p :: crt.q :: others.map OtherPrime.prime = factorsOf crt others
    from rfl]
  rw [consistent_iff, ite_error_eq_ok_iff, ite_error_eq_ok_iff, ite_error_eq_ok_iff,
    not_any_le_one_iff, hmul, not_not, productOf_eq_prod, bind_eq_ok_iff]
  -- the first three tests are those of `consistent_iff`; what is left are the computed values
  refine and_congr_right fun htwo => and_congr_right fun _ => and_congr_right fun _ => ?_
  have hlater : ∀ r ∈ others.map OtherPrime.prime, 2 ≤ r := by
    intro r hr
    exact htwo r (List.mem_cons_of_mem _ (List.mem_cons_of_mem _ hr))
  rw [← checkOthers_otherPrimes_iff hlater]
  constructor
  · rintro ⟨⟨expected, later⟩, hvalues, hcheck⟩
    obtain ⟨qi, hqi, hothers, rfl⟩ := (crtValues_eq_ok_iff htwo).mp hvalues
    simp only [ite_error_eq_ok_iff, not_or, not_not] at hcheck
    obtain ⟨⟨hdp, hdq⟩, rfl, hcheck⟩ := hcheck
    exact ⟨⟨hdp.symm, hdq.symm⟩, hqi, later, hothers, hcheck⟩
  · rintro ⟨⟨hdp, hdq⟩, hqi, later, hothers, hcheck⟩
    refine ⟨(crt, later), (crtValues_eq_ok_iff htwo).mpr ⟨crt.qi, hqi, hothers, ?_⟩, ?_⟩
    · rw [← hdp, ← hdq]
    · simpa only [ite_error_eq_ok_iff, not_or, not_not, true_and] using hcheck

/-! ### Specifications -/

/-- What the checking factory asks of a specification. -/
def KeySpec.Acceptable (maxSize : ℕ) : KeySpec → Prop
  | .plain n d => PublicKey.GoodModulus maxSize n ∧ 0 < d ∧ d < n
  | .twoPrime n e d crt =>
    PublicKey.GoodModulus maxSize n ∧ PublicKey.GoodExponent e ∧ Consistent n e d crt []
  | .multiPrime n e d crt others =>
    others ≠ [] ∧ PublicKey.GoodModulus maxSize n ∧ PublicKey.GoodExponent e ∧
      Consistent n e d crt others

instance (maxSize : ℕ) : ∀ spec : KeySpec, Decidable (spec.Acceptable maxSize)
  | .plain .. => inferInstanceAs (Decidable (_ ∧ _ ∧ _))
  | .twoPrime .. => inferInstanceAs (Decidable (_ ∧ _ ∧ _))
  | .multiPrime .. => inferInstanceAs (Decidable (_ ∧ _ ∧ _ ∧ _))

theorem KeySpec.check_eq_ok_iff {maxSize : ℕ} {spec : KeySpec} :
    spec.check maxSize = .ok () ↔ spec.Acceptable maxSize := by
  cases spec with
  | plain n d =>
    rw [check, Acceptable, check_bind_eq_ok_iff, PublicKey.checkModulus_eq_ok_iff,
      ite_error_eq_ok_iff]
    exact and_congr_right fun _ => by simp [Nat.pos_iff_ne_zero]
  | twoPrime n e d crt =>
    rw [check, Acceptable, check_bind_eq_ok_iff, PublicKey.check_eq_ok_iff, checkFactors_eq_ok_iff,
      and_assoc]
  | multiPrime n e d crt others =>
    rw [check, Acceptable, ite_error_eq_ok_iff, check_bind_eq_ok_iff, PublicKey.check_eq_ok_iff,
      checkFactors_eq_ok_iff, List.isEmpty_iff, and_assoc]

theorem PrivateKey.ofSpec_eq_ok_iff {maxSize : ℕ} {spec : KeySpec} {key : PrivateKey} :
    ofSpec maxSize spec = .ok key ↔ spec.Acceptable maxSize ∧ key.spec = spec := by
  rw [ofSpec, check_bind_eq_ok_iff, KeySpec.check_eq_ok_iff]
  constructor
  · rintro ⟨hacceptable, hok⟩
    exact ⟨hacceptable, Except.ok.inj hok ▸ rfl⟩
  · rintro ⟨hacceptable, rfl⟩
    exact ⟨hacceptable, rfl⟩

theorem KeySpec.primes_eq_factorsOf {spec : KeySpec} {crt : CrtValues}
    (hcrt : spec.crt? = some crt) : spec.primes = factorsOf crt spec.others := by
  rw [primes, hcrt]
  rfl

theorem KeySpec.Acceptable.consistent {maxSize e : ℕ} {spec : KeySpec} {crt : CrtValues}
    (h : spec.Acceptable maxSize) (he : spec.publicExponent? = some e)
    (hcrt : spec.crt? = some crt) :
    Consistent spec.modulus e spec.privateExponent crt spec.others := by
  cases spec with
  | plain n d => exact absurd hcrt (by simp [crt?])
  | twoPrime n e' d crt' =>
    obtain rfl := Option.some_inj.mp he
    obtain rfl := Option.some_inj.mp hcrt
    exact h.2.2
  | multiPrime n e' d crt' others =>
    obtain rfl := Option.some_inj.mp he
    obtain rfl := Option.some_inj.mp hcrt
    exact h.2.2.2

/-- A small key with the factors 11, 13 and 17. -/
def PrivateKey.threeFactor : PrivateKey :=
  ⟨.multiPrime 2431 7 103 ⟨11, 13, 3, 7, 6⟩ [⟨17, 7, 5⟩]⟩

theorem PrivateKey.threeFactor_accepted :
    (KeyFactory.checking 12).privateKey threeFactor.spec = .ok threeFactor :=
  ofSpec_eq_ok_iff.mpr ⟨by decide, rfl⟩

theorem PrivateKey.threeFactor_publicKey_accepted :
    (KeyFactory.checking 12).publicKey 2431 7 = .ok ⟨2431, 7⟩ :=
  PublicKey.ofNumbers_eq_ok_iff.mpr ⟨by decide, rfl⟩

/-- **The checking factory accepts exactly the consistent keys with factors**, and the key
it makes holds the specification unchanged. -/
theorem checking_privateKey_eq_ok_iff (maxSize n e d : ℕ) (crt : CrtValues)
    (others : List OtherPrime) (key : PrivateKey) :
    ((KeyFactory.checking maxSize).privateKey (.twoPrime n e d crt) = .ok key ↔
      (PublicKey.GoodModulus maxSize n ∧ PublicKey.GoodExponent e ∧ Consistent n e d crt []) ∧
        key.spec = .twoPrime n e d crt) ∧
    ((KeyFactory.checking maxSize).privateKey (.multiPrime n e d crt others) = .ok key ↔
      (others ≠ [] ∧ PublicKey.GoodModulus maxSize n ∧ PublicKey.GoodExponent e ∧
        Consistent n e d crt others) ∧ key.spec = .multiPrime n e d crt others) :=
  ⟨PrivateKey.ofSpec_eq_ok_iff, PrivateKey.ofSpec_eq_ok_iff⟩

end WebKey
