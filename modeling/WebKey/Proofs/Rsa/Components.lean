/-
Keys from their components.

The values of the Chinese remainder theorem can be computed for every list of factors that
are pairwise coprime, and what is computed is consistent. So a key that is made from such
factors, with exponents that are inverse modulo each factor less one, passes the checks as
soon as its public numbers do.

* **`otherPrimes_eq_ok_iff`** — the values of the later primes are the consistent ones;
* **`KeySpec.ofComponents_of_coprime`** — the specification exists and is consistent;
* **`PrivateKey.ofComponents_of_coprime`** — the key is refused for its public numbers only;
* **`crtValues_eq_ok_iff_fit`** — the values are determined by the factors, in their order, and the
  private exponent;
* **`PrivateKey.components_determine_key`** — which components have a key, and that an accepted key
  is the one that its components have.
-/
import Mathlib
import WebKey.Proofs.Rsa.Consistency

namespace WebKey

/-! ### The values of the later primes -/

/-- The values that are computed for the later primes are those that fit. -/
theorem otherPrimes_eq_ok_iff {d product : ℕ} {primes : List ℕ} {others : List OtherPrime}
    (htwo : ∀ r ∈ primes, 2 ≤ r) :
    otherPrimes d product primes = .ok others ↔
      others.map OtherPrime.prime = primes ∧ LaterConsistent d product others := by
  induction primes generalizing product others with
  | nil =>
    rw [otherPrimes, List.map_eq_nil_iff, Except.ok.injEq]
    constructor
    · rintro rfl
      exact ⟨rfl, trivial⟩
    · rintro ⟨rfl, -⟩
      rfl
  | cons prime rest ih =>
    rw [List.forall_mem_cons] at htwo
    rw [otherPrimes]
    constructor
    · intro h
      cases hinv : inverse? product prime with
      | none => simp [hinv] at h
      | some coefficient =>
        simp only [hinv, bind_eq_ok_iff] at h
        obtain ⟨later, hlater, hothers⟩ := h
        obtain ⟨hmap, hfit⟩ := (ih htwo.2).mp hlater
        rw [← Except.ok.inj hothers]
        exact ⟨by rw [List.map_cons, hmap], rfl, isInverse_of_inverse? htwo.1 hinv, hfit⟩
    · rintro ⟨hmap, hfit⟩
      obtain ⟨info, later, rfl, rfl, hrest⟩ := List.map_eq_cons_iff.mp hmap
      obtain ⟨hexp, hinv, hfit⟩ := hfit
      rw [(inverse?_eq_some_iff htwo.1).mpr hinv]
      simp only [bind_eq_ok_iff]
      exact ⟨later, (ih htwo.2).mpr ⟨hrest, hfit⟩, by rw [← hexp]; rfl⟩

/-- The first two of pairwise coprime factors may be multiplied. -/
theorem pairwise_coprime_mul_cons {a b : ℕ} {rest : List ℕ}
    (h : (a :: b :: rest).Pairwise Nat.Coprime) : (a * b :: rest).Pairwise Nat.Coprime := by
  simp only [List.pairwise_cons, List.forall_mem_cons] at h
  obtain ⟨⟨-, ha⟩, hb, hrest⟩ := h
  exact List.pairwise_cons.mpr ⟨fun r hr => (ha r hr).mul_left (hb r hr), hrest⟩

/-- Later primes that are coprime to each other and to the factors before them have values. -/
theorem LaterConsistent.exists_of_coprime {d product : ℕ} {primes : List ℕ}
    (htwo : ∀ r ∈ primes, 2 ≤ r) (hcoprime : (product :: primes).Pairwise Nat.Coprime) :
    ∃ others : List OtherPrime,
      others.map OtherPrime.prime = primes ∧ LaterConsistent d product others := by
  induction primes generalizing product with
  | nil => exact ⟨[], rfl, trivial⟩
  | cons prime rest ih =>
    rw [List.forall_mem_cons] at htwo
    have hprime : product.Coprime prime := List.rel_of_pairwise_cons hcoprime List.mem_cons_self
    obtain ⟨coefficient, hcoefficient⟩ := IsInverse.exists_of_coprime htwo.1 hprime
    -- the rest is computed with a product that has `prime` as a further factor
    obtain ⟨others, hmap, hfit⟩ := ih htwo.2 (pairwise_coprime_mul_cons hcoprime)
    exact ⟨⟨prime, d % (prime - 1), coefficient⟩ :: others, by rw [List.map_cons, hmap], rfl,
      hcoefficient, hfit⟩

/-! ### Specifications -/

namespace KeySpec

/-- The specification with these factors and values, whose shape depends on whether there
are later primes. -/
def ofFactors (n e d : ℕ) (crt : CrtValues) (others : List OtherPrime) : KeySpec :=
  if others.isEmpty then .twoPrime n e d crt else .multiPrime n e d crt others

section ofFactors

variable {n e d : ℕ} {crt : CrtValues} {others : List OtherPrime}

@[simp] theorem ofFactors_nil : ofFactors n e d crt [] = .twoPrime n e d crt := rfl

@[simp] theorem ofFactors_cons {info : OtherPrime} :
    ofFactors n e d crt (info :: others) = .multiPrime n e d crt (info :: others) := rfl

@[simp] theorem modulus_ofFactors : (ofFactors n e d crt others).modulus = n := by
  cases others <;> rfl

@[simp] theorem privateExponent_ofFactors :
    (ofFactors n e d crt others).privateExponent = d := by
  cases others <;> rfl

@[simp] theorem publicExponent?_ofFactors :
    (ofFactors n e d crt others).publicExponent? = some e := by
  cases others <;> rfl

@[simp] theorem primes_ofFactors : (ofFactors n e d crt others).primes = factorsOf crt others := by
  cases others <;> rfl

theorem shape_ofFactors : (ofFactors n e d crt others).shape =
    if (factorsOf crt others).length = 2 then .twoPrime else .multiPrime := by
  cases others <;> rfl

/-- With consistent factors the check is that of the public numbers. -/
theorem check_ofFactors {maxSize : ℕ} (h : Consistent n e d crt others) :
    (ofFactors n e d crt others).check maxSize = PublicKey.check maxSize n e := by
  have hfactors := checkFactors_eq_ok_iff.mpr h
  cases others with
  | nil =>
    rw [ofFactors_nil, check, hfactors]
    cases PublicKey.check maxSize n e <;> rfl
  | cons info rest =>
    rw [ofFactors_cons, check, hfactors]
    cases PublicKey.check maxSize n e <;> rfl

end ofFactors

/-- The specification can be computed from pairwise coprime factors, and is consistent. -/
theorem ofComponents_of_coprime {n e d : ℕ} {primes : List ℕ} (hlength : 2 ≤ primes.length)
    (htwo : ∀ r ∈ primes, 2 ≤ r) (hprod : primes.prod = n)
    (hcoprime : primes.Pairwise Nat.Coprime) (hmul : ∀ r ∈ primes, e * d % (r - 1) = 1) :
    ∃ crt others, ofComponents n e d primes = .ok (ofFactors n e d crt others) ∧
      factorsOf crt others = primes ∧ Consistent n e d crt others := by
  match primes, hlength with
  | p :: q :: rest, _ =>
    have hp : 2 ≤ p := htwo p (by simp)
    have hrest : ∀ r ∈ rest, 2 ≤ r := fun r hr => htwo r (by simp [hr])
    have hpq : p.Coprime q := List.rel_of_pairwise_cons hcoprime List.mem_cons_self
    obtain ⟨qi, hqi⟩ := IsInverse.exists_of_coprime hp hpq.symm
    obtain ⟨others, hmap, hfit⟩ := LaterConsistent.exists_of_coprime (d := d) hrest
      (pairwise_coprime_mul_cons hcoprime)
    have hfactors : factorsOf ⟨p, q, d % (p - 1), d % (q - 1), qi⟩ others = p :: q :: rest := by
      rw [factorsOf, hmap]
    refine ⟨⟨p, q, d % (p - 1), d % (q - 1), qi⟩, others, ?_, hfactors, ?_⟩
    · rw [ofComponents, bind_eq_ok_iff]
      refine ⟨_, (crtValues_eq_ok_iff htwo).mpr ⟨qi, hqi, ?_, rfl⟩, rfl⟩
      exact (otherPrimes_eq_ok_iff hrest).mpr ⟨hmap, hfit⟩
    · rw [consistent_iff, hfactors]
      exact ⟨htwo, hprod, hmul, ⟨rfl, rfl⟩, hqi, hfit⟩

end KeySpec

/-! ### Keys -/

/-- A modulus that is odd and at least three is refused for its size only. -/
theorem PublicKey.check_of_odd {maxSize n e : ℕ} (hthree : 3 ≤ n) (hodd : Odd n) :
    check maxSize n e =
      if maxSize < bitLength n then .error .modulusTooLarge
      else if e < 2 then .error .publicExponentTooSmall
      else if 2 ^ 33 - 1 < e then .error .publicExponentTooLarge
      else .ok () := by
  have hgood : ¬(n < 3 ∨ n % 2 = 0) := by
    have := Nat.odd_iff.mp hodd
    omega
  rw [check, checkModulus, if_neg hgood]
  split
  · rfl
  · rfl

/-- The key of pairwise coprime factors is refused for its public numbers only. -/
theorem PrivateKey.ofComponents_of_coprime {n e d : ℕ} {primes : List ℕ}
    (hlength : 2 ≤ primes.length) (htwo : ∀ r ∈ primes, 2 ≤ r) (hprod : primes.prod = n)
    (hcoprime : primes.Pairwise Nat.Coprime) (hmul : ∀ r ∈ primes, e * d % (r - 1) = 1) :
    ∃ crt others, factorsOf crt others = primes ∧
      ofComponents n e d primes =
        (PublicKey.check PublicKey.defaultMaxSize n e).map
          fun _ => ⟨.ofFactors n e d crt others⟩ := by
  obtain ⟨crt, others, hspec, hfactors, hconsistent⟩ :=
    KeySpec.ofComponents_of_coprime hlength htwo hprod hcoprime hmul
  refine ⟨crt, others, hfactors, ?_⟩
  rw [ofComponents, hspec]
  show ofSpec PublicKey.defaultMaxSize (.ofFactors n e d crt others) = _
  rw [ofSpec, KeySpec.check_ofFactors hconsistent]
  rfl

/-! ### Keys are determined by their components -/

/-- The values of the first two factors and of the later ones are computed exactly for factors that
are at least two, and they are the only ones that fit. -/
theorem crtValues_eq_ok_iff_fit {d : ℕ} {primes : List ℕ} {crt : CrtValues}
    {others : List OtherPrime} :
    crtValues d primes = .ok (crt, others) ↔
      factorsOf crt others = primes ∧ (∀ r ∈ primes, 2 ≤ r) ∧
      (crt.dp = d % (crt.p - 1) ∧ crt.dq = d % (crt.q - 1)) ∧ IsInverse crt.q crt.p crt.qi ∧
      LaterConsistent d (crt.p * crt.q) others := by
  constructor
  · intro h
    match primes, h with
    | [], h => exact absurd h (by simp [crtValues])
    | [_], h => exact absurd h (by simp [crtValues])
    | p :: q :: rest, h =>
      have htwo : ∀ r ∈ p :: q :: rest, 2 ≤ r := by
        rw [← not_any_le_one_iff]
        intro hany
        rw [crtValues, if_pos hany] at h
        exact absurd h (by simp)
      obtain ⟨qi, hqi, hothers, rfl⟩ := (crtValues_eq_ok_iff htwo).mp h
      obtain ⟨hmap, hfit⟩ :=
        (otherPrimes_eq_ok_iff fun r hr => htwo r (by simp [hr])).mp hothers
      exact ⟨by rw [factorsOf, hmap], htwo, ⟨rfl, rfl⟩, hqi, hfit⟩
  · rintro ⟨rfl, htwo, ⟨hdp, hdq⟩, hqi, hfit⟩
    refine (crtValues_eq_ok_iff htwo).mpr ⟨crt.qi, hqi, ?_, ?_⟩
    · refine (otherPrimes_eq_ok_iff fun r hr => htwo r ?_).mpr ⟨rfl, hfit⟩
      exact List.mem_cons_of_mem _ (List.mem_cons_of_mem _ hr)
    · rw [← hdp, ← hdq]

theorem Consistent.crtValues_eq {n e d : ℕ} {crt : CrtValues} {others : List OtherPrime}
    (h : Consistent n e d crt others) :
    crtValues d (factorsOf crt others) = .ok (crt, others) := by
  obtain ⟨htwo, -, -, hexponents, hqi, hfit⟩ := consistent_iff.mp h
  exact crtValues_eq_ok_iff_fit.mpr ⟨rfl, htwo, hexponents, hqi, hfit⟩

theorem KeySpec.acceptable_ofFactors_iff {maxSize n e d : ℕ} {crt : CrtValues}
    {others : List OtherPrime} :
    (ofFactors n e d crt others).Acceptable maxSize ↔
      PublicKey.GoodModulus maxSize n ∧ PublicKey.GoodExponent e ∧
        Consistent n e d crt others := by
  cases others with
  | nil => rfl
  | cons info rest => exact and_iff_right (List.cons_ne_nil _ _)

/-- A specification with factors that is accepted has the shape that goes with their number. -/
theorem KeySpec.Acceptable.eq_ofFactors {maxSize : ℕ} {spec : KeySpec}
    (h : spec.Acceptable maxSize) (hshape : spec.shape ≠ .plain) :
    ∃ e crt, spec.publicExponent? = some e ∧
      spec = ofFactors spec.modulus e spec.privateExponent crt spec.others := by
  cases spec with
  | plain n d => exact absurd rfl hshape
  | twoPrime n e d crt => exact ⟨e, crt, rfl, rfl⟩
  | multiPrime n e d crt others =>
    cases others with
    | nil => exact absurd rfl h.1
    | cons info rest => exact ⟨e, crt, rfl, rfl⟩

namespace PrivateKey

theorem ofComponents_eq_ok_iff {n e d : ℕ} {primes : List ℕ} {key : PrivateKey} :
    ofComponents n e d primes = .ok key ↔
      ∃ crt others, factorsOf crt others = primes ∧
        (PublicKey.GoodModulus PublicKey.defaultMaxSize n ∧ PublicKey.GoodExponent e ∧
          Consistent n e d crt others) ∧ key.spec = .ofFactors n e d crt others := by
  have hcheck : ∀ crt others,
      KeyFactory.standard.privateKey (.ofFactors n e d crt others) = .ok key ↔
        (PublicKey.GoodModulus PublicKey.defaultMaxSize n ∧ PublicKey.GoodExponent e ∧
          Consistent n e d crt others) ∧ key.spec = .ofFactors n e d crt others := by
    intro crt others
    rw [← KeySpec.acceptable_ofFactors_iff]
    exact ofSpec_eq_ok_iff
  rw [ofComponents, bind_eq_ok_iff]
  constructor
  · rintro ⟨spec, hspec, hkey⟩
    obtain ⟨⟨crt, others⟩, hvalues, hspec⟩ := bind_eq_ok_iff.mp hspec
    obtain rfl := Except.ok.inj hspec
    exact ⟨crt, others, (crtValues_eq_ok_iff_fit.mp hvalues).1, (hcheck crt others).mp hkey⟩
  · rintro ⟨crt, others, rfl, hkey⟩
    refine ⟨.ofFactors n e d crt others, ?_, (hcheck crt others).mpr hkey⟩
    rw [KeySpec.ofComponents, hkey.1.2.2.crtValues_eq]
    rfl

/-- There is a key with these components exactly if the factors are pairwise coprime, multiply to
an odd modulus that is not too large, and the exponents are inverse modulo each factor less one. -/
theorem exists_ofComponents_iff {n e d : ℕ} {primes : List ℕ} :
    (∃ key, ofComponents n e d primes = .ok key) ↔
      2 ≤ primes.length ∧ (∀ r ∈ primes, 3 ≤ r) ∧ primes.Pairwise Nat.Coprime ∧
        primes.prod = n ∧ Odd n ∧ bitLength n ≤ 4096 ∧ 2 ≤ e ∧ e ≤ 2 ^ 33 - 1 ∧
        ∀ r ∈ primes, e * d ≡ 1 [MOD r - 1] := by
  simp only [ofComponents_eq_ok_iff]
  constructor
  · rintro ⟨key, crt, others, rfl, ⟨hmodulus, hexponent, hconsistent⟩, -⟩
    have hmul := hconsistent.mul_modEq_one
    have hsize : bitLength n ≤ PublicKey.defaultMaxSize :=
      bitLength_le_iff.mpr hmodulus.lt_two_pow
    refine ⟨by simp [factorsOf], fun r hr => ?_, hconsistent.pairwise_coprime,
      hconsistent.prod_eq, hmodulus.odd, hsize, hexponent.two_le, hexponent.le_max,
      fun r hr => (hmul r hr).2⟩
    have hpred := (hmul r hr).1
    omega
  · rintro ⟨hlength, hthree, hcoprime, rfl, hodd, hsize, htwo, hmax, hmul⟩
    have hmod : ∀ r ∈ primes, e * d % (r - 1) = 1 := by
      intro r hr
      have hr3 := hthree r hr
      rw [hmul r hr, Nat.mod_eq_of_lt (by omega)]
    obtain ⟨crt, others, -, hfactors, hconsistent⟩ := KeySpec.ofComponents_of_coprime hlength
      (fun r hr => (hthree r hr).trans' (by decide)) rfl hcoprime hmod
    have hn : 3 ≤ primes.prod := by
      have hp := List.getElem_mem (show 0 < primes.length by omega)
      exact (hthree _ hp).trans (Nat.le_of_dvd hodd.pos (List.dvd_prod hp))
    have hmodulus : PublicKey.GoodModulus PublicKey.defaultMaxSize primes.prod :=
      ⟨bitLength_le_iff.mp hsize, hn, hodd⟩
    exact ⟨⟨.ofFactors _ e d crt others⟩, crt, others, hfactors,
      ⟨hmodulus, ⟨htwo, hmax⟩, hconsistent⟩, rfl⟩

/-- **A key with factors is determined by its components.** The key that is made from the components
of an accepted one, unless its modulus is too large for that, is this key. Components have a key
exactly if the factors are pairwise coprime, multiply to an odd modulus that is not too large, and
the exponents are inverse modulo each factor less one; the key holds these components in their
order, has the shape that goes with the number of factors, and is accepted as it stands. -/
theorem components_determine_key :
    (∀ (maxSize : ℕ) (spec : KeySpec) (key : PrivateKey),
      (KeyFactory.checking maxSize).privateKey spec = .ok key → key.spec.shape ≠ .plain →
      bitLength key.spec.modulus ≤ 4096 →
      ∃ e, key.spec.publicExponent? = some e ∧
        ofComponents key.spec.modulus e key.spec.privateExponent key.spec.primes = .ok key) ∧
    ∀ (n e d : ℕ) (primes : List ℕ),
      ((∃ key, ofComponents n e d primes = .ok key) ↔
        2 ≤ primes.length ∧ (∀ r ∈ primes, 3 ≤ r) ∧ primes.Pairwise Nat.Coprime ∧
          primes.prod = n ∧ Odd n ∧ bitLength n ≤ 4096 ∧ 2 ≤ e ∧ e ≤ 2 ^ 33 - 1 ∧
          ∀ r ∈ primes, e * d ≡ 1 [MOD r - 1]) ∧
      ∀ key, ofComponents n e d primes = .ok key →
        key.spec.modulus = n ∧ key.spec.publicExponent? = some e ∧
        key.spec.privateExponent = d ∧ key.spec.primes = primes ∧
        key.spec.shape = (if primes.length = 2 then .twoPrime else .multiPrime) ∧
        KeyFactory.standard.privateKey key.spec = .ok key := by
  refine ⟨?_, fun n e d primes => ⟨exists_ofComponents_iff, ?_⟩⟩
  · intro maxSize spec key hkey hshape hsize
    obtain ⟨hacceptable, hspec⟩ := ofSpec_eq_ok_iff.mp hkey
    rw [← hspec] at hacceptable
    obtain ⟨e, crt, he, hfactors⟩ := hacceptable.eq_ofFactors hshape
    rw [hfactors, KeySpec.acceptable_ofFactors_iff] at hacceptable
    obtain ⟨hmodulus, hexponent, hconsistent⟩ := hacceptable
    refine ⟨e, he, ofComponents_eq_ok_iff.mpr ⟨crt, key.spec.others, ?_, ⟨?_, hexponent,
      hconsistent⟩, hfactors⟩⟩
    · conv_rhs => rw [hfactors, KeySpec.primes_ofFactors]
    · exact ⟨bitLength_le_iff.mp hsize, hmodulus.three_le, hmodulus.odd⟩
  · intro key hkey
    obtain ⟨crt, others, rfl, hgood, hspec⟩ := ofComponents_eq_ok_iff.mp hkey
    rw [hspec]
    refine ⟨by simp, by simp, by simp, by simp, KeySpec.shape_ofFactors, ?_⟩
    exact ofSpec_eq_ok_iff.mpr ⟨KeySpec.acceptable_ofFactors_iff.mpr hgood, hspec⟩

/-- The key with the factors 11, 13 and 17 is the one of its components. -/
theorem threeFactor_is_determined :
    (KeyFactory.checking 12).privateKey threeFactor.spec = .ok threeFactor ∧
    threeFactor.spec.shape ≠ .plain ∧ bitLength threeFactor.spec.modulus ≤ 4096 ∧
    ofComponents 2431 7 103 [11, 13, 17] = .ok threeFactor ∧
    threeFactor.spec.primes = [11, 13, 17] ∧
    KeyFactory.standard.privateKey threeFactor.spec = .ok threeFactor := by
  obtain ⟨haccepted, hcomponents⟩ := components_determine_key
  have hshape : threeFactor.spec.shape ≠ .plain := by decide
  have hsize : bitLength threeFactor.spec.modulus ≤ 4096 := by decide
  obtain ⟨e, he, hkey⟩ := haccepted 12 _ _ threeFactor_accepted hshape hsize
  obtain rfl := Option.some_inj.mp he
  obtain ⟨-, -, -, hprimes, -, hagain⟩ := (hcomponents 2431 7 103 [11, 13, 17]).2 _ hkey
  exact ⟨threeFactor_accepted, hshape, hsize, hkey, hprimes, hagain⟩

end PrivateKey

end WebKey
