/-
The arithmetic of making private keys.

Differences, remainders and inverses have a value for all natural numbers, but not each of these
values means something: nothing can be taken from a smaller number, and there are no remainders and
no inverses modulo zero. Here the computations that use these operations are written once more, and
record each of them. Whatever the numbers are, only operations that mean something are recorded,
since the factors are tested in front of them. Where a specification is checked, the computation of
the values of its factors makes the same tests again, and they never fail.

* **`Step`**, **`Step.Defined`** — what is recorded, and the operations that mean something;
* **`Traced`** — a computation with its record;
* **`Traced.result_ofSpec`**, **`Traced.result_ofComponents`**, **`Traced.result_ofFields`** —
  without their records, the computations are those that make keys;
* **`Traced.crtValues_proper`**, **`Traced.checkFactors_proper`** — what is recorded for the
  factors;
* **`arithmetic_is_defined`** — what is recorded when a key is made of a specification, of its
  components or of a field set.
-/
import WebKey.Proofs.Jwk.Reading
import WebKey.Proofs.Rsa.Consistency

namespace WebKey

/-! ### Records -/

/-- What is recorded: the operations that do not mean something for all numbers, and the two early
exits of the computation of the values of the factors. -/
inductive Step where
  /-- a number is subtracted from another -/
  | difference (minuend subtrahend : ℕ)
  /-- the remainder of a division is taken -/
  | remainder (dividend modulus : ℕ)
  /-- an inverse is looked for -/
  | inverse (value modulus : ℕ)
  /-- there are fewer than two factors to compute values for -/
  | tooFewFactors
  /-- one of the factors to compute values for is zero or one -/
  | smallFactor
deriving DecidableEq

/-- The operation means something. -/
def Step.Defined : Step → Prop
  | .difference minuend subtrahend => subtrahend ≤ minuend
  | .remainder _ modulus | .inverse _ modulus => modulus ≠ 0
  | .tooFewFactors | .smallFactor => True

/-- The operation means something, and is no early exit. -/
structure Step.Proper (step : Step) : Prop where
  defined : step.Defined
  ne_tooFewFactors : step ≠ .tooFewFactors
  ne_smallFactor : step ≠ .smallFactor

/-- A computation with its record, which ends where the computation does. -/
structure Traced (α : Type) where
  steps : List Step
  result : Except RsaError α

namespace Traced

variable {α β : Type}

/-- Goes on with the result, unless there is none. -/
def andThen (first : Traced α) (next : α → Traced β) : Traced β :=
  match first.result with
  | .ok value => ⟨first.steps ++ (next value).steps, (next value).result⟩
  | .error error => ⟨first.steps, .error error⟩

instance : Monad Traced where
  pure value := ⟨[], .ok value⟩
  bind := andThen

/-- Computations that use none of the operations have nothing to record. -/
instance : MonadLift (Except RsaError) Traced := ⟨fun result => ⟨[], result⟩⟩

def refuse (error : RsaError) : Traced α := ⟨[], .error error⟩

def exit (step : Step) (error : RsaError) : Traced α := ⟨[step], .error error⟩

def mapError (f : RsaError → RsaError) (x : Traced α) : Traced α := ⟨x.steps, x.result.mapError f⟩

/-! ### The operations -/

def difference (minuend subtrahend : ℕ) : Traced ℕ :=
  ⟨[.difference minuend subtrahend], .ok (minuend - subtrahend)⟩

def remainder (dividend modulus : ℕ) : Traced ℕ :=
  ⟨[.remainder dividend modulus], .ok (dividend % modulus)⟩

def inverse (value modulus : ℕ) : Traced (Option ℕ) :=
  ⟨[.inverse value modulus], .ok (inverse? value modulus)⟩

/-- The remainder modulo a factor less one. -/
def residue (value factor : ℕ) : Traced ℕ := do
  remainder value (← difference factor 1)

/-! ### The computations -/

/-- The values of the primes after the second. -/
def otherPrimes (d product : ℕ) : List ℕ → Traced (List OtherPrime)
  | [] => return []
  | prime :: rest => do
    match ← inverse product prime with
    | none => refuse .invalidCoefficient
    | some coefficient => do
      let exponent ← residue d prime
      let others ← otherPrimes d (product * prime) rest
      return ⟨prime, exponent, coefficient⟩ :: others

/-- The values of a list of primes. How many there are after the second is worked out too. -/
def crtValues (d : ℕ) : List ℕ → Traced (CrtValues × List OtherPrime)
  | p :: q :: rest =>
    if (p :: q :: rest).any (· ≤ 1) then exit .smallFactor .invalidPrime
    else do
      let dp ← residue d p
      let dq ← residue d q
      match ← inverse q p with
      | none => refuse .invalidPrime
      | some qi => do
        let _ ← difference (p :: q :: rest).length 2
        let others ← otherPrimes d (p * q) rest
        return (⟨p, q, dp, dq, qi⟩, others)
  | _ => exit .tooFewFactors .tooFewFactors

/-- Tests the product of the exponents modulo each factor less one, until a test fails. -/
def checkExponents (product : ℕ) : List ℕ → Traced Unit
  | [] => return ()
  | prime :: rest => do
    if (← residue product prime) ≠ 1 then refuse .invalidExponent else checkExponents product rest

/-- Checks the primes and their values against the modulus and the exponents. -/
def checkFactors (n e d : ℕ) (crt : CrtValues) (others : List OtherPrime) : Traced Unit :=
  let primes := crt.p :: crt.q :: others.map OtherPrime.prime
  if primes.any (· ≤ 1) then refuse .invalidPrime
  else if productOf primes ≠ n then refuse .invalidModulus
  else do
    checkExponents (e * d) primes
    let (expected, expectedOthers) ← crtValues d primes
    if expected.dp ≠ crt.dp ∨ expected.dq ≠ crt.dq then refuse .invalidExponent
    else if expected.qi ≠ crt.qi then refuse .invalidCoefficient
    else checkOthers expectedOthers others

/-- Checks the specification of a private key. -/
def check (maxSize : ℕ) : KeySpec → Traced Unit
  | .plain n d => do
    PublicKey.checkModulus maxSize n
    if d = 0 ∨ n ≤ d then refuse .invalidExponent else return ()
  | .twoPrime n e d crt => do
    PublicKey.check maxSize n e
    checkFactors n e d crt []
  | .multiPrime n e d crt others =>
    if others.isEmpty then refuse .noOtherPrimes
    else do
      PublicKey.check maxSize n e
      checkFactors n e d crt others

/-- The private key with this specification, if it passes the check. -/
def ofSpec (maxSize : ℕ) (spec : KeySpec) : Traced PrivateKey := do
  check maxSize spec
  return ⟨spec⟩

/-- The private key with this modulus, these exponents and these primes. -/
def ofComponents (n e d : ℕ) (primes : List ℕ) : Traced PrivateKey := do
  let (crt, others) ← crtValues d primes
  ofSpec PublicKey.defaultMaxSize
    (if others.isEmpty then .twoPrime n e d crt else .multiPrime n e d crt others)

/-- The private key of a field set. Reading its integers uses none of the operations, and neither
does making the public key. -/
def ofFields (maxSize : ℕ) (fields : FieldSet) : Traced PrivateJwk := do
  let d ← fields.requiredInteger .privateExponent
  let publicHalf ← PublicJwk.ofFields (fields.without Param.privateParams) (.checking maxSize)
  let spec ← PrivateJwk.readSpec fields publicHalf.key d
  let key ← (ofSpec maxSize spec).mapError (PrivateJwk.refusal fields spec.shape)
  return ⟨fields.extend publicHalf.fields, key, publicHalf⟩

/-! ### Without the records -/

section Result

@[simp] theorem result_lift (x : Except RsaError α) : (liftM x : Traced α).result = x := rfl

@[simp] theorem result_mapError (f : RsaError → RsaError) (x : Traced α) :
    (x.mapError f).result = x.result.mapError f := rfl

@[simp] theorem result_bind (x : Traced α) (f : α → Traced β) :
    (x >>= f).result = x.result >>= fun a => (f a).result := by
  show (x.andThen f).result = _
  rw [andThen]
  cases x.result with
  | error error => rfl
  | ok a => rfl

theorem result_inverse_bind (value modulus : ℕ) (f : Option ℕ → Traced α) :
    (inverse value modulus >>= f).result = (f (inverse? value modulus)).result :=
  result_bind _ _

theorem result_residue_bind (value factor : ℕ) (f : ℕ → Traced α) :
    (residue value factor >>= f).result = (f (value % (factor - 1))).result :=
  result_bind _ _

theorem result_otherPrimes (d product : ℕ) (primes : List ℕ) :
    (otherPrimes d product primes).result = WebKey.otherPrimes d product primes := by
  induction primes generalizing product with
  | nil => rfl
  | cons prime rest ih =>
    rw [otherPrimes, WebKey.otherPrimes, result_inverse_bind]
    cases inverse? product prime with
    | none => rfl
    | some coefficient =>
      simp only [result_bind, ih]
      rfl

theorem result_crtValues (d : ℕ) (primes : List ℕ) :
    (crtValues d primes).result = WebKey.crtValues d primes := by
  match primes with
  | [] => rfl
  | [_] => rfl
  | p :: q :: rest =>
    rw [crtValues, WebKey.crtValues]
    by_cases hsmall : (p :: q :: rest).any (· ≤ 1) = true
    · rw [if_pos hsmall, if_pos hsmall]
      rfl
    · rw [if_neg hsmall, if_neg hsmall]
      rw [result_residue_bind, result_residue_bind, result_inverse_bind]
      cases inverse? q p with
      | none => rfl
      | some qi =>
        simp only [result_bind, result_otherPrimes]
        rfl

theorem result_checkExponents (product : ℕ) (primes : List ℕ) :
    (checkExponents product primes).result =
      if primes.any (fun prime => product % (prime - 1) ≠ 1) then .error .invalidExponent
      else .ok () := by
  induction primes with
  | nil => rfl
  | cons prime rest ih =>
    rw [checkExponents, List.any_cons, result_residue_bind]
    by_cases hone : product % (prime - 1) = 1
    · rw [if_neg (not_not.mpr hone), ih]
      simp [hone]
    · rw [if_pos hone, if_pos (by simp [hone])]
      rfl

theorem result_checkFactors (n e d : ℕ) (crt : CrtValues) (others : List OtherPrime) :
    (checkFactors n e d crt others).result = WebKey.checkFactors n e d crt others := by
  simp only [checkFactors, WebKey.checkFactors]
  split
  · rfl
  split
  · rfl
  rw [result_bind, result_checkExponents]
  split
  · rfl
  · show (crtValues d _ >>= _).result = _
    rw [result_bind, result_crtValues]
    refine bind_congr fun values => ?_
    split
    · rfl
    split
    · rfl
    · rfl

theorem result_check (maxSize : ℕ) (spec : KeySpec) :
    (check maxSize spec).result = spec.check maxSize := by
  cases spec with
  | plain n d =>
    rw [check, KeySpec.check, result_bind]
    refine bind_congr fun _ => ?_
    split
    · rfl
    · rfl
  | twoPrime n e d crt =>
    rw [check, KeySpec.check, result_bind, result_checkFactors]
    rfl
  | multiPrime n e d crt others =>
    rw [check, KeySpec.check]
    split
    · rfl
    · rw [result_bind, result_checkFactors]
      rfl

theorem result_ofSpec (maxSize : ℕ) (spec : KeySpec) :
    (ofSpec maxSize spec).result = PrivateKey.ofSpec maxSize spec := by
  rw [ofSpec, PrivateKey.ofSpec, result_bind, result_check]
  rfl

theorem result_ofComponents (n e d : ℕ) (primes : List ℕ) :
    (ofComponents n e d primes).result = PrivateKey.ofComponents n e d primes := by
  rw [ofComponents, PrivateKey.ofComponents, KeySpec.ofComponents, result_bind, result_crtValues,
    bind_assoc]
  exact bind_congr fun values => result_ofSpec _ _

theorem result_ofFields (maxSize : ℕ) (fields : FieldSet) :
    (ofFields maxSize fields).result =
      (PrivateJwk.ofFields fields (.checking maxSize)).result := by
  rw [PrivateJwk.result_ofFields]
  simp only [ofFields, result_bind, result_lift, result_mapError, result_ofSpec]
  rfl

end Result

/-! ### What is recorded -/

/-- The record holds such steps only. -/
def Within (allowed : Step → Prop) (x : Traced α) : Prop := ∀ step ∈ x.steps, allowed step

section Within

variable {allowed : Step → Prop} {x : Traced α} {f : α → Traced β}

theorem within_of_steps_eq_nil (h : x.steps = []) : Within allowed x := by
  rw [Within, h]
  exact fun step hstep => absurd hstep List.not_mem_nil

theorem within_exit_iff {step : Step} {error : RsaError} :
    Within allowed (exit step error : Traced α) ↔ allowed step :=
  List.forall_mem_singleton

theorem Within.bind (hx : Within allowed x) (hf : ∀ a, x.result = .ok a → Within allowed (f a)) :
    Within allowed (x >>= f) := by
  show Within allowed (x.andThen f)
  rw [andThen]
  cases hresult : x.result with
  | error error => exact hx
  | ok a => exact List.forall_mem_append.mpr ⟨hx, hf a hresult⟩

theorem Within.mono {wider : Step → Prop} (hx : Within allowed x)
    (h : ∀ step, allowed step → wider step) : Within wider x :=
  fun step hstep => h step (hx step hstep)

theorem Within.ite {c : Prop} [Decidable c] {y : Traced α} (hx : Within allowed x)
    (hy : Within allowed y) : Within allowed (if c then x else y) := by
  split
  · exact hx
  · exact hy

end Within

theorem difference_proper {minuend subtrahend : ℕ} (h : subtrahend ≤ minuend) :
    Within Step.Proper (difference minuend subtrahend) :=
  List.forall_mem_singleton.mpr ⟨h, nofun, nofun⟩

theorem inverse_proper (value : ℕ) {modulus : ℕ} (h : modulus ≠ 0) :
    Within Step.Proper (inverse value modulus) :=
  List.forall_mem_singleton.mpr ⟨h, nofun, nofun⟩

theorem residue_proper (value : ℕ) {factor : ℕ} (h : 2 ≤ factor) :
    Within Step.Proper (residue value factor) := by
  refine (difference_proper (by omega)).bind fun pred hpred => ?_
  obtain rfl : factor - 1 = pred := Except.ok.inj hpred
  exact List.forall_mem_singleton.mpr ⟨show factor - 1 ≠ 0 by omega, nofun, nofun⟩

theorem otherPrimes_proper (d product : ℕ) {primes : List ℕ} (htwo : ∀ r ∈ primes, 2 ≤ r) :
    Within Step.Proper (otherPrimes d product primes) := by
  induction primes generalizing product with
  | nil => exact within_of_steps_eq_nil rfl
  | cons prime rest ih =>
    rw [List.forall_mem_cons] at htwo
    refine (inverse_proper product (by omega)).bind fun coefficient _ => ?_
    cases coefficient with
    | none => exact within_of_steps_eq_nil rfl
    | some coefficient =>
      refine (residue_proper d htwo.1).bind fun exponent _ => ?_
      exact (ih _ htwo.2).bind fun others _ => within_of_steps_eq_nil rfl

/-- Where the factors have been tested before, the computation takes no early exit. -/
theorem crtValues_proper (d : ℕ) {p q : ℕ} {rest : List ℕ} (htwo : ∀ r ∈ p :: q :: rest, 2 ≤ r) :
    Within Step.Proper (crtValues d (p :: q :: rest)) := by
  have hsmall : ¬(p :: q :: rest).any (· ≤ 1) = true := not_any_le_one_iff.mpr htwo
  simp only [List.forall_mem_cons] at htwo
  obtain ⟨hp, hq, hrest⟩ := htwo
  rw [crtValues, if_neg hsmall]
  refine (residue_proper d hp).bind fun dp _ => ?_
  refine (residue_proper d hq).bind fun dq _ => ?_
  refine (inverse_proper q (by omega)).bind fun qi _ => ?_
  cases qi with
  | none => exact within_of_steps_eq_nil rfl
  | some qi =>
    refine (difference_proper (by simp)).bind fun count _ => ?_
    exact (otherPrimes_proper d _ hrest).bind fun others _ => within_of_steps_eq_nil rfl

/-- The computation can be asked for the values of any factors, as it makes the tests itself. -/
theorem crtValues_defined (d : ℕ) (primes : List ℕ) :
    Within Step.Defined (crtValues d primes) := by
  match primes with
  | [] => exact within_exit_iff.mpr trivial
  | [_] => exact within_exit_iff.mpr trivial
  | p :: q :: rest =>
    by_cases hsmall : (p :: q :: rest).any (· ≤ 1) = true
    · rw [crtValues, if_pos hsmall]
      exact within_exit_iff.mpr trivial
    · exact (crtValues_proper d (not_any_le_one_iff.mp hsmall)).mono fun _ h => h.defined

theorem checkExponents_proper (product : ℕ) {primes : List ℕ} (htwo : ∀ r ∈ primes, 2 ≤ r) :
    Within Step.Proper (checkExponents product primes) := by
  induction primes with
  | nil => exact within_of_steps_eq_nil rfl
  | cons prime rest ih =>
    rw [List.forall_mem_cons] at htwo
    refine (residue_proper product htwo.1).bind fun congruence _ => ?_
    exact .ite (within_of_steps_eq_nil rfl) (ih htwo.2)

theorem checkFactors_proper (n e d : ℕ) (crt : CrtValues) (others : List OtherPrime) :
    Within Step.Proper (checkFactors n e d crt others) := by
  rw [checkFactors]
  by_cases hsmall : (crt.p :: crt.q :: others.map OtherPrime.prime).any (· ≤ 1) = true
  · rw [if_pos hsmall]
    exact within_of_steps_eq_nil rfl
  · have htwo := not_any_le_one_iff.mp hsmall
    rw [if_neg hsmall]
    refine .ite (within_of_steps_eq_nil rfl) ?_
    refine (checkExponents_proper _ htwo).bind fun _ _ => ?_
    refine (crtValues_proper d htwo).bind fun values _ => ?_
    exact .ite (within_of_steps_eq_nil rfl)
      (.ite (within_of_steps_eq_nil rfl) (within_of_steps_eq_nil rfl))

theorem check_proper (maxSize : ℕ) (spec : KeySpec) : Within Step.Proper (check maxSize spec) := by
  cases spec with
  | plain n d =>
    refine Within.bind (within_of_steps_eq_nil rfl) fun _ _ => ?_
    exact .ite (within_of_steps_eq_nil rfl) (within_of_steps_eq_nil rfl)
  | twoPrime n e d crt =>
    exact Within.bind (within_of_steps_eq_nil rfl) fun _ _ => checkFactors_proper n e d crt []
  | multiPrime n e d crt others =>
    refine .ite (within_of_steps_eq_nil rfl) ?_
    exact Within.bind (within_of_steps_eq_nil rfl) fun _ _ => checkFactors_proper n e d crt others

theorem ofSpec_proper (maxSize : ℕ) (spec : KeySpec) :
    Within Step.Proper (ofSpec maxSize spec) :=
  (check_proper maxSize spec).bind fun _ _ => within_of_steps_eq_nil rfl

/-- The exponents are tested for each factor before the values of the factors are computed. -/
example : (ofSpec 12 PrivateKey.threeFactor.spec).steps =
    [.difference 11 1, .remainder 721 10, .difference 13 1, .remainder 721 12, .difference 17 1,
      .remainder 721 16, .difference 11 1, .remainder 103 10, .difference 13 1, .remainder 103 12,
      .inverse 13 11, .difference 3 2, .inverse 143 17, .difference 17 1, .remainder 103 16] := by
  decide +kernel

theorem ofComponents_defined (n e d : ℕ) (primes : List ℕ) :
    Within Step.Defined (ofComponents n e d primes) :=
  (crtValues_defined d primes).bind fun _ _ => (ofSpec_proper _ _).mono fun _ h => h.defined

theorem ofFields_proper (maxSize : ℕ) (fields : FieldSet) :
    Within Step.Proper (ofFields maxSize fields) := by
  refine Within.bind (within_of_steps_eq_nil rfl) fun d _ => ?_
  refine Within.bind (within_of_steps_eq_nil rfl) fun publicHalf _ => ?_
  refine Within.bind (within_of_steps_eq_nil rfl) fun spec _ => ?_
  -- explaining an error leaves the record as it is
  have hkey : Within Step.Proper
      ((ofSpec maxSize spec).mapError (PrivateJwk.refusal fields spec.shape)) :=
    ofSpec_proper maxSize spec
  exact hkey.bind fun key _ => within_of_steps_eq_nil rfl

end Traced

/-- **The arithmetic of making private keys is defined for all numbers.** When a key is made of a
specification, of components or of a field set, nothing is taken from a smaller number, and there
are no remainders and no inverses modulo zero. In the check of a specification, which is a part of
all three, the values of too few factors or of a factor below two are never asked for. -/
theorem arithmetic_is_defined :
    (∀ (maxSize : ℕ) (spec : KeySpec),
      (Traced.ofSpec maxSize spec).result = (KeyFactory.checking maxSize).privateKey spec ∧
      ∀ step ∈ (Traced.ofSpec maxSize spec).steps, step.Proper) ∧
    (∀ (n e d : ℕ) (primes : List ℕ),
      (Traced.ofComponents n e d primes).result = PrivateKey.ofComponents n e d primes ∧
      ∀ step ∈ (Traced.ofComponents n e d primes).steps, step.Defined) ∧
    ∀ (maxSize : ℕ) (fields : FieldSet),
      (Traced.ofFields maxSize fields).result =
        (PrivateJwk.ofFields fields (.checking maxSize)).result ∧
      ∀ step ∈ (Traced.ofFields maxSize fields).steps, step.Proper := by
  refine ⟨fun maxSize spec => ?_, fun n e d primes => ?_, fun maxSize fields => ?_⟩
  · exact ⟨Traced.result_ofSpec maxSize spec, Traced.ofSpec_proper maxSize spec⟩
  · exact ⟨Traced.result_ofComponents n e d primes, Traced.ofComponents_defined n e d primes⟩
  · exact ⟨Traced.result_ofFields maxSize fields, Traced.ofFields_proper maxSize fields⟩

/-- Among what is recorded for the key with the factors 11, 13 and 17 is the inverse of the product
of the first two modulo the third. -/
theorem threeFactor_arithmetic_is_defined :
    Step.inverse 143 17 ∈ (Traced.ofSpec 12 PrivateKey.threeFactor.spec).steps ∧
    Step.Proper (.inverse 143 17) ∧
    (Traced.ofSpec 12 PrivateKey.threeFactor.spec).result = .ok .threeFactor := by
  have hstep : Step.inverse 143 17 ∈ (Traced.ofSpec 12 PrivateKey.threeFactor.spec).steps := by
    decide +kernel
  obtain ⟨hspec, -, -⟩ := arithmetic_is_defined
  obtain ⟨hresult, hproper⟩ := hspec 12 PrivateKey.threeFactor.spec
  exact ⟨hstep, hproper _ hstep, hresult.trans PrivateKey.threeFactor_accepted⟩

end WebKey
