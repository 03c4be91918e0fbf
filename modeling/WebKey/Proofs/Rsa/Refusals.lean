/-
Why the checking factory refuses a private key whose public numbers are good.

The checks of the size of the modulus and of the bounds of the public exponent have been made when
the public key was, and there are other primes if the shape says so. What is left is that the
numbers do not fit each other, for which there are four errors.

* **`FailsWithin`** — a computation fails with no other errors than those of a list;
* **`RsaError.inconsistencies`** — the four errors;
* **`checkFactors_failsWithin`** — the check of the factors fails with no other;
* **`PrivateKey.ofSpec_failsWithin`** — neither does the checking factory, once the public numbers
  are good.
-/
import WebKey.Proofs.Rsa.Consistency

namespace WebKey

/-! ### Computations that fail with few errors -/

section FailsWithin

variable {ε α β : Type} {errors : List ε} {error : ε}

/-- If the computation fails, the error is one of these. -/
def FailsWithin (errors : List ε) (x : Except ε α) : Prop :=
  ∀ error, x = .error error → error ∈ errors

theorem failsWithin_ok (a : α) : FailsWithin errors (.ok a : Except ε α) :=
  fun _ h => absurd h ok_ne_error

theorem failsWithin_error (h : error ∈ errors) :
    FailsWithin errors (.error error : Except ε α) := by
  rintro _ ⟨⟩
  exact h

namespace FailsWithin

theorem ite {c : Prop} [Decidable c] {x : Except ε α} (herror : error ∈ errors)
    (hx : FailsWithin errors x) : FailsWithin errors (if c then .error error else x) := by
  split
  · exact failsWithin_error herror
  · exact hx

theorem bind {x : Except ε α} {f : α → Except ε β} (hx : FailsWithin errors x)
    (hf : ∀ a, x = .ok a → FailsWithin errors (f a)) : FailsWithin errors (x >>= f) := by
  cases x with
  | error e =>
    rintro _ ⟨⟩
    exact hx e rfl
  | ok a => exact hf a rfl

end FailsWithin

end FailsWithin

/-! ### The four errors -/

/-- The errors that say that the numbers of a private key do not fit each other. -/
def RsaError.inconsistencies : List RsaError :=
  [.invalidPrime, .invalidModulus, .invalidExponent, .invalidCoefficient]

/-- None of them says that the key is not supported. -/
theorem RsaError.isUnsupported_of_mem_inconsistencies :
    ∀ error ∈ inconsistencies, error.isUnsupported = false := by
  simp only [inconsistencies, List.forall_mem_cons]
  exact ⟨rfl, rfl, rfl, rfl, by simp⟩

open RsaError (inconsistencies)

theorem otherPrimes_failsWithin (d product : ℕ) (primes : List ℕ) :
    FailsWithin inconsistencies (otherPrimes d product primes) := by
  induction primes generalizing product with
  | nil => exact failsWithin_ok []
  | cons prime rest ih =>
    rw [otherPrimes]
    cases inverse? product prime with
    | none => exact failsWithin_error (by simp [inconsistencies])
    | some coefficient => exact (ih _).bind fun others _ => failsWithin_ok _

/-- That there are too few factors is not among the errors if there are two. -/
theorem crtValues_failsWithin (d p q : ℕ) (rest : List ℕ) :
    FailsWithin inconsistencies (crtValues d (p :: q :: rest)) := by
  rw [crtValues]
  refine .ite (by simp [inconsistencies]) ?_
  cases inverse? q p with
  | none => exact failsWithin_error (by simp [inconsistencies])
  | some qi => exact (otherPrimes_failsWithin d (p * q) rest).bind fun others _ => failsWithin_ok _

theorem checkOthers_failsWithin (expected actual : List OtherPrime) :
    FailsWithin inconsistencies (checkOthers expected actual) := by
  fun_induction checkOthers expected actual with
  | case1 => exact failsWithin_error (by simp [inconsistencies])
  | case2 => exact failsWithin_error (by simp [inconsistencies])
  | case3 => assumption
  | case4 => exact failsWithin_ok ()

theorem checkFactors_failsWithin (n e d : ℕ) (crt : CrtValues) (others : List OtherPrime) :
    FailsWithin inconsistencies (checkFactors n e d crt others) := by
  rw [checkFactors]
  refine .ite (by simp [inconsistencies]) (.ite (by simp [inconsistencies])
    (.ite (by simp [inconsistencies]) ?_))
  refine (crtValues_failsWithin d _ _ _).bind fun expected _ => ?_
  exact .ite (by simp [inconsistencies]) (.ite (by simp [inconsistencies])
    (checkOthers_failsWithin _ _))

/-! ### Specifications -/

/-- What is checked before the numbers of a private key are compared with each other. -/
structure KeySpec.GoodPublic (maxSize : ℕ) (spec : KeySpec) : Prop where
  modulus : PublicKey.GoodModulus maxSize spec.modulus
  exponent : ∀ e, spec.publicExponent? = some e → PublicKey.GoodExponent e
  others : spec.shape = .multiPrime → spec.others ≠ []

theorem KeySpec.check_failsWithin {maxSize : ℕ} {spec : KeySpec} (h : spec.GoodPublic maxSize) :
    FailsWithin inconsistencies (spec.check maxSize) := by
  obtain ⟨hmodulus, hexponent, hothers⟩ := h
  cases spec with
  | plain n d =>
    have hcheck : PublicKey.checkModulus maxSize n = .ok () :=
      PublicKey.checkModulus_eq_ok_iff.mpr hmodulus
    rw [check, hcheck]
    exact .ite (by simp [inconsistencies]) (failsWithin_ok ())
  | twoPrime n e d crt =>
    have hcheck : PublicKey.check maxSize n e = .ok () :=
      PublicKey.check_eq_ok_iff.mpr ⟨hmodulus, hexponent e rfl⟩
    rw [check, hcheck]
    exact checkFactors_failsWithin n e d crt []
  | multiPrime n e d crt others =>
    have hcheck : PublicKey.check maxSize n e = .ok () :=
      PublicKey.check_eq_ok_iff.mpr ⟨hmodulus, hexponent e rfl⟩
    have hne : ¬others.isEmpty = true := List.isEmpty_iff.not.mpr (hothers rfl)
    rw [check, if_neg hne, hcheck]
    exact checkFactors_failsWithin n e d crt others

/-- **A private key with good public numbers is refused for one of four reasons.** -/
theorem PrivateKey.ofSpec_failsWithin {maxSize : ℕ} {spec : KeySpec}
    (h : spec.GoodPublic maxSize) : FailsWithin inconsistencies (ofSpec maxSize spec) :=
  (KeySpec.check_failsWithin h).bind fun _ _ => failsWithin_ok _

end WebKey
