/-
Comparing two computations that may fail.

Two computations agree when both succeed, with results that are related, or both fail, with
errors that are related. What agrees still does after a further step on either side, if the two
steps agree on related results.

* **`Agree`** — agreement, up to a relation of errors and one of results;
* **`Agree.bind`** — the rule by which two sequences of computations are gone through;
* **`Agree.of_eq`**, **`Agree.mapError`** — a step that is the same on both sides, and one
  that differs in the wording of its errors;
* **`FailAlike`** — agreement, up to nothing but the errors.
-/
import WebKey.Proofs.Computation

namespace WebKey

variable {ε ε' α α' β β' : Type}

/-- Both computations succeed with related results, or both fail with related errors. -/
inductive Agree (errors : ε → ε' → Prop) (results : α → α' → Prop) :
    Except ε α → Except ε' α' → Prop where
  | ok {a : α} {a' : α'} (h : results a a') : Agree errors results (.ok a) (.ok a')
  | error {e : ε} {e' : ε'} (h : errors e e') : Agree errors results (.error e) (.error e')

namespace Agree

theorem bind {errors : ε → ε' → Prop} {results : α → α' → Prop} {later : β → β' → Prop}
    {x : Except ε α} {x' : Except ε' α'} {f : α → Except ε β} {f' : α' → Except ε' β'}
    (hx : Agree errors results x x')
    (hf : ∀ a a', results a a' → Agree errors later (f a) (f' a')) :
    Agree errors later (x >>= f) (x' >>= f') := by
  cases hx with
  | ok h => exact hf _ _ h
  | error h => exact .error h

theorem of_eq {errors : ε → ε → Prop} {x x' : Except ε α} (hrefl : ∀ e, errors e e)
    (h : x = x') : Agree errors Eq x x' := by
  subst h
  cases x with
  | ok a => exact .ok rfl
  | error e => exact .error (hrefl e)

theorem mapError {errors : ε' → ε' → Prop} {f f' : ε → ε'} {x : Except ε α}
    (h : ∀ e, errors (f e) (f' e)) : Agree errors Eq (x.mapError f) (x.mapError f') := by
  cases x with
  | ok a => exact .ok rfl
  | error e => exact .error (h e)

theorem mapError_of_eq {results : α → α' → Prop} {x : Except ε α} {x' : Except ε α'}
    (h : Agree Eq results x x') (f : ε → ε') :
    Agree Eq results (x.mapError f) (x'.mapError f) := by
  cases h with
  | ok h => exact .ok h
  | error h => exact .error (congrArg f h)

end Agree

/-- Both computations succeed, or both fail with the same error. -/
abbrev FailAlike (x : Except ε α) (x' : Except ε α') : Prop := Agree Eq (fun _ _ => True) x x'

theorem FailAlike.refl (x : Except ε α) : FailAlike x x := by
  cases x with
  | ok a => exact .ok trivial
  | error e => exact .error rfl

end WebKey
