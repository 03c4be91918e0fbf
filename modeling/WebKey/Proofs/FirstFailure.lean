/-
Computations that make checks one after the other.

Such a computation fails with the error of the first check that fails, and succeeds if
none does. Put one after the other, computations make the checks of the first and then
those of the second.

* **`FirstFailure`** — the first check of a list that fails, with its error;
* **`Performs`** — a computation fails exactly as a list of checks says;
* **`Performs.bind`**, **`Performs.mapM`** — the checks of a sequence of computations.
-/
import WebKey.Proofs.Computation

namespace WebKey

section FirstFailure

variable {κ ε α β : Type} {fails : κ → ε → Prop} {check : κ} {checks before after : List κ}
  {error : ε}

/-- Some check fails with this error, and none before it fails. -/
def FirstFailure (fails : κ → ε → Prop) (checks : List κ) (error : ε) : Prop :=
  ∃ before check after, checks = before ++ check :: after ∧
    (∀ other ∈ before, ∀ cause, ¬fails other cause) ∧ fails check error

theorem not_firstFailure_nil : ¬FirstFailure fails [] error := by
  rintro ⟨before, check, after, hchecks, -⟩
  exact absurd hchecks (by simp)

theorem firstFailure_cons :
    FirstFailure fails (check :: checks) error ↔
      fails check error ∨ (∀ cause, ¬fails check cause) ∧ FirstFailure fails checks error := by
  constructor
  · rintro ⟨before, found, after, hchecks, hbefore, hfails⟩
    cases before with
    | nil =>
      obtain ⟨rfl, -⟩ := List.cons.inj hchecks
      exact .inl hfails
    | cons other before =>
      obtain ⟨rfl, hrest⟩ := List.cons.inj hchecks
      rw [List.forall_mem_cons] at hbefore
      exact .inr ⟨hbefore.1, before, found, after, hrest, hbefore.2, hfails⟩
  · rintro (hfails | ⟨hpasses, before, found, after, rfl, hbefore, hfails⟩)
    · exact ⟨[], check, checks, rfl, by simp, hfails⟩
    · exact ⟨check :: before, found, after, rfl, List.forall_mem_cons.mpr ⟨hpasses, hbefore⟩,
        hfails⟩

theorem firstFailure_append :
    FirstFailure fails (before ++ after) error ↔
      FirstFailure fails before error ∨
        (∀ other ∈ before, ∀ cause, ¬fails other cause) ∧ FirstFailure fails after error := by
  induction before with
  | nil => simp [not_firstFailure_nil]
  | cons check rest ih =>
    rw [List.cons_append, firstFailure_cons, firstFailure_cons, ih, List.forall_mem_cons]
    constructor
    · rintro (hfails | ⟨hpasses, hrest | ⟨hall, hafter⟩⟩)
      · exact .inl (.inl hfails)
      · exact .inl (.inr ⟨hpasses, hrest⟩)
      · exact .inr ⟨⟨hpasses, hall⟩, hafter⟩
    · rintro ((hfails | ⟨hpasses, hrest⟩) | ⟨⟨hpasses, hall⟩, hafter⟩)
      · exact .inl hfails
      · exact .inr ⟨hpasses, .inl hrest⟩
      · exact .inr ⟨hpasses, .inr ⟨hall, hafter⟩⟩

/-- If some check fails, one of them is the first. -/
theorem exists_firstFailure (hcheck : check ∈ checks) (hfails : fails check error) :
    ∃ cause, FirstFailure fails checks cause := by
  induction checks with
  | nil => exact absurd hcheck (by simp)
  | cons head rest ih =>
    by_cases hhead : ∃ cause, fails head cause
    · obtain ⟨cause, hcause⟩ := hhead
      exact ⟨cause, firstFailure_cons.mpr (.inl hcause)⟩
    · rw [not_exists] at hhead
      rcases List.mem_cons.mp hcheck with rfl | hrest
      · exact absurd hfails (hhead error)
      · obtain ⟨cause, hcause⟩ := ih hrest
        exact ⟨cause, firstFailure_cons.mpr (.inr ⟨hhead, hcause⟩)⟩

/-! ### Computations -/

/-- The computation makes these checks: it fails with the error of the first that fails. -/
def Performs (fails : κ → ε → Prop) (checks : List κ) (x : Except ε α) : Prop :=
  ∀ error, x = .error error ↔ FirstFailure fails checks error

theorem performs_ok (a : α) : Performs fails [] (.ok a : Except ε α) := by
  intro error
  constructor
  · intro h
    exact absurd h (by simp)
  · intro h
    exact absurd h not_firstFailure_nil

theorem performs_single {x : Except ε α} (h : ∀ error, x = .error error ↔ fails check error) :
    Performs fails [check] x := by
  intro error
  rw [h, firstFailure_cons]
  constructor
  · exact .inl
  · rintro (hfails | ⟨-, hnil⟩)
    · exact hfails
    · exact absurd hnil not_firstFailure_nil

/-- A check that fails with one error only ends the computation. -/
theorem performs_error (hfails : fails check error)
    (hunique : ∀ cause, fails check cause → cause = error) :
    Performs fails (check :: checks) (.error error : Except ε α) := by
  intro cause
  rw [Except.error.injEq, firstFailure_cons]
  constructor
  · rintro rfl
    exact .inl hfails
  · rintro (hcause | ⟨hpasses, -⟩)
    · exact (hunique cause hcause).symm
    · exact absurd hfails (hpasses error)

/-- A check that passes may be made in front of a computation. -/
theorem Performs.cons_of_passes {x : Except ε α} (hpasses : ∀ cause, ¬fails check cause)
    (h : Performs fails checks x) : Performs fails (check :: checks) x := by
  intro error
  rw [h error, firstFailure_cons]
  constructor
  · intro hrest
    exact .inr ⟨hpasses, hrest⟩
  · rintro (hfails | ⟨-, hrest⟩)
    · exact absurd hfails (hpasses error)
    · exact hrest

/-- When a computation succeeds, its checks have passed. -/
theorem Performs.passes {x : Except ε α} {a : α} (h : Performs fails checks x) (hx : x = .ok a) :
    ∀ check ∈ checks, ∀ cause, ¬fails check cause := by
  intro check hcheck cause hfails
  obtain ⟨error, herror⟩ := exists_firstFailure hcheck hfails
  exact absurd (((h error).mpr herror).symm.trans hx) (by simp)

theorem Performs.bind {x : Except ε α} {f : α → Except ε β} (hx : Performs fails before x)
    (hf : ∀ a, x = .ok a → Performs fails after (f a)) :
    Performs fails (before ++ after) (x >>= f) := by
  intro error
  rw [firstFailure_append]
  cases x with
  | error cause =>
    -- the checks of `x` have a first failure, so that they did not all pass
    have hcause : FirstFailure fails before cause := (hx cause).mp rfl
    show Except.error cause = Except.error error ↔ _
    constructor
    · intro h
      exact .inl ((hx error).mp (congrArg Except.error (Except.error.inj h)))
    · rintro (herror | ⟨hpasses, -⟩)
      · exact congrArg Except.error (Except.error.inj ((hx error).mpr herror))
      · obtain ⟨_, check, _, rfl, -, hfails⟩ := hcause
        exact absurd hfails (hpasses check (by simp) cause)
  | ok a =>
    show f a = .error error ↔ _
    rw [hf a rfl error]
    constructor
    · intro h
      exact .inr ⟨hx.passes rfl, h⟩
    · rintro (herror | ⟨-, h⟩)
      · exact absurd ((hx error).mpr herror) (by simp)
      · exact h

/-- What is done with a result without any check. -/
theorem Performs.bind_pure {x : Except ε α} (h : Performs fails checks x) (g : α → β) :
    Performs fails checks (x >>= fun a => pure (g a)) := by
  rw [← List.append_nil checks]
  exact h.bind fun a _ => performs_ok (g a)

/-- One computation on each element of a list makes the checks of the elements, in order. -/
theorem Performs.mapM {f : α → Except ε β} {checksOf : α → List κ}
    (h : ∀ a, Performs fails (checksOf a) (f a)) (as : List α) :
    Performs fails (as.flatMap checksOf) (as.mapM f) := by
  induction as with
  | nil => exact performs_ok []
  | cons a rest ih =>
    rw [List.flatMap_cons, List.mapM_cons]
    exact (h a).bind fun b _ => ih.bind_pure (b :: ·)

end FirstFailure

end WebKey
