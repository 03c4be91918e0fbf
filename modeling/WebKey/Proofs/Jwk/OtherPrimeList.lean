/-
The list of other primes and its JSON array.

Each other prime is written as one element, with its three integers in a fixed order, and each
element is read on its own. So nothing is lost or reordered on either way: what is written is read
back unless it cannot be read at all, since zeros and empty lists are refused, and what is read has
one prime for each element.

* **`OtherPrime.components`** — the integers of an element, with their parameters;
* **`OtherPrime.performs_listOfJson_listToJson`** — reading what was written looks for zeros, in
  the order of writing;
* **`OtherPrime.exists_isElement_iff`** — what an element has to be;
* **`OtherPrime.listOfJson_array_eq_ok_iff`** — what is read from an array;
* **`OtherPrime.list_codec_is_faithful`** — lists that are written and read, and arrays that are
  read.
-/
import WebKey.Proofs.Jwk.Failures
import WebKey.Proofs.Jwk.Writing

namespace WebKey.OtherPrime

/-! ### Reading what was written -/

/-- The integers of another prime with their parameters, in the order of writing and reading. -/
def components (info : OtherPrime) : List (Param × ℕ) :=
  [(.primeFactor, info.prime), (.factorCrtExponent, info.exponent),
    (.factorCrtCoefficient, info.coefficient)]

/-- The integer is zero, and the error says so. -/
def IsZero (component : Param × ℕ) (error : RsaError) : Prop :=
  component.2 = 0 ∧ error = .malformed component.1.id (.notPositive component.1)

theorem forall_not_isZero_iff {component : Param × ℕ} :
    (∀ error, ¬IsZero component error) ↔ component.2 ≠ 0 := by
  constructor
  · intro h hzero
    exact h _ ⟨hzero, rfl⟩
  · intro h error hzero
    exact h hzero.1

theorem positive_iff {info : OtherPrime} :
    info.Positive ↔ ∀ component ∈ info.components, ∀ error, ¬IsZero component error := by
  simp only [forall_not_isZero_iff, components, List.forall_mem_cons]
  constructor
  · intro h
    exact ⟨h.prime, h.exponent, h.coefficient, by simp⟩
  · rintro ⟨hprime, hexponent, hcoefficient, -⟩
    exact ⟨hprime, hexponent, hcoefficient⟩

/-- Reading an integer that was written looks whether it is zero. -/
theorem performs_integer {members : Members} (param : Param) {value : ℕ}
    (h : members.field? param.id = some (.string (Integer.encode value))) :
    Performs IsZero [(param, value)] (members.requiredInteger param) := by
  refine performs_single fun error => ?_
  rw [Members.requiredInteger_of_field? h]
  by_cases hzero : value = 0
  · rw [if_pos hzero, Except.error.injEq]
    exact ⟨fun herror => ⟨hzero, herror.symm⟩, fun herror => herror.2.symm⟩
  · rw [if_neg hzero]
    exact ⟨fun herror => absurd herror ok_ne_error, fun herror => absurd herror.1 hzero⟩

theorem performs_ofJson_toMembers (info : OtherPrime) :
    Performs IsZero info.components (ofJson (.object info.toMembers)) := by
  have hne : info.toMembers ≠ [] := List.cons_ne_nil _ _
  exact performs_ofJson_object hne (performs_integer .primeFactor rfl)
    (performs_integer .factorCrtExponent rfl) (performs_integer .factorCrtCoefficient rfl)

/-- Reading a list that was written looks for zeros, one element after the other. -/
theorem performs_listOfJson_listToJson {others : List OtherPrime} (hne : others ≠ []) :
    Performs IsZero (others.flatMap components) (listOfJson (listToJson others)) := by
  have hmap : listOfJson (listToJson others) =
      others.mapM fun info => ofJson (.object info.toMembers) := by
    cases others with
    | nil => exact absurd rfl hne
    | cons info rest => exact List.mapM_map
  rw [hmap]
  exact Performs.mapM performs_ofJson_toMembers others

theorem listOfJson_listToJson_eq_ok_iff {others read : List OtherPrime} :
    listOfJson (listToJson others) = .ok read ↔
      read = others ∧ others ≠ [] ∧ ∀ info ∈ others, info.Positive := by
  constructor
  · intro h
    have hne : others ≠ [] := by
      rintro rfl
      exact absurd h.symm ok_ne_error
    have hpositive : ∀ info ∈ others, info.Positive := by
      intro info hinfo
      refine positive_iff.mpr fun component hcomponent => ?_
      exact (performs_listOfJson_listToJson hne).passes h component
        (List.mem_flatMap_of_mem hinfo hcomponent)
    exact ⟨Except.ok.inj (h.symm.trans (listOfJson_listToJson hne hpositive)), hne, hpositive⟩
  · rintro ⟨rfl, hne, hpositive⟩
    exact listOfJson_listToJson hne hpositive

theorem listOfJson_listToJson_eq_error_iff {others : List OtherPrime} {error : RsaError} :
    listOfJson (listToJson others) = .error error ↔
      (others = [] ∧ error = listError .noElements) ∨
        FirstFailure IsZero (others.flatMap components) error := by
  by_cases hne : others = []
  · subst hne
    show Except.error _ = Except.error error ↔ _
    rw [Except.error.injEq]
    constructor
    · rintro rfl
      exact .inl ⟨rfl, rfl⟩
    · rintro (⟨-, rfl⟩ | hnil)
      · rfl
      · exact absurd hnil not_firstFailure_nil
  · rw [performs_listOfJson_listToJson hne error]
    constructor
    · exact .inr
    · rintro (⟨hnil, -⟩ | hfirst)
      · exact absurd hnil hne
      · exact hfirst

/-! ### Reading any array -/

/-- An element is an object that is not empty and has the three integers. -/
theorem exists_isElement_iff {item : Json} :
    (∃ info, IsElement item info) ↔
      ∃ members, item = .object members ∧ members ≠ [] ∧
        ∀ param ∈ Param.elementParams, ∃ value, Members.HoldsInteger members param value := by
  simp only [Param.elementParams, List.forall_mem_cons]
  constructor
  · rintro ⟨info, members, rfl, hprime, hexponent, hcoefficient⟩
    exact ⟨members, rfl, hprime.ne_nil, ⟨_, hprime⟩, ⟨_, hexponent⟩, ⟨_, hcoefficient⟩, by simp⟩
  · rintro ⟨members, rfl, -, ⟨prime, hprime⟩, ⟨exponent, hexponent⟩, ⟨coefficient, hcoefficient⟩, -⟩
    exact ⟨⟨prime, exponent, coefficient⟩, members, rfl, hprime, hexponent, hcoefficient⟩

theorem exists_forall₂_iff {α β : Type} {r : α → β → Prop} {as : List α} :
    (∃ bs, List.Forall₂ r as bs) ↔ ∀ a ∈ as, ∃ b, r a b := by
  induction as with
  | nil => simp
  | cons a rest ih =>
    rw [List.forall_mem_cons, ← ih]
    constructor
    · rintro ⟨_, h⟩
      cases h with
      | cons ha hrest => exact ⟨⟨_, ha⟩, _, hrest⟩
    · rintro ⟨⟨b, hb⟩, bs, hbs⟩
      exact ⟨b :: bs, .cons hb hbs⟩

theorem exists_listOfJson_iff {value : Json} :
    (∃ others, listOfJson value = .ok others) ↔
      ∃ items, value = .array items ∧ items ≠ [] ∧ ∀ item ∈ items, ∃ info, IsElement item info := by
  simp only [listOfJson_eq_ok_iff, ← exists_forall₂_iff]
  constructor
  · rintro ⟨others, items, rfl, hne, hothers⟩
    exact ⟨items, rfl, hne, others, hothers⟩
  · rintro ⟨items, rfl, hne, others, hothers⟩
    exact ⟨others, items, rfl, hne, hothers⟩

theorem listOfJson_array_eq_ok_iff {items : List Json} {others : List OtherPrime} :
    listOfJson (.array items) = .ok others ↔
      items ≠ [] ∧ List.Forall₂ IsElement items others := by
  rw [listOfJson_eq_ok_iff]
  constructor
  · rintro ⟨_, hitems, hne, hothers⟩
    obtain rfl := Json.array.inj hitems
    exact ⟨hne, hothers⟩
  · rintro ⟨hne, hothers⟩
    exact ⟨items, rfl, hne, hothers⟩

/-- **Writing and reading a list of other primes loses and reorders nothing.** A list that was
written is read as itself if it is not empty and has no zeros; otherwise the list is reported if it
is empty, and its first zero if it is not. A value is read if it is an array that is not empty, with
nothing but objects that are not empty and have three positive integers. Then each element gives one
prime, of these three integers, in order. Otherwise the first check that fails is the one that is
reported, as it is when a private key is read, whatever its other fields and the key factory are:
the form of the value comes first, and then, for one element after the other, the form of the
element and its integers. -/
theorem list_codec_is_faithful :
    (∀ others read, listOfJson (listToJson others) = .ok read ↔
      read = others ∧ others ≠ [] ∧ ∀ info ∈ others, info.Positive) ∧
    (∀ others error, listOfJson (listToJson others) = .error error ↔
      (others = [] ∧ error = .malformed Param.otherPrimesInfo.id .noElements) ∨
        FirstFailure IsZero (others.flatMap components) error) ∧
    (∀ value, (∃ others, listOfJson value = .ok others) ↔
      ∃ items, value = .array items ∧ items ≠ [] ∧ ∀ item ∈ items, ∃ members,
        item = .object members ∧ members ≠ [] ∧
          ∀ param ∈ Param.elementParams, ∃ n, Members.HoldsInteger members param n) ∧
    (∀ items others, listOfJson (.array items) = .ok others ↔
      items ≠ [] ∧ List.Forall₂ IsElement items others) ∧
    ∀ fields factory value error, listOfJson value = .error error ↔
      FirstFailure (PrivateJwk.Fails fields factory) (PrivateJwk.listChecks value) error := by
  refine ⟨fun others read => listOfJson_listToJson_eq_ok_iff,
    fun others error => listOfJson_listToJson_eq_error_iff, fun value => ?_,
    fun items others => listOfJson_array_eq_ok_iff,
    fun fields factory value => PrivateJwk.performs_listOfJson value⟩
  simp only [exists_listOfJson_iff, exists_isElement_iff]

/-- The first zero is the exponent of the second element. -/
example : listOfJson (listToJson [⟨17, 7, 5⟩, ⟨19, 0, 0⟩, ⟨0, 3, 4⟩]) =
    .error (.malformed "d" (.notPositive .factorCrtExponent)) := by cbv

end WebKey.OtherPrime
