/-
Looking up, merging and filtering members.

* **`Members.lookup_insert`** — setting a member changes the look-up of its name only;
* **`Members.lookup_extend`**, **`Members.lookup_filter`** — looking up after a merge, and
  after a filter that goes by names;
* **`Members.extend_eq_self`** — setting members to the values they have changes nothing,
  not even their order;
* **`Members.filter_insert`** — a filter that goes by names keeps or drops a new member;
* **`FieldSet.ext_of_lookup`** — a field set is determined by its names, in their order, and its
  look-ups;
* **`FieldSet.field?_put`**, **`FieldSet.without_put`** — setting and leaving out the member of a
  parameter;
* **`Members.requiredInteger_eq_ok_iff`**, **`Members.requiredInteger_eq_error_iff`** — the
  integer of a parameter is read where its member holds one (`Members.HoldsInteger`), and
  elsewhere its fault is reported (`Members.IntegerFault`);
* **`FieldSet.requiredInteger_putInteger`** — a positive integer that was set is read back.
-/
import WebKey.Proofs.Computation
import WebKey.Proofs.IntegerText

namespace WebKey

namespace Members

theorem lookup_insert (members : Members) (name other : String) (value : Json) :
    (members.insert name value).lookup other =
      if other = name then some value else members.lookup other := by
  induction members with
  | nil =>
    by_cases h : other = name
    · simp [insert, h]
    · simp [insert, h, List.lookup_cons, beq_eq_false_iff_ne.mpr h]
  | cons member rest ih =>
    obtain ⟨first, old⟩ := member
    rw [insert]
    by_cases hfirst : first = name
    · subst hfirst
      by_cases hother : other = first
      · simp [hother]
      · simp [hother, List.lookup_cons, beq_eq_false_iff_ne.mpr hother]
    · -- the new member is further on, so the first one still answers to its own name
      rw [if_neg hfirst, List.lookup_cons, List.lookup_cons, ih]
      by_cases hother : other = first
      · simp [hother, hfirst]
      · simp [beq_eq_false_iff_ne.mpr hother]

theorem insert_eq_self {members : Members} {name : String} {value : Json}
    (h : members.lookup name = some value) : members.insert name value = members := by
  induction members with
  | nil => exact absurd h (by simp)
  | cons member rest ih =>
    obtain ⟨first, old⟩ := member
    rw [insert]
    by_cases hfirst : first = name
    · subst hfirst
      rw [List.lookup_cons_self, Option.some_inj] at h
      rw [if_pos rfl, h]
    · rw [List.lookup_cons, beq_eq_false_iff_ne.mpr (Ne.symm hfirst)] at h
      rw [if_neg hfirst, ih h]

theorem extend_eq_self {members others : Members}
    (h : ∀ member ∈ others, members.lookup member.1 = some member.2) :
    members.extend others = members := by
  induction others with
  | nil => rfl
  | cons member rest ih =>
    rw [List.forall_mem_cons] at h
    show (members.insert member.1 member.2).extend rest = members
    rw [insert_eq_self h.1, ih h.2]

theorem filter_insert (members : Members) (name : String) (value : Json) (keep : String → Bool) :
    (members.insert name value).filter (fun member => keep member.1) =
      if keep name then Members.insert (members.filter fun member => keep member.1) name value
      else members.filter fun member => keep member.1 := by
  induction members with
  | nil => by_cases h : keep name <;> simp [insert, h]
  | cons member rest ih =>
    obtain ⟨first, old⟩ := member
    rw [insert]
    by_cases hfirst : first = name
    · subst hfirst
      by_cases hkeep : keep first <;> simp [hkeep, insert]
    · rw [if_neg hfirst, List.filter_cons, List.filter_cons, ih]
      by_cases hkeep : keep first <;> by_cases hname : keep name <;>
        simp [hkeep, hname, insert, hfirst]

/-- In members with distinct names each member is found by its name. -/
theorem lookup_of_mem {members : Members} (hnodup : members.names.Nodup) {name : String}
    {value : Json} (h : (name, value) ∈ members) : members.lookup name = some value := by
  induction members with
  | nil => exact absurd h (by simp)
  | cons member rest ih =>
    obtain ⟨first, old⟩ := member
    rw [names, List.map_cons, List.nodup_cons] at hnodup
    -- either it is the first member, or the first one has another name
    rcases List.mem_cons.mp h with heq | hrest
    · rw [Prod.mk.injEq] at heq
      rw [heq.1, heq.2, List.lookup_cons_self]
    · have hne : name ≠ first := by
        rintro rfl
        exact hnodup.1 (List.mem_map.mpr ⟨_, hrest, rfl⟩)
      rw [List.lookup_cons, beq_eq_false_iff_ne.mpr hne]
      exact ih hnodup.2 hrest

theorem lookup_filter (members : Members) (keep : String → Bool) {name : String}
    (h : keep name = true) :
    List.lookup name (members.filter fun member => keep member.1) = members.lookup name := by
  induction members with
  | nil => rfl
  | cons member rest ih =>
    obtain ⟨first, value⟩ := member
    by_cases hfirst : name = first
    · subst hfirst
      rw [List.filter_cons, if_pos h, List.lookup_cons_self, List.lookup_cons_self]
    · rw [List.lookup_cons, beq_eq_false_iff_ne.mpr hfirst, ← ih, List.filter_cons]
      split
      · rw [List.lookup_cons, beq_eq_false_iff_ne.mpr hfirst]
      · rfl

theorem lookup_eq_none_iff {members : Members} {name : String} :
    members.lookup name = none ↔ name ∉ members.names := by
  rw [List.lookup_eq_none_iff, names, List.mem_map]
  constructor
  · rintro h ⟨member, hmember, rfl⟩
    exact absurd rfl (bne_iff_ne.mp (h member hmember))
  · intro h member hmember
    rw [bne_iff_ne]
    rintro rfl
    exact h ⟨member, hmember, rfl⟩

theorem exists_lookup_of_mem {members : Members} {name : String} (h : name ∈ members.names) :
    ∃ value, members.lookup name = some value :=
  Option.ne_none_iff_exists'.mp fun hnone => lookup_eq_none_iff.mp hnone h

/-- After a merge a member has the value that was merged in, if there is one. -/
theorem lookup_extend (members : Members) {others : Members} (hnodup : others.names.Nodup)
    (name : String) :
    (members.extend others).lookup name = (others.lookup name).or (members.lookup name) := by
  induction others generalizing members with
  | nil => rfl
  | cons member rest ih =>
    obtain ⟨first, value⟩ := member
    rw [names, List.map_cons, List.nodup_cons] at hnodup
    show ((members.insert first value).extend rest).lookup name = _
    rw [ih _ hnodup.2, lookup_insert, List.lookup_cons]
    by_cases hname : name = first
    · subst hname
      -- the name does not occur again, so that nothing replaces the value
      have hrest : rest.lookup name = none := lookup_eq_none_iff.mpr hnodup.1
      rw [hrest, if_pos rfl, beq_self_eq_true]
      rfl
    · rw [if_neg hname, beq_eq_false_iff_ne.mpr hname]

/-! ### Absent members -/

/-- There is no member of this name, or its value is `null`. -/
def Absent (members : Members) (name : String) : Prop :=
  members.lookup name = none ∨ members.lookup name = some .null

theorem field?_eq_some_iff {members : Members} {name : String} {value : Json} :
    members.field? name = some value ↔ members.lookup name = some value ∧ value.isNull = false := by
  rw [field?, Option.filter_eq_some_iff, Bool.not_eq_true']

theorem field?_eq_none_iff {members : Members} {name : String} :
    members.field? name = none ↔ members.Absent name := by
  rw [field?, Absent]
  cases members.lookup name with
  | none => simp
  | some value => cases value <;> simp [Json.isNull]

theorem hasField_eq_false_iff {members : Members} {name : String} :
    members.hasField name = false ↔ members.Absent name := by
  rw [hasField, Option.isSome_eq_false_iff, Option.isNone_iff_eq_none, field?_eq_none_iff]

/-- Members are absent alike if their values are related by what leaves `null` alone. -/
theorem field?_rel {r : Json → Json → Prop} {members others : Members} {name : String}
    (hnull : ∀ value other, r value other → value.isNull = other.isNull)
    (h : Option.Rel r (members.lookup name) (others.lookup name)) :
    Option.Rel r (members.field? name) (others.field? name) := by
  rw [field?, field?]
  generalize members.lookup name = found, others.lookup name = found' at h
  cases h with
  | none => exact .none
  | some h =>
    rw [Option.filter_some, Option.filter_some, hnull _ _ h]
    split
    · exact .some h
    · exact .none

theorem hasField_eq_of_rel {r : Json → Json → Prop} {members others : Members} {name : String}
    (h : Option.Rel r (members.field? name) (others.field? name)) :
    members.hasField name = others.hasField name := by
  rw [hasField, hasField]
  generalize members.field? name = found, others.field? name = found' at h
  cases h with
  | none => rfl
  | some => rfl

end Members

namespace FieldSet

theorem ext {fields others : FieldSet} (h : fields.members = others.members) : fields = others := by
  cases fields
  cases others
  cases h
  rfl

/-- The members are given by the names and what is found by them. -/
theorem members_eq_map (fields : FieldSet) :
    fields.members = fields.names.map fun name => (name, (fields.lookup name).getD .null) := by
  rw [names, Members.names, List.map_map]
  refine (List.map_id _).symm.trans (List.map_congr_left fun member hmember => ?_)
  have hlookup : fields.lookup member.1 = some member.2 :=
    Members.lookup_of_mem fields.nodup hmember
  rw [Function.comp_apply, hlookup]
  rfl

/-- A field set is determined by its names, in their order, and its look-ups. -/
theorem ext_of_lookup {fields others : FieldSet} (hnames : fields.names = others.names)
    (hlookup : ∀ name, fields.lookup name = others.lookup name) : fields = others := by
  refine ext ?_
  rw [members_eq_map fields, members_eq_map others, hnames]
  refine List.map_congr_left fun name _ => ?_
  rw [hlookup]

theorem lookup_put (fields : FieldSet) (param : Param) (value : Json) (name : String) :
    (fields.put param value).lookup name =
      if name = param.id then some value else fields.lookup name :=
  Members.lookup_insert fields.members param.id name value

theorem lookup_put_of_ne {fields : FieldSet} {param : Param} {value : Json} {name : String}
    (h : name ≠ param.id) : (fields.put param value).lookup name = fields.lookup name := by
  rw [lookup_put, if_neg h]

theorem lookup_without (fields : FieldSet) {params : List Param} {name : String}
    (h : ∀ param ∈ params, param.id ≠ name) :
    (fields.without params).lookup name = fields.lookup name := by
  refine Members.lookup_filter fields.members (fun name => !params.any (·.id == name)) ?_
  simpa using h

theorem lookup_extend (fields others : FieldSet) (name : String) :
    (fields.extend others).lookup name = (others.lookup name).or (fields.lookup name) :=
  Members.lookup_extend fields.members others.nodup name

theorem field?_congr {fields others : FieldSet} {name : String}
    (h : fields.lookup name = others.lookup name) : fields.field? name = others.field? name := by
  have hmembers : fields.members.lookup name = others.members.lookup name := h
  rw [field?, field?, Members.field?, Members.field?, hmembers]

theorem field?_put (fields : FieldSet) (param : Param) {value : Json}
    (hvalue : value.isNull = false) (name : String) :
    (fields.put param value).field? name =
      if name = param.id then some value else fields.field? name := by
  by_cases h : name = param.id
  · have hlookup : (fields.put param value).lookup name = some value := by
      rw [lookup_put, if_pos h]
    show Option.filter _ ((fields.put param value).lookup name) = _
    rw [hlookup, if_pos h, Option.filter_some, hvalue]
    rfl
  · rw [if_neg h, field?_congr (lookup_put_of_ne h)]

theorem field?_putInteger (fields : FieldSet) (param : Param) (value : ℕ) (name : String) :
    (fields.putInteger param value).field? name =
      if name = param.id then some (.string (Integer.encode value)) else fields.field? name :=
  fields.field?_put param rfl name

theorem without_put (fields : FieldSet) (param : Param) (value : Json) (params : List Param) :
    (fields.put param value).without params =
      if params.any (·.id == param.id) then fields.without params
      else (fields.without params).put param value := by
  have hfilter := Members.filter_insert fields.members param.id value
    fun name => !params.any (·.id == name)
  by_cases h : params.any (·.id == param.id) = true
  · rw [if_pos h]
    refine ext (hfilter.trans (if_neg ?_))
    simp [h]
  · rw [if_neg h]
    refine ext (hfilter.trans (if_pos ?_))
    simp [h]

theorem without_put_of_mem {fields : FieldSet} {param : Param} {value : Json} {params : List Param}
    (h : param ∈ params) : (fields.put param value).without params = fields.without params := by
  rw [without_put, if_pos (List.any_eq_true.mpr ⟨param, h, by simp⟩)]

theorem extend_eq_self {fields others : FieldSet}
    (h : ∀ member ∈ others.members, fields.lookup member.1 = some member.2) :
    fields.extend others = fields :=
  ext (Members.extend_eq_self h)

end FieldSet

/-! ### Integers -/

namespace Members

/-- The member of a parameter is a text that stands for this positive integer. -/
def HoldsInteger (members : Members) (param : Param) (value : ℕ) : Prop :=
  0 < value ∧
    ∃ text, members.lookup param.id = some (.string text) ∧ Integer.StandsFor text value

theorem HoldsInteger.of_octets {members : Members} {param : Param} (octets : List UInt8)
    (hlookup : members.lookup param.id = some (.string (Base64Url.encode octets)))
    (hpos : 0 < Octets.toNat octets) : members.HoldsInteger param (Octets.toNat octets) :=
  ⟨hpos, _, hlookup, .of_octets octets rfl hpos⟩

theorem HoldsInteger.ne_nil {members : Members} {param : Param} {value : ℕ}
    (h : members.HoldsInteger param value) : members ≠ [] := by
  rintro rfl
  obtain ⟨-, text, htext, -⟩ := h
  exact absurd htext (by simp)

/-- What is wrong with a parameter whose member holds no positive integer. -/
inductive IntegerFault (members : Members) (param : Param) : MemberFault → Prop where
  | missing (h : members.Absent param.id) : IntegerFault members param (.missing param)
  | ofValue {value : Json} {fault : MemberFault} (hvalue : members.lookup param.id = some value)
      (hnull : value.isNull = false) (hfault : value.IntegerFault param fault) :
    IntegerFault members param fault

theorem requiredInteger_eq_ok_iff {members : Members} {param : Param} {value : ℕ} :
    members.requiredInteger param = .ok value ↔ members.HoldsInteger param value := by
  rw [requiredInteger]
  cases hfield : members.field? param.id with
  | none =>
    constructor
    · intro h
      exact absurd h (by simp)
    · rintro ⟨-, text, htext, -⟩
      rw [field?_eq_some_iff.mpr ⟨htext, rfl⟩] at hfield
      exact absurd hfield (by simp)
  | some found =>
    obtain ⟨hlookup, -⟩ := field?_eq_some_iff.mp hfield
    simp only [mapError_eq_ok_iff, Json.positiveInteger_eq_ok_iff, HoldsInteger, hlookup,
      Option.some_inj]

theorem HoldsInteger.unique {members : Members} {param : Param} {value other : ℕ}
    (h : members.HoldsInteger param value) (h' : members.HoldsInteger param other) :
    value = other := by
  rw [← requiredInteger_eq_ok_iff] at h h'
  exact Except.ok.inj (h.symm.trans h')

theorem requiredInteger_eq_error_iff {members : Members} {param : Param} {error : RsaError} :
    members.requiredInteger param = .error error ↔
      ∃ fault, members.IntegerFault param fault ∧ error = .malformed param.id fault := by
  rw [requiredInteger]
  cases hfield : members.field? param.id with
  | none =>
    constructor
    · intro h
      exact ⟨_, .missing (field?_eq_none_iff.mp hfield), (Except.error.inj h).symm⟩
    · rintro ⟨_, habsent | ⟨hvalue, hnull, -⟩, rfl⟩
      · rfl
      · rw [field?_eq_some_iff.mpr ⟨hvalue, hnull⟩] at hfield
        exact absurd hfield (by simp)
  | some found =>
    obtain ⟨hlookup, hnull⟩ := field?_eq_some_iff.mp hfield
    simp only [mapError_eq_error_iff, Json.positiveInteger_eq_error_iff]
    constructor
    · rintro ⟨fault, hfault, rfl⟩
      exact ⟨fault, .ofValue hlookup hnull hfault, rfl⟩
    · rintro ⟨_, habsent | ⟨hvalue, -, hfault⟩, rfl⟩
      · rw [field?_eq_none_iff.mpr habsent] at hfield
        exact absurd hfield (by simp)
      · obtain rfl := Option.some_inj.mp (hlookup.symm.trans hvalue)
        exact ⟨_, hfault, rfl⟩

end Members

theorem Members.requiredInteger_of_field? {members : Members} {param : Param} {value : ℕ}
    (h : members.field? param.id = some (.string (Integer.encode value))) :
    members.requiredInteger param =
      if value = 0 then .error (.malformed param.id (.notPositive param)) else .ok value := by
  rw [requiredInteger, h]
  show (Json.positiveInteger param _).mapError _ = _
  rw [Json.positiveInteger_encode]
  by_cases hvalue : value = 0
  · rw [if_pos hvalue, if_pos hvalue]
    rfl
  · rw [if_neg hvalue, if_neg hvalue]
    rfl

namespace FieldSet

/-- Reading an integer goes by the value of its parameter. -/
theorem requiredInteger_congr {fields others : FieldSet} {param : Param}
    (h : fields.field? param.id = others.field? param.id) :
    fields.requiredInteger param = others.requiredInteger param := by
  have hmembers : fields.members.field? param.id = others.members.field? param.id := h
  rw [requiredInteger, requiredInteger, Members.requiredInteger, Members.requiredInteger, hmembers]

theorem requiredInteger_putInteger (fields : FieldSet) (param : Param) (value : ℕ) :
    (fields.putInteger param value).requiredInteger param =
      if value = 0 then .error (.malformed param.id (.notPositive param)) else .ok value :=
  Members.requiredInteger_of_field?
    ((fields.field?_putInteger param value param.id).trans (if_pos rfl))

theorem requiredInteger_put_of_ne (fields : FieldSet) {param other : Param} {value : Json}
    (hvalue : value.isNull = false) (h : other.id ≠ param.id) :
    (fields.put param value).requiredInteger other = fields.requiredInteger other :=
  requiredInteger_congr ((fields.field?_put param hvalue other.id).trans (if_neg h))

theorem requiredInteger_putInteger_of_ne (fields : FieldSet) {param other : Param} (value : ℕ)
    (h : other.id ≠ param.id) :
    (fields.putInteger param value).requiredInteger other = fields.requiredInteger other :=
  fields.requiredInteger_put_of_ne rfl h

end FieldSet

end WebKey
