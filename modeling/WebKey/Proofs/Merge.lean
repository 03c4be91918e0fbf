/-
Merging field sets, member by member.

Setting a member keeps its position if its name is present, and adds it at the end if not.
So a merge keeps the members of the first set in their order, with the value of the second
set where that has the name, and adds at the end what else the second set has, in its order.

* **`Members.insert_of_mem`**, **`Members.insert_of_not_mem`** — the two ways to set a member;
* **`Members.extend_eq`** — the members of a merge;
* **`Members.filter_extend`**, **`FieldSet.without_extend`** — a filter that goes by names can be
  made before a merge or after it;
* **`FieldSet.names_without`** and **`FieldSet.lookup_without_eq`** — the members that a filter
  leaves;
* **`FieldSet.without_without`** — the weaker of two filters does not count;
* **`FieldSet.extend_extend`**, **`FieldSet.extend_self`** — merging is associative, and merging a
  set into itself changes nothing;
* **`FieldSet.merge_laws`** — these laws together.
-/
import Mathlib
import WebKey.Proofs.FieldSet

namespace WebKey

namespace Members

variable {members others : Members} {name : String}

/-- The member with the value that the other members have for its name, if they have one. -/
def updated (others : Members) (member : String × Json) : String × Json :=
  (member.1, (others.lookup member.1).getD member.2)

theorem updated_of_lookup_eq_none {member : String × Json} (h : others.lookup member.1 = none) :
    updated others member = member := by
  rw [updated, h]
  rfl

theorem extend_append (members others later : Members) :
    members.extend (others ++ later) = (members.extend others).extend later :=
  List.foldl_append

theorem map_updated_eq_self (h : ∀ member ∈ members, updated others member = member) :
    members.map (updated others) = members :=
  (List.map_congr_left h).trans (List.map_id members)

theorem insert_of_not_mem (value : Json) (h : name ∉ members.names) :
    members.insert name value = members ++ [(name, value)] := by
  induction members with
  | nil => rfl
  | cons member rest ih =>
    rw [names, List.map_cons, List.mem_cons, not_or] at h
    rw [insert, if_neg (Ne.symm h.1), ih h.2]
    rfl

theorem insert_of_mem (hnodup : members.names.Nodup) (value : Json) (h : name ∈ members.names) :
    members.insert name value = members.map (updated [(name, value)]) := by
  induction members with
  | nil => exact absurd h (by simp [names])
  | cons member rest ih =>
    obtain ⟨first, old⟩ := member
    rw [names, List.map_cons, List.nodup_cons] at hnodup
    rw [insert, List.map_cons]
    by_cases hfirst : first = name
    · subst hfirst
      -- the name does not occur again, so the rest stays
      have hrest : List.map (updated [(first, value)]) rest = rest := by
        refine map_updated_eq_self fun member hmember => updated_of_lookup_eq_none ?_
        refine lookup_eq_none_iff.mpr ?_
        intro hname
        exact hnodup.1 (List.mem_singleton.mp hname ▸ List.mem_map_of_mem hmember)
      rw [if_pos rfl, hrest, updated, List.lookup_cons_self]
      rfl
    · have hmem : name ∈ names rest := by
        rcases List.mem_cons.mp h with rfl | hmem
        · exact absurd rfl hfirst
        · exact hmem
      have hother : updated [(name, value)] (first, old) = (first, old) :=
        updated_of_lookup_eq_none (lookup_eq_none_iff.mpr (by simpa [names] using hfirst))
      rw [if_neg hfirst, ih hnodup.2 hmem, hother]

/-- **A merge, member by member**: the members that are there keep their positions and take the
new values, and the others follow in their order. -/
theorem extend_eq (hmembers : members.names.Nodup) (hothers : others.names.Nodup) :
    members.extend others =
      members.map (updated others) ++
        others.filter fun member => decide (member.1 ∉ members.names) := by
  induction others generalizing members with
  | nil =>
    show members = members.map (updated []) ++ []
    rw [List.append_nil, map_updated_eq_self fun member _ => updated_of_lookup_eq_none rfl]
  | cons member rest ih =>
    obtain ⟨name, value⟩ := member
    rw [names, List.map_cons, List.nodup_cons] at hothers
    have hrest : List.lookup name rest = none := lookup_eq_none_iff.mpr hothers.1
    have hlater : ∀ member : String × Json, member.1 ≠ name →
        updated rest member = updated ((name, value) :: rest) member := by
      intro member hmember
      rw [updated, updated, List.lookup_cons, beq_eq_false_iff_ne.mpr hmember]
    show (members.insert name value).extend rest = _
    rw [ih (names_nodup_insert hmembers name value) hothers.2, names_insert, List.filter_cons]
    by_cases hname : name ∈ members.names
    · rw [if_pos hname, if_neg (by simpa using hname), insert_of_mem hmembers value hname,
        List.map_map]
      refine congrArg (· ++ _) (List.map_congr_left fun member _ => ?_)
      by_cases hsame : member.1 = name
      · simp [updated, hsame, hrest]
      · have hkept : updated [(name, value)] member = member :=
          updated_of_lookup_eq_none (lookup_eq_none_iff.mpr (by simpa [names] using hsame))
        rw [Function.comp_apply, hkept, hlater member hsame]
    · rw [if_neg hname, if_pos (by simpa using hname), insert_of_not_mem value hname,
        List.map_append, List.append_assoc, List.map_singleton, List.singleton_append,
        updated_of_lookup_eq_none hrest]
      have hmap : members.map (updated rest) = members.map (updated ((name, value) :: rest)) := by
        refine List.map_congr_left fun member hmember => hlater member ?_
        rintro rfl
        exact hname (List.mem_map_of_mem hmember)
      have hfilter : (rest.filter fun member => decide (member.1 ∉ members.names ++ [name])) =
          rest.filter fun member => decide (member.1 ∉ members.names) := by
        refine List.filter_congr fun member hmember => ?_
        have hne : member.1 ≠ name := by
          intro hsame
          exact hothers.1 (List.mem_map.mpr ⟨member, hmember, hsame⟩)
        simp [hne]
      rw [hmap, hfilter]

/-- A filter that goes by names commutes with a merge. -/
theorem filter_extend (members others : Members) (keep : String → Bool) :
    (members.extend others).filter (fun member => keep member.1) =
      Members.extend (members.filter fun member => keep member.1)
        (others.filter fun member => keep member.1) := by
  induction others generalizing members with
  | nil => rfl
  | cons member rest ih =>
    show ((members.insert member.1 member.2).extend rest).filter _ = _
    rw [ih, filter_insert, List.filter_cons]
    by_cases hkeep : keep member.1 = true
    · rw [if_pos hkeep, if_pos hkeep]
      rfl
    · rw [if_neg hkeep, if_neg hkeep]

end Members

namespace FieldSet

theorem without_extend (fields others : FieldSet) (params : List Param) :
    (fields.extend others).without params =
      (fields.without params).extend (others.without params) :=
  ext (Members.filter_extend fields.members others.members
    fun name => !params.any (·.id == name))

/-- A merge puts the names that are new at the end. -/
theorem names_extend (fields others : FieldSet) :
    (fields.extend others).names =
      fields.names ++ others.names.filter fun name => decide (name ∉ fields.names) := by
  show (fields.members.extend others.members).map Prod.fst = _
  rw [Members.extend_eq fields.nodup others.nodup, List.map_append, List.map_map]
  refine congrArg₂ (· ++ ·) rfl ?_
  show _ = (others.members.map Prod.fst).filter _
  rw [List.filter_map]
  rfl

/-- Leaving members out changes nothing if more are left out afterwards. -/
theorem without_without {params more : List Param} (h : params ⊆ more) (fields : FieldSet) :
    (fields.without params).without more = fields.without more := by
  refine ext ?_
  show (fields.members.filter _).filter _ = fields.members.filter _
  rw [List.filter_filter]
  refine List.filter_congr fun member _ => ?_
  by_cases hmore : more.any (·.id == member.1) = true
  · rw [hmore]
    rfl
  · have hparams : ¬params.any (·.id == member.1) = true := by
      intro hany
      obtain ⟨param, hparam, hid⟩ := List.any_eq_true.mp hany
      exact hmore (List.any_eq_true.mpr ⟨param, h hparam, hid⟩)
    rw [Bool.not_eq_true] at hmore hparams
    rw [hmore, hparams]
    rfl

theorem without_eq_self {fields : FieldSet} {params : List Param}
    (h : ∀ param ∈ params, param.id ∉ fields.names) : fields.without params = fields := by
  refine ext (List.filter_eq_self.mpr fun member hmember => ?_)
  rw [Bool.not_eq_true', List.any_eq_false]
  intro param hparam hid
  exact h param hparam (beq_iff_eq.mp hid ▸ List.mem_map_of_mem hmember)

/-- The names that are left keep their order. -/
theorem names_without (fields : FieldSet) (params : List Param) :
    (fields.without params).names =
      fields.names.filter fun name => !params.any (·.id == name) := by
  show (fields.members.filter _).map Prod.fst = (fields.members.map Prod.fst).filter _
  rw [List.filter_map]
  rfl

theorem lookup_without_eq (fields : FieldSet) (params : List Param) (name : String) :
    (fields.without params).lookup name =
      if params.any (·.id == name) then none else fields.lookup name := by
  split
  · rename_i h
    refine Members.lookup_eq_none_iff.mpr ?_
    intro hname
    obtain ⟨member, hmember, rfl⟩ := List.mem_map.mp hname
    have hkept := (List.mem_filter.mp hmember).2
    simp [h] at hkept
  · rename_i h
    exact fields.lookup_without (by simpa using h)

/-! ### Laws -/

/-- After a merge a member has the value of the second set, if that has the name. -/
theorem lookup_extend_eq_ite (fields others : FieldSet) (name : String) :
    (fields.extend others).lookup name =
      if name ∈ others.names then others.lookup name else fields.lookup name := by
  rw [lookup_extend]
  by_cases hname : name ∈ others.names
  · obtain ⟨value, hvalue⟩ : ∃ value, others.lookup name = some value :=
      Members.exists_lookup_of_mem hname
    rw [if_pos hname, hvalue, Option.some_or]
  · have hnone : others.lookup name = none := Members.lookup_eq_none_iff.mpr hname
    rw [if_neg hname, hnone, Option.none_or]

/-- Merging is associative: both ways the later value counts, and both ways a name stands where it
comes first. -/
theorem extend_extend (fields others later : FieldSet) :
    (fields.extend others).extend later = fields.extend (others.extend later) := by
  refine ext_of_lookup ?_ fun name => ?_
  · -- a name of the third set is new if neither of the first two has it
    have hnew : later.names.filter (fun name => decide (name ∉ (fields.extend others).names)) =
        (later.names.filter fun name => decide (name ∉ others.names)).filter
          fun name => decide (name ∉ fields.names) := by
      rw [List.filter_filter]
      refine List.filter_congr fun name _ => ?_
      rw [← Bool.decide_and, decide_eq_decide, names_extend, List.mem_append, not_or]
      exact and_congr_right fun hfields => not_congr (by simp [hfields])
    calc ((fields.extend others).extend later).names
        = (fields.extend others).names ++
            later.names.filter fun name => decide (name ∉ (fields.extend others).names) :=
          names_extend _ _
      _ = fields.names ++ (others.names ++
            later.names.filter fun name => decide (name ∉ others.names)).filter
              fun name => decide (name ∉ fields.names) := by
          rw [hnew, names_extend, List.filter_append, List.append_assoc]
      _ = (fields.extend (others.extend later)).names := by
          rw [names_extend fields, names_extend others]
  · rw [lookup_extend, lookup_extend, lookup_extend, lookup_extend, Option.or_assoc]

theorem extend_self (fields : FieldSet) : fields.extend fields = fields :=
  extend_eq_self fun _ => Members.lookup_of_mem fields.nodup

/-- **The laws of merging and filtering.** A merge has the names of the first set, in their order,
and then the new names of the second, in theirs. No name comes twice, and a value is that of the
second set if that has the name, also if it is `null`. Merging is associative, changes nothing if
the two sets are the same, and commutes with leaving out parameters; each of these holds for the
order of members as well. Leaving out parameters leaves the other names, in their order and with
their values. -/
theorem merge_laws (fields others later : FieldSet) (params : List Param) :
    (fields.extend others).names =
        fields.names ++ others.names.filter (fun name => decide (name ∉ fields.names)) ∧
      (fields.extend others).names.Nodup ∧
      (∀ name, (fields.extend others).lookup name =
        if name ∈ others.names then others.lookup name else fields.lookup name) ∧
      (fields.extend others).extend later = fields.extend (others.extend later) ∧
      fields.extend fields = fields ∧
      (fields.extend others).without params =
        (fields.without params).extend (others.without params) ∧
      (fields.without params).names =
        fields.names.filter (fun name => !params.any (·.id == name)) ∧
      ∀ name, (fields.without params).lookup name =
        if params.any (·.id == name) then none else fields.lookup name :=
  ⟨names_extend fields others, (fields.extend others).nodup, lookup_extend_eq_ite fields others,
    extend_extend fields others later, extend_self fields, without_extend fields others params,
    names_without fields params, lookup_without_eq fields params⟩

/-- A member that takes the value `null` keeps its place. -/
example :
    (FieldSet.extend ⟨[("kty", .string "RSA"), ("n", .string "AQ")], by decide⟩
      ⟨[("e", .string "Aw"), ("kty", .null)], by decide⟩).members =
      [("kty", .null), ("n", .string "AQ"), ("e", .string "Aw")] := rfl

end FieldSet

end WebKey
