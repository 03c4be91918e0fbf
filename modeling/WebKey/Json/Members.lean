/-
The members of a JSON object, in order.

* **`Members.insert`** — sets a member: a name that is present keeps its position and
  takes the new value, a new name goes to the end;
* **`Members.extend`** — sets every member of another list, in its order;
* **`Members.field?`** — look-up that treats the value `null` as absent.

Setting and removing members keeps names distinct (`Members.names_nodup_insert` and its
companions), and members that only arose that way have distinct names.
-/
import WebKey.Json.Basic

namespace WebKey

/-- Names with their values, in order. -/
abbrev Members := List (String × Json)

namespace Members

/-- The names, in order. -/
def names (members : Members) : List String := members.map Prod.fst

/-- Names as messages list them. -/
def describe (names : List String) : String :=
  "\x7b" ++ String.intercalate ", " names ++ "\x7d"

/-- The value of a member, unless it is `null`. -/
def field? (members : Members) (name : String) : Option Json :=
  (members.lookup name).filter fun value => !value.isNull

/-- Is there a member of this name whose value is not `null`? -/
def hasField (members : Members) (name : String) : Bool := (members.field? name).isSome

/-- Sets a member. -/
def insert (members : Members) (name : String) (value : Json) : Members :=
  match members with
  | [] => [(name, value)]
  | (first, old) :: rest =>
    if first = name then (first, value) :: rest else (first, old) :: insert rest name value

/-- Removes a member. -/
def erase (members : Members) (name : String) : Members :=
  members.filter fun member => member.1 ≠ name

/-- Sets every member of `others`, in order. -/
def extend (members others : Members) : Members :=
  others.foldl (fun result member => result.insert member.1 member.2) members

/-! ### Names -/

theorem names_insert (members : Members) (name : String) (value : Json) :
    (members.insert name value).names =
      if name ∈ members.names then members.names else members.names ++ [name] := by
  induction members with
  | nil => simp [insert, names]
  | cons member rest ih =>
    obtain ⟨first, old⟩ := member
    by_cases same : first = name
    · simp [insert, names, same]
    · have other : name ≠ first := fun h => same h.symm
      simp only [names] at ih
      by_cases present : name ∈ rest.map Prod.fst
      · simp [insert, names, same, ih, present]
      · simp [insert, names, same, other, ih, present]

theorem names_nodup_insert {members : Members} (nodup : members.names.Nodup) (name : String)
    (value : Json) : (members.insert name value).names.Nodup := by
  rw [names_insert]
  split
  · exact nodup
  · rename_i absent
    exact List.nodup_append.2
      ⟨nodup, by simp, fun a ha b hb => by rintro rfl; simp at hb; exact absent (hb ▸ ha)⟩

theorem names_nodup_filter {members : Members} (nodup : members.names.Nodup)
    (keep : String × Json → Bool) : (Members.names (members.filter keep)).Nodup :=
  nodup.sublist (List.filter_sublist.map Prod.fst)

theorem names_nodup_extend {members : Members} (nodup : members.names.Nodup) (others : Members) :
    (members.extend others).names.Nodup := by
  induction others generalizing members with
  | nil => exact nodup
  | cons member rest ih => exact ih (names_nodup_insert nodup member.1 member.2)

end Members

end WebKey
