/-
The field set of a JSON Web Key: its members, in order, with distinct names.

The operations are those of `Members`, kept within field sets. A member whose value is
`null` is part of the set, but counts as absent when it is read.

* **`FieldSet.parse?`** — the field set of a JSON text;
* **`FieldSet.extend`**, **`FieldSet.without`** — merging and filtering.
-/
import WebKey.Json.Parser
import WebKey.Json.Printer
import WebKey.Param

namespace WebKey

/-- Members with distinct names. -/
structure FieldSet where
  members : Members
  nodup : members.names.Nodup

namespace FieldSet

/-- The set without members. -/
def empty : FieldSet := ⟨[], List.nodup_nil⟩

/-- Sets a member. A name that is present keeps its position. -/
def insert (fields : FieldSet) (name : String) (value : Json) : FieldSet :=
  ⟨fields.members.insert name value, Members.names_nodup_insert fields.nodup name value⟩

/-- Removes a member. -/
def erase (fields : FieldSet) (name : String) : FieldSet :=
  ⟨fields.members.erase name, Members.names_nodup_filter fields.nodup _⟩

/-- Sets members in their order. -/
def extendMembers (fields : FieldSet) (others : Members) : FieldSet :=
  ⟨fields.members.extend others, Members.names_nodup_extend fields.nodup others⟩

/-- Sets every member of another set, in its order. -/
def extend (fields others : FieldSet) : FieldSet := fields.extendMembers others.members

/-- The set without the members of these parameters. -/
def without (fields : FieldSet) (params : List Param) : FieldSet :=
  ⟨fields.members.filter fun member => !params.any fun param => param.id == member.1,
    Members.names_nodup_filter fields.nodup _⟩

/-- The set with these members; where a name occurs again, its last value counts. -/
def ofMembers (members : Members) : FieldSet :=
  empty.extendMembers members

/-- Sets the member of a parameter. -/
def put (fields : FieldSet) (param : Param) (value : Json) : FieldSet :=
  fields.insert param.id value

/-! ### Reading -/

/-- The names, in order. -/
def names (fields : FieldSet) : List String := fields.members.names

/-- The value of a member as it stands, `null` included. -/
def lookup (fields : FieldSet) (name : String) : Option Json := fields.members.lookup name

/-- The value of a member, unless it is `null`. -/
def field? (fields : FieldSet) (name : String) : Option Json := fields.members.field? name

/-- Is there a member of this name whose value is not `null`? -/
def hasField (fields : FieldSet) (name : String) : Bool := fields.members.hasField name

/-- The number of members. -/
def size (fields : FieldSet) : Nat := fields.members.length

/-- The set as a JSON object. -/
def toJson (fields : FieldSet) : Json := .object fields.members

/-- Equality of sets, where the order of members does not count. -/
def same (fields others : FieldSet) : Bool := fields.toJson.same others.toJson

/-! ### Texts -/

/-- The set as compact JSON text. -/
def compact (fields : FieldSet) : String := fields.toJson.compact

/-- The field set of a JSON text, which is that of an object. -/
def parse? (text : String) : Option FieldSet :=
  match Json.parse? text with
  | some (.object members) => some (ofMembers members)
  | _ => none

/-- The names of the set as messages list them. -/
def describe (fields : FieldSet) : String := Members.describe fields.names

end FieldSet

end WebKey
