import TrackedFields.Json.Basic

/-!
# Records in JSON

A record with known fields is read from an object or from an array. In an object unknown keys
are passed over and a known key may occur once only; in an array the values stand in field order
and the last ones may be missing. Each field then decides what its absence means.
-/

namespace TrackedFields.Json

/-- The values of the named fields, `none` for the absent ones. -/
def fields (names : List String) : Json → Option (List (Option Json))
  | .obj members =>
    if members.any (fun member => member.1.isNone) then none
    else if names.any (fun name => 1 < (members.filter (·.1 == some name)).length) then none
    else some (names.map fun name => (members.find? (·.1 == some name)).map (·.2))
  | .arr items =>
    if names.length < items.length then none
    else some ((List.range names.length).map (items[·]?))
  | _ => none

/-- A field that has to be present. -/
def required {α : Type} (read : Json → Option α) (field : Option Json) : Option α :=
  field.bind read

/-- A field whose absence means `default`. -/
def defaulted {α : Type} (default : α) (read : Json → Option α) : Option Json → Option α
  | none => some default
  | some j => read j

/-- A field that may be absent or null. -/
def nullable {α : Type} (read : Json → Option α) : Option Json → Option (Option α) :=
  defaulted none (optional? read)

end TrackedFields.Json
