import TrackedFields.Element
import TrackedFields.ElementSet

/-!
# Detachment

The identities that one pass of detaching has met so far. An object that several containers hold
is recorded once.
-/

namespace TrackedFields

/-- The identities detached so far. -/
abbrev Detachment := ElementSet ObjectId

namespace Detachment

/-- Nothing is detached yet. -/
def start : Detachment := ElementSet.empty

/-- Record an identity; tells whether it is new. -/
def mark (seen : Detachment) (id : ObjectId) : Bool × Detachment :=
  (!seen.contains id, seen.insert id)

/-- Record an element, if it has an identity. -/
def note {E : Type} [Element E] (seen : Detachment) (e : E) : Detachment :=
  match Element.objectId? e with
  | some id => (seen.mark id).2
  | none => seen

end Detachment

end TrackedFields
