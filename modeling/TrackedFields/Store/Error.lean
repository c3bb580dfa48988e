import TrackedFields.Arithmetic
import TrackedFields.ObjectId

/-!
# Store failures

The ways in which a call of a backing store fails, and what it says then.
-/

namespace TrackedFields

/-- Why a store call failed. -/
inductive StoreError where
  /-- The datastore rejected a write to an owner's container. -/
  | writeRejected (owner : ObjectId)
  /-- The datastore rejected a read. -/
  | readRejected
  /-- A position lies past the end of the container. -/
  | positionOutOfRange (position size : Nat)
  /-- A size hint, counted on through a bulk call, left its word. -/
  | hintOverflow
  deriving DecidableEq

namespace StoreError

/-- The text of a store failure. -/
def message : StoreError → String
  | writeRejected owner => "datastore error: write rejected for owner " ++ owner.text
  | readRejected => "datastore error: read rejected"
  | positionOutOfRange position size =>
    "position " ++ describe position ++ " out of range for container of size " ++ describe size
  | hintOverflow => Overflow.add.message

end StoreError

end TrackedFields
