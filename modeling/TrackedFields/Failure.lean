import TrackedFields.Store.Error
import TrackedFields.Timestamp.Basic

/-!
# Failures of tracked fields

What a caller of a tracked field can be told. Store failures reach callers from reads and loads
only; a store that fails during a change is noted in the journal, and the change stands.
-/

namespace TrackedFields

/-- Why an operation on a tracked field failed. -/
inductive Failure where
  /-- A null element was offered to a container that forbids null elements. -/
  | nullElement (field : String)
  /-- A position lies outside the container. -/
  | indexOutOfBounds (index length : Nat)
  /-- Reading the backing store failed. -/
  | store (error : StoreError)
  /-- A value cannot be changed as asked. -/
  | value (error : ValueError)
  /-- An arithmetic step left its word. -/
  | overflow (error : Overflow)
  deriving DecidableEq

namespace Failure

/-- The text of a failure. -/
def message : Failure → String
  | nullElement field => "null element rejected by field " ++ field
  | indexOutOfBounds index length =>
    "index " ++ describe index ++ " out of bounds for length " ++ describe length
  | store error => "store error: " ++ error.message
  | value error => "invalid value: " ++ error.message
  | overflow error => error.message

end Failure

end TrackedFields
