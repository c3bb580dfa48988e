import TrackedFields.Proofs.TrackedList.NullFree
import TrackedFields.Proofs.TrackedSet.NullFree

/-!
# No null gets in

A container of a field that forbids null elements, or of no field at all, never comes to hold a null
element, lets none wait and writes none. Where a call takes in elements, it checks them. Only
attaching a list overwrites positions without a check, and relies on nulls that denote nothing but
themselves: a null that is known by the identity of a member gets in that way. The policy of a
container is that of the field it was made for, also once the owner is unset.
-/

namespace TrackedFields

variable {E : Type} [Element E]

/-! ### Queues -/

namespace TrackedQueue

variable {ids : Set ObjectId} [DecidableEq E]

end TrackedQueue

end TrackedFields
