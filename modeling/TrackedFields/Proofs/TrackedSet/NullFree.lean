import TrackedFields.Proofs.Tracked.NullFree
import TrackedFields.Proofs.TrackedSet.Plans

/-!
# Sets without null elements

Where a call on a set takes in elements, it checks them, also when a value is attached.
-/

namespace TrackedFields

variable {E α : Type} [Element E]

namespace TrackedSet

variable {ids : Set ObjectId} [DecidableEq E]

/-- All that a set offers, as long as only some lists are taken for its value without a check. -/
inductive Admits (takes : List E → Prop) : {α : Type} → Action E α → Prop where
  | look {α : Type} (question : TrackedSet E → α) : Admits takes (look question)
  | initialiseFrom (es : List E) (h : takes es) : Admits takes (initialiseFrom es)
  | updateEmbedded (dirty : Bool) : Admits takes (updateEmbedded dirty)
  | detachCopy (seen : Detachment) : Admits takes (detachCopy seen)
  | attachCopy (target : ElementSet E) : Admits takes (attachCopy target)
  | reconcile (attached : List E) : Admits takes (Container.reconcile attached)
  | makeDirty : Admits takes Tracked.makeDirty
  | unsetOwner : Admits takes (cut Tracked.unsetOwner)
  | add (e : E) : Admits takes (add e)
  | addAll (es : List E) : Admits takes (addAll es)
  | remove (e : E) : Admits takes (remove e)
  | removeWith (e : E) (cascade : Bool) : Admits takes (removeWith e cascade)
  | removeAll (es : List E) : Admits takes (removeAll es)
  | retainAll (keep : List E) : Admits takes (retainAll keep)
  | clear : Admits takes clear

end TrackedSet

end TrackedFields
