import TrackedFields.Proofs.Tracked.NullFree
import TrackedFields.Proofs.TrackedList.RefusedAttach

/-!
# Lists without null elements

Where a call on a list takes in elements, it checks them. Attaching also overwrites positions
without a check, with members of the attached value as they stand there. But a value with a null
among its members was refused before that, as long as a null denotes the same as no element that is
present: then it has no counterpart in a list without nulls and would have had to be inserted.
-/

namespace TrackedFields

variable {E α : Type} [Element E]

namespace Element

end Element

namespace TrackedList

variable {ids : Set ObjectId} [DecidableEq E]

/-- All that a list offers, as long as only some lists are taken for its value without a check, and
only some are attached. -/
inductive Admits (takes attaches : List E → Prop) : {α : Type} → Action E α → Prop where
  | look {α : Type} (question : TrackedList E → α) : Admits takes attaches (look question)
  | slice (start stop : Nat) : Admits takes attaches (Tracked.inspect (slice · start stop))
  | initialiseFrom (es : List E) (h : takes es) : Admits takes attaches (initialiseFrom es)
  | updateEmbedded (dirty : Bool) : Admits takes attaches (updateEmbedded dirty)
  | detachCopy (seen : Detachment) : Admits takes attaches (detachCopy seen)
  | attachCopy (target : List E) (h : attaches target) : Admits takes attaches (attachCopy target)
  | reconcile (attached : List E) : Admits takes attaches (Container.reconcile attached)
  | makeDirty : Admits takes attaches Tracked.makeDirty
  | unsetOwner : Admits takes attaches (cut Tracked.unsetOwner)
  | add (e : E) : Admits takes attaches (add e)
  | addAll (new : List E) : Admits takes attaches (addAll new)
  | insert (index : Nat) (e : E) : Admits takes attaches (insert index e)
  | insertAll (index : Nat) (new : List E) : Admits takes attaches (insertAll index new)
  | remove (e : E) : Admits takes attaches (remove e)
  | removeWith (e : E) (cascade : Bool) : Admits takes attaches (removeWith e cascade)
  | removeAt (index : Nat) : Admits takes attaches (removeAt index)
  | set (index : Nat) (e : E) : Admits takes attaches (set index e)
  | setWith (index : Nat) (e : E) (cascade : Bool) : Admits takes attaches (setWith index e cascade)
  | removeAll (es : List E) : Admits takes attaches (removeAll es)
  | retainAll (keep : List E) : Admits takes attaches (retainAll keep)
  | clear : Admits takes attaches clear
  | sortBy (cmp : Comparator E) : Admits takes attaches (sortBy cmp)

end TrackedList

end TrackedFields
