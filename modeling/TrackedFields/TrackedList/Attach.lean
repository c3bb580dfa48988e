import TrackedFields.TrackedList.Basic

/-!
# Attaching a list

A tracked list takes over a list from outside the session in three passes: surplus members go,
from the back; missing members are inserted at their positions; what is left to do is a
rearrangement. Members are compared as denoting the same object, so a member that stays keeps its
form. No pass deletes a record.
-/

namespace TrackedFields.TrackedList

variable {E : Type} [DecidableEq E] [Element E]

/-- How many members of a list denote the same object as an element. -/
def countSame (es : List E) (e : E) : Nat := es.countP (Element.same · e)

/-- Remove surplus members among the first `n` positions, from the back. -/
def trim (target : List E) : Nat → Action E Unit
  | 0 => return ()
  | n + 1 => do
    let es ← Tracked.content?
    if es[n]?.any fun e => countSame target e < countSame es e then
      discard (removeAtWith n false)
    trim target n

/-- Insert the missing ones among the members of the target from a position on. -/
def fill (target : List E) : Nat → List E → Action E Unit
  | _, [] => return ()
  | index, e :: rest => do
    let es ← Tracked.content?
    if countSame es e < countSame target e then
      insert (min index es.length) e
    fill target (index + 1) rest

/-- The members of the first list, each replaced by the member of the target at its position
unless both denote the same object. -/
def overlay : List E → List E → List E
  | e :: es, t :: target => (if Element.same e t then e else t) :: overlay es target
  | es, [] => es
  | [], _ => []

/-- Take over a list from outside the session. -/
def attachCopy (target : List E) : Action E Unit := do
  Tracked.attach target
  trim target (← Tracked.content?).length
  fill target 0 target
  reorder fun es => overlay es target

end TrackedFields.TrackedList
