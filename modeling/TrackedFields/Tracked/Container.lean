import TrackedFields.Tracked.Basic

/-!
# What all containers can do

Access that every tracked container offers, element by element and in bulk, and the reconciliation
of a container with a list of elements whose order does not matter: what the list lacks is removed,
without deleting any record, and what the container lacked is added.
-/

namespace TrackedFields

/-- Containers of elements. -/
class Container (C : Type) (E : outParam Type) where
  /-- Whether the full content is in memory. -/
  isLoaded : Tracked C → Bool
  /-- Load the full content, if the container keeps it. -/
  load : TrackedAction (Tracked C) E Unit
  /-- The elements, in the order of the container. -/
  elements : TrackedAction (Tracked C) E (List E)
  /-- Take over the elements of a loaded value. Nobody is told. -/
  initialiseFrom : List E → TrackedAction (Tracked C) E Unit
  contains : E → TrackedAction (Tracked C) E Bool
  /-- Whether all listed elements are there. -/
  containsAll : List E → TrackedAction (Tracked C) E Bool
  /-- Add an element; tells whether the container changed. -/
  add : E → TrackedAction (Tracked C) E Bool
  /-- Add several elements, or none if one of them is refused. -/
  addAll : List E → TrackedAction (Tracked C) E Bool
  /-- Remove an element; tells whether there was one. -/
  remove : E → (cascade : Bool) → TrackedAction (Tracked C) E Bool
  /-- Remove every occurrence of the listed elements; tells whether there was one. -/
  removeAll : List E → TrackedAction (Tracked C) E Bool
  /-- Keep the occurrences of the listed elements only; tells whether that removed any. -/
  retainAll : List E → TrackedAction (Tracked C) E Bool
  /-- Remove all elements. The owner is told even if there were none. -/
  clear : TrackedAction (Tracked C) E Unit

namespace Container

variable {C E : Type} [DecidableEq E] [Element E] [Container C E]

/-- Remove the listed elements that denote no member of another list. -/
def removeMissing (attached : List E) : List E → TrackedAction (Tracked C) E Unit
  | [] => return ()
  | e :: es => do
    unless attached.any (Element.same e) do discard (remove e false)
    removeMissing attached es

/-- Add the listed elements that denote no member of another list. -/
def addMissing (current : List E) : List E → TrackedAction (Tracked C) E Unit
  | [] => return ()
  | e :: es => do
    unless current.any (Element.same · e) do discard (add e)
    addMissing current es

/-- Make a container hold what a list holds, by removing and adding the difference. -/
def reconcile (attached : List E) : TrackedAction (Tracked C) E Unit := do
  let current ← elements
  removeMissing attached current
  addMissing current attached

end Container

end TrackedFields
