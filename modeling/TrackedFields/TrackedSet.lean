import TrackedFields.Tracked.Container

/-!
# Tracked sets

A set-valued field whose content lives in memory. An element that is added twice or removed twice
is reported once.
-/

namespace TrackedFields

/-- A set-valued field. -/
abbrev TrackedSet (E : Type) := Tracked (ElementSet E)

namespace TrackedSet

variable {E : Type} [DecidableEq E]

/-- An operation on a tracked set. -/
abbrev Action (E α : Type) := TrackedAction (TrackedSet E) E α

/-- A set that belongs to nobody. -/
def unowned : TrackedSet E := { tracker := .unowned, content := .empty }

/-- A set that belongs to a field. -/
def owned (owner : Owner) (settings : Settings) : TrackedSet E :=
  { tracker := .unbacked owner settings, content := .empty }

/-- Take over the elements of a loaded value. Nobody is told. -/
def initialiseFrom (es : List E) : Action E Unit := Tracked.setContent (.ofList es)

/-- An embedded element changed one of its fields; the field is marked dirty if asked. -/
def updateEmbedded (dirty : Bool) : Action E Unit := do
  if dirty then Tracked.makeDirty

/-- The JSON form: the elements in the order of their arrival. -/
def toJson (encode : E → Json) (w : TrackedSet E) : Json := .arr (w.content.toList.map encode)

/-- Whether the set holds all listed elements. -/
def containsAll (w : TrackedSet E) (es : List E) : Bool := es.all w.content.contains

instance [Described E] : Described (TrackedSet E) where
  describe w := Text.record "ScoCollection" [
    ("field", describe w.tracker.fieldName),
    ("elements", "\x7b" ++ Text.commaSeparated (w.content.toList.map describe) ++ "\x7d")]

/-! ### Removing -/

/-- Remove those listed elements that the set holds; tells whether there were any. -/
def removeListed (es : List E) (cascade : Bool) : Action E Bool :=
  Tracked.mutate fun _ members =>
    let removed := (ElementSet.ofList es).filter members.contains
    if removed.toList.isEmpty then .ok (.nothing false)
    else .ok (.made true (members.filter fun e => !removed.contains e)
      (.removed removed.toList cascade))

/-- Remove an element; tells whether there was one. -/
def removeWith (e : E) (cascade : Bool) : Action E Bool := removeListed [e] cascade

/-- Remove an element and its record. -/
def remove (e : E) : Action E Bool := removeWith e true

/-- Remove the listed elements. -/
def removeAll (es : List E) : Action E Bool := removeListed es true

/-- Keep the listed elements only. -/
def retainAll (keep : List E) : Action E Bool :=
  Tracked.mutate fun _ members =>
    let removed := members.filter fun e => !keep.contains e
    if removed.toList.isEmpty then .ok (.nothing false)
    else .ok (.made true (members.filter keep.contains) (.removed removed.toList true))

/-- Remove all elements. The owner is told even if there were none. -/
def clear : Action E Unit :=
  Tracked.mutate fun _ members =>
    .ok (.made () .empty (if members.toList.isEmpty then {} else .cleared members.toList))

variable [Element E]

/-! ### Adding -/

/-- Add several elements, or none if one of them is refused; tells whether one was new. -/
def addAll (es : List E) : Action E Bool :=
  Tracked.mutate fun tracker members => do
    tracker.checkAll es
    let new := (ElementSet.ofList es).filter fun e => !members.contains e
    if new.toList.isEmpty then return .nothing false
    return .made true (new.toList.foldl .insert members) (.added new.toList)

/-- Add an element; tells whether it is new. -/
def add (e : E) : Action E Bool := addAll [e]

/-! ### Detaching and attaching -/

/-- A set is in memory as a whole. -/
instance : Container (ElementSet E) E where
  isLoaded _ := true
  load := return ()
  elements := return (← Tracked.content?).toList
  initialiseFrom := initialiseFrom
  contains e := return (← Tracked.content?).contains e
  containsAll es := return containsAll (← get).value es
  add := add
  addAll := addAll
  remove := removeWith
  removeAll := removeAll
  retainAll := retainAll
  clear := clear

/-- Copies of the elements for use outside the session. -/
def detachCopy (seen : Detachment) : Action E (ElementSet E × Detachment) := do
  let members ← Tracked.content?
  return (members, ← Tracked.detach members.toList seen)

/-- Take over a set from outside the session: drop what it lacks, add what it adds. -/
def attachCopy (target : ElementSet E) : Action E Unit := do
  Tracked.attach target.toList
  Container.reconcile target.toList

end TrackedSet

end TrackedFields
