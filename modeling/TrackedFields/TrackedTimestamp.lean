import TrackedFields.Owner
import TrackedFields.Timestamp.Edit
import TrackedFields.Tracked.Basic

/-!
# Tracked timestamps

A timestamp field. Every successful change of the value marks the owning field dirty and, outside a
transaction, is persisted; a failed one changes nothing. A copy of the field belongs to nobody.
-/

namespace TrackedFields

/-- A timestamp field. -/
structure TrackedTimestamp where
  value : Timestamp := .epoch
  owner : Option Owner := none
  deriving DecidableEq

namespace TrackedTimestamp

variable {E : Type}

/-- An operation on a tracked timestamp. -/
abbrev Action (E α : Type) := TrackedAction TrackedTimestamp E α

/-- A timestamp that belongs to nobody. -/
def unowned (value : Timestamp) : TrackedTimestamp := { value }

/-- A timestamp that belongs to a field, the epoch until it is initialised. -/
def owned (owner : Owner) : TrackedTimestamp := { owner := some owner }

/-- The copy of a tracked timestamp belongs to nobody. -/
def clone (t : TrackedTimestamp) : TrackedTimestamp := unowned t.value

/-- Cut the link to the owner. -/
def unsetOwner (t : TrackedTimestamp) : TrackedTimestamp := { t with owner := none }

/-- The identity of the owning entity. -/
def ownerId (t : TrackedTimestamp) : Option ObjectId := t.owner.map (·.id)

/-- The name of the owning field. -/
def fieldName (t : TrackedTimestamp) : Option String := t.owner.map (·.descriptor.name)

instance : Described TrackedTimestamp where
  describe t := Text.record "ScoTimestamp" [
    ("value", describe t.value),
    ("owner", describe t.owner)]

/-- The timestamp itself. -/
def current : Action E TrackedTimestamp := return (← get).value

/-- Replace the value. Nobody is told. -/
def initialiseFrom (value : Timestamp) : Action E Unit :=
  modify fun scene => { scene with value := { scene.value with value } }

/-- Mark the field dirty and, outside a transaction, persist the change. -/
def makeDirty : Action E Unit :=
  modify fun scene =>
    match scene.value.owner with
    | none => scene
    | some owner => { scene with session := owner.changed scene.session }

/-- Change the value and tell the owner; a failed change is told to nobody. -/
def update (change : Timestamp → Except ValueError Timestamp) : Action E Unit := do
  match change (← current).value with
  | .error e => throw (.value e)
  | .ok value =>
    initialiseFrom value
    makeDirty

/-- Change a part of the value. -/
def edit (e : Timestamp.Edit) : Action E Unit := update e.apply

/-- Whether two timestamps differ in their milliseconds. -/
def differInMillis (a b : Timestamp) : Except Overflow Bool := do
  let before ← a.millis
  let after ← b.millis
  return before != after

/-- Take over a value from outside the session. The owner is told only if the milliseconds
changed. -/
def attachCopy (value : Timestamp) : Action E Unit := do
  match differInMillis (← current).value value with
  | .error e => throw (.overflow e)
  | .ok different =>
    initialiseFrom value
    if different then makeDirty

end TrackedTimestamp

end TrackedFields
