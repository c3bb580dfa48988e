import TrackedFields.Failure
import TrackedFields.Owner

/-!
# Trackers

A tracker links a container to its owner and knows how changes reach the datastore. That is
decided once, when the container is made: changes stay in memory, wait in the queue of the session
or are made in a store right away.
-/

namespace TrackedFields

/-- How changes of a container reach the datastore. -/
inductive Dispatch where
  /-- The container in memory is all there is. -/
  | memory
  /-- Changes wait for a flush, against the store if it is known. -/
  | queued (store : Option StoreName)
  /-- Changes are made in the store right away. -/
  | immediate (store : StoreName)
  deriving DecidableEq

/-- The link between a container and its owner. -/
structure Tracker where
  owner : Option Owner
  dispatch : Dispatch
  allowNulls : Bool
  deriving DecidableEq

namespace Tracker

variable {E : Type}

/-- A container without owner accepts no null elements and reports to nobody. -/
def unowned : Tracker := { owner := none, dispatch := .memory, allowNulls := false }

/-- A container that keeps all of its content in memory. -/
def unbacked (owner : Owner) (settings : Settings) : Tracker where
  owner := some owner
  dispatch := if settings.delayDatastoreOperations then .queued none else .memory
  allowNulls := owner.descriptor.allowsNulls

/-- A container whose changes go to a store, if it has one. -/
def backed (owner : Owner) (settings : Settings) (store : Option StoreName) : Tracker where
  owner := some owner
  dispatch :=
    match store with
    | none => .memory
    | some store =>
      if settings.delayDatastoreOperations then .queued (some store) else .immediate store
  allowNulls := owner.descriptor.allowsNulls

/-- The store for the container of a field. Only persistent fields whose elements are not
serialized into the owner have one. -/
def storeFor (owner : Owner) (s : Session E) : Option StoreName :=
  if owner.descriptor.isPersistent && !owner.descriptor.hasSerializedElements then
    s.storeOf? owner.id owner.field
  else none

/-- The identity of the owning entity. -/
def ownerId (t : Tracker) : Option ObjectId := t.owner.map (·.id)

/-- The name of the owning field. -/
def fieldName (t : Tracker) : Option String := t.owner.map (·.descriptor.name)

/-- Whether changes wait for a flush. -/
def isQueued (t : Tracker) : Bool :=
  match t.dispatch with
  | .queued _ => true
  | .memory | .immediate _ => false

/-- The store behind the container, with the owner it is called for. -/
def channel (t : Tracker) : Option (StoreName × ObjectId) :=
  match t.dispatch, t.owner with
  | .queued (some store), some owner => some (store, owner.id)
  | .immediate store, some owner => some (store, owner.id)
  | _, _ => none

/-- Cut the link to the owner. Later changes touch the content in memory only. -/
def unsetOwner (t : Tracker) : Tracker := { t with owner := none, dispatch := .memory }

/-- The readable place of the container. -/
def place (t : Tracker) (s : Session E) : String :=
  match t.owner with
  | some owner => owner.place s
  | none => "unowned"

variable [Element E]

/-- Refuse a null element, unless the field allows them. -/
def check (t : Tracker) (e : E) : Except Failure Unit :=
  if Element.isNull e && !t.allowNulls then
    .error (.nullElement (t.fieldName.getD "unowned"))
  else .ok ()

/-- Refuse the elements if one of them would be refused. -/
def checkAll (t : Tracker) (es : List E) : Except Failure Unit := es.forM t.check

end Tracker

end TrackedFields
