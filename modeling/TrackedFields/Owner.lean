import TrackedFields.Session.Basic

/-!
# Owners

A tracked field belongs to a field of an entity. The link never keeps the entity in memory: once
the entity is gone, changes are no longer reported to it.
-/

namespace TrackedFields

/-- The field of an entity that a tracked value belongs to. -/
structure Owner where
  id : ObjectId
  descriptor : Descriptor
  deriving DecidableEq

namespace Owner

variable {E : Type}

/-- The ordinal of the owning field. -/
def field (o : Owner) : FieldOrdinal := o.descriptor.ordinal

/-- The readable place of the owning field. -/
def place (o : Owner) (s : Session E) : String := s.printable o.id ++ "." ++ o.descriptor.name

/-- Mark the field dirty, if the entity is in memory. -/
def markDirty (o : Owner) (s : Session E) : Session E :=
  if s.isAlive o.id then s.markDirty o.id o.field else s

/-- Mark the field dirty and, outside a transaction, persist the change, if the entity is in
memory. -/
def changed (o : Owner) (s : Session E) : Session E :=
  if s.isAlive o.id then
    let s := s.markDirty o.id o.field
    if s.transactionActive then s else s.persistUpdate
  else s

/-- The description of an owner within a session. -/
def describeIn (o : Owner) (s : Session E) : String :=
  Text.record "OwnerHandle" [
    ("owner", describe o.id),
    ("field", describe o.descriptor.name),
    ("alive", describe (s.isAlive o.id))]

/-- The description of an owner of a single value. -/
instance : Described Owner where
  describe o := Text.record "ValueOwner" [
    ("owner", describe o.id),
    ("field", describe o.descriptor.name)]

end Owner

end TrackedFields
