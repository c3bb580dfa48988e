import TrackedFields.Operation.Basic
import TrackedFields.Settings.Basic

/-!
# Sessions

A session is the unit of work that tracked fields belong to. It knows the owning entities, the
stores and the operations that wait for a flush, and it keeps a journal of everything that tracked
fields asked of it, in order. What happened (dirty marks apart, which a flush may clear) is read
off the journal: relation changes, deletions and persisted updates are not counted separately.
-/

namespace TrackedFields

/-- A change of the inverse side of a relation. -/
inductive RelationChange (E : Type) where
  | added (element : E)
  | removed (element : E)
  deriving DecidableEq

/-- What a session was asked to do. -/
inductive Effect (E : Type) where
  /-- A field of an entity was marked dirty. -/
  | dirtied (owner : ObjectId) (field : FieldOrdinal)
  /-- A change made outside a transaction was persisted. -/
  | updated
  /-- An element entered or left the relation behind a field. -/
  | related (owner : ObjectId) (field : FieldOrdinal) (change : RelationChange E)
  /-- An operation joined the queue. -/
  | enqueued (operation : Operation E)
  /-- The record of a dependent element was deleted. -/
  | deleted (element : E)
  /-- An element was copied for use outside the session. -/
  | detached (element : E)
  /-- A copy from outside the session became a managed element. -/
  | attached (element : E) (withoutIdentity : Bool)
  /-- A store was called. -/
  | called (store : StoreName) (call : StoreCall E)
  /-- A store failed during a change, which stands nevertheless. -/
  | warned (operation place : String) (error : StoreError)
  deriving DecidableEq

/-- An object that owns tracked fields. -/
structure Entity where
  typeName : String
  /-- Whether the object is still in memory. -/
  alive : Bool := true
  /-- The marks of changed fields, in order. -/
  dirty : List FieldOrdinal := []
  /-- Whether the object has reached the datastore within the session. -/
  flushed : Bool := false
  /-- Whether the object became persistent within the session. -/
  isNew : Bool := false
  deriving DecidableEq

namespace Entity

/-- The readable name of an entity whose identity has the given short form. -/
def label (entity : Entity) (short : String) : String := entity.typeName ++ "@" ++ short

/-- The description of an entity whose identity has the given short form. -/
def describeAs (entity : Entity) (short : String) : String :=
  Text.record "InMemoryStateManager" [
    ("object", describe (entity.label short)),
    ("dirty_marks", describe entity.dirty.length)]

/-- How often a field is marked. -/
def dirtyCount (entity : Entity) (field : FieldOrdinal) : Nat := entity.dirty.count field

/-- Whether a field is marked. -/
def isDirty (entity : Entity) (field : FieldOrdinal) : Bool := entity.dirtyCount field != 0

end Entity

/-- A unit of work. -/
structure Session (E : Type) where
  settings : Settings := {}
  transactionActive : Bool := false
  /-- The operations waiting for a flush, in order. -/
  pending : List (Operation E) := []
  entities : Table ObjectId Entity := .empty
  /-- The stores by name. -/
  stores : Table StoreName (Store E) := .empty
  /-- Which store holds the container of which field. -/
  registry : Table (ObjectId × FieldOrdinal) StoreName := .empty
  /-- What the session was asked to do, in order. -/
  journal : List (Effect E) := []

namespace Session

variable {E : Type}

/-- Append effects to the journal. -/
def record (s : Session E) (effects : List (Effect E)) : Session E :=
  { s with journal := s.journal ++ effects }

/-! ### Entities -/

/-- The entity with an identity. -/
def entity? (s : Session E) (id : ObjectId) : Option Entity := s.entities.get? id

/-- Change the entity with an identity, if there is one. -/
def updateEntity (s : Session E) (id : ObjectId) (change : Entity → Entity) : Session E :=
  match s.entity? id with
  | none => s
  | some entity => { s with entities := s.entities.set id (change entity) }

/-- Whether an entity is still in memory. -/
def isAlive (s : Session E) (id : ObjectId) : Bool := (s.entity? id).any (·.alive)

/-- The readable name of an entity in memory; of any other, its identity. -/
def printable (s : Session E) (id : ObjectId) : String :=
  match (s.entity? id).filter (·.alive) with
  | some entity => entity.label id.short
  | none => id.text

/-- Mark a field of an entity as changed. -/
def markDirty (s : Session E) (id : ObjectId) (field : FieldOrdinal) : Session E :=
  (s.updateEntity id fun entity => { entity with dirty := entity.dirty ++ [field] }).record
    [.dirtied id field]

/-- Take an entity out of memory. Its marks remain. -/
def drop (s : Session E) (id : ObjectId) : Session E :=
  s.updateEntity id fun entity => { entity with alive := false }

/-! ### Requests -/

/-- Persist a change made outside a transaction. -/
def persistUpdate (s : Session E) : Session E := s.record [.updated]

/-- Report changes of the relation behind a field, if relations are managed. -/
def relate (s : Session E) (owner : ObjectId) (field : FieldOrdinal)
    (changes : List (RelationChange E)) : Session E :=
  if s.settings.manageRelationships then s.record (changes.map (.related owner field)) else s

/-- Let an operation wait for the next flush. -/
def enqueue (s : Session E) (operation : Operation E) : Session E :=
  { s with pending := s.pending ++ [operation] }.record [.enqueued operation]

/-- Let operations wait for the next flush, in order. -/
def enqueueAll (s : Session E) (operations : List (Operation E)) : Session E :=
  operations.foldl enqueue s

/-- Delete the records of dependent elements. -/
def deleteAll (s : Session E) (elements : List E) : Session E :=
  s.record (elements.map .deleted)

/-- Copy elements for use outside the session. A value is its own copy. -/
def detachAll (s : Session E) (elements : List E) : Session E :=
  s.record (elements.map .detached)

/-- Take in copies from outside the session. A value is its own managed form. -/
def attachAll (s : Session E) (elements : List E) (withoutIdentity : Bool) : Session E :=
  s.record (elements.map (.attached · withoutIdentity))

/-! ### Stores -/

/-- The store with a name; a name that was never used has an empty store. -/
def store (s : Session E) (name : StoreName) : Store E := s.stores.getD name {}

/-- Replace the store with a name. -/
def putStore (s : Session E) (name : StoreName) (store : Store E) : Session E :=
  { s with stores := s.stores.set name store }

/-- Let a store hold the container of a field. -/
def register (s : Session E) (owner : ObjectId) (field : FieldOrdinal) (name : StoreName) :
    Session E :=
  { s with registry := s.registry.set (owner, field) name }

/-- The store that holds the container of a field. -/
def storeOf? (s : Session E) (owner : ObjectId) (field : FieldOrdinal) : Option StoreName :=
  s.registry.get? (owner, field)

/-- The session once a store has been called: the store as the calls left it, and the calls in
the journal. -/
def afterCalls (s : Session E) (name : StoreName) (store : Store E) : Session E :=
  (s.putStore name store).record
    ((store.calls.drop (s.store name).calls.length).map (.called name))

/-- Call a store. -/
def access {α : Type} (name : StoreName) (action : StoreAction E α) :
    EStateM StoreError (Session E) α := fun s =>
  match action (s.store name) with
  | .ok a store => .ok a (s.afterCalls name store)
  | .error e store => .error e (s.afterCalls name store)

/-! ### Reading the journal -/

/-- The elements whose records were deleted. -/
def deletions (s : Session E) : List E :=
  s.journal.filterMap fun
    | .deleted e => some e
    | _ => none

/-- How many changes made outside a transaction were persisted. -/
def updates (s : Session E) : Nat :=
  s.journal.countP fun
    | .updated => true
    | _ => false

/-- The relation changes of one owner, with their fields. -/
def relationsOf (s : Session E) (owner : ObjectId) : List (FieldOrdinal × RelationChange E) :=
  s.journal.filterMap fun
    | .related id field change => if id = owner then some (field, change) else none
    | _ => none

instance : Described (Session E) where
  describe s := Text.record "InMemoryExecutionContext" [
    ("config", describe s.settings),
    ("transaction_active", describe s.transactionActive),
    ("queued", describe s.pending.length)]

end Session

end TrackedFields
