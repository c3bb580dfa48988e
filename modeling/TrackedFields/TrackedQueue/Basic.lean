import TrackedFields.Tracked.Container
import TrackedFields.Tracker.Forward

/-!
# Tracked priority queues

A priority-queue field with an optional store. A queue that uses its cache reads the store once
and serves every later read from memory; without cache, reads go to the store, and the elements in
memory only reflect the changes made through this queue. In memory the elements are kept sorted,
the head first; elements that compare equal stay in order of arrival.
-/

namespace TrackedFields

/-- The content of a priority queue in memory. -/
structure QueueContent (E : Type) where
  /-- The least element is the head. -/
  order : Comparator E
  /-- Whether the full content is kept in memory once it was loaded. -/
  useCache : Bool
  /-- Whether loading waits for the first use. -/
  lazily : Bool
  elements : List E := []
  loaded : Bool := false

/-- A priority-queue field. -/
abbrev TrackedQueue (E : Type) := Tracked (QueueContent E)

namespace TrackedQueue

variable {E α : Type}

/-- An operation on a tracked queue. -/
abbrev Action (E α : Type) := TrackedAction (TrackedQueue E) E α

/-- A queue that belongs to nobody. -/
def unowned (order : Comparator E) : TrackedQueue E :=
  { tracker := .unowned, content := { order, useCache := true, lazily := false } }

/-- A queue that belongs to a field, with the store that the session has for the field. -/
def owned (owner : Owner) (order : Comparator E) (s : Session E) : TrackedQueue E where
  tracker := .backed owner s.settings (Tracker.storeFor owner s)
  content := {
    order
    useCache := s.settings.usesCache owner.descriptor
    lazily := s.settings.loadsLazily owner.descriptor }

/-- Whether the queue has a store. -/
def hasStore (q : TrackedQueue E) : Bool := q.tracker.channel.isSome

/-- Whether the elements in memory are the full content. -/
def isAuthoritative (q : TrackedQueue E) : Bool :=
  !q.hasStore || (q.content.useCache && q.content.loaded)

/-- The size that store calls are told: that of the content in memory, if it is kept there. -/
def hint (q : TrackedQueue E) : Option Nat :=
  if q.content.useCache then some q.content.elements.length else none

instance [Described E] : Described (TrackedQueue E) where
  describe q := Text.record "BackedPriorityQueue" [
    ("field", describe q.tracker.fieldName),
    ("use_cache", describe q.content.useCache),
    ("loaded", describe q.content.loaded),
    ("delegate", describe q.content.elements)]

/-- The queue itself. -/
def current : Action E (TrackedQueue E) := return (← get).value

/-- Replace the elements in memory. Nobody is told. -/
def setElements (es : List E) : Action E Unit := do
  Tracked.setContent { (← Tracked.content?) with elements := es }

/-! ### Reading -/

/-- Read from a store. -/
def read (name : StoreName) (action : StoreAction E α) : Action E α := fun scene =>
  match Session.access name action scene.session with
  | .ok answer session => .ok answer { scene with session }
  | .error e session => .error (.store e) { scene with session }

/-- Read from the store of the queue, if it has one and that is wanted, or else from memory. -/
def readEither (fromStore : Bool) (action : ObjectId → StoreAction E α)
    (fromMemory : QueueContent E → α) : Action E α := do
  let q ← current
  match q.tracker.channel with
  | some (name, owner) =>
    if fromStore then read name (action owner) else return fromMemory q.content
  | none => return fromMemory q.content

/-- Fill the memory from the store, once. -/
def loadFromStore : Action E Unit := do
  let q ← current
  match q.tracker.channel with
  | none => return ()
  | some (name, owner) =>
    unless q.content.loaded do
      let es ← read name (Store.elements owner)
      Tracked.setContent { q.content with elements := q.content.order.sort es, loaded := true }

/-- Load the content, if it is kept in memory. -/
def ensureLoaded : Action E Unit := do
  if (← Tracked.content?).useCache then loadFromStore

/-- The number of elements. -/
def length : Action E Nat := do
  readEither (!(← current).isAuthoritative) Store.size (·.elements.length)

/-- Whether the queue has no elements. -/
def isEmpty : Action E Bool := return (← length) == 0

/-- The elements; in the order of the store if they are read there. -/
def toList : Action E (List E) := do
  ensureLoaded
  readEither (!(← Tracked.content?).useCache) Store.elements (·.elements)

/-- The head of the queue. -/
def peek : Action E (Option E) := do
  ensureLoaded
  readEither (!(← Tracked.content?).useCache) (Store.get · 0) (·.elements.head?)

/-- The elements in the order of the queue. -/
def snapshot : Action E (List E) := do
  let es ← toList
  return (← Tracked.content?).order.sort es

/-- The JSON form: the elements in the order of the queue. -/
def toJson (encode : E → Json) : Action E Json := return .arr ((← snapshot).map encode)

variable [DecidableEq E]

/-- Whether the queue holds an element. -/
def contains (e : E) : Action E Bool := do
  readEither (!(← current).isAuthoritative) (Store.contains · e) (·.elements.contains e)

/-- Whether the queue holds all listed elements. -/
def containsAll (es : List E) : Action E Bool := return es.all (← toList).contains

end TrackedQueue

end TrackedFields
