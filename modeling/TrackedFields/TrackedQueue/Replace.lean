import TrackedFields.TrackedQueue.Update

/-!
# The value of a priority queue as a whole

Loading a fresh queue, replacing its whole value, and exchanging values with the world outside the
session.
-/

namespace TrackedFields.TrackedQueue

variable {E : Type}

/-- Prepare a fresh queue, loading it now unless that waits for the first use. -/
def initialise : Action E Unit := do
  let content ← Tracked.content?
  if content.useCache && !content.lazily then loadFromStore

/-- Take over a value that the store holds already. Nobody is told. -/
def initialiseFrom (es : List E) : Action E Unit := do
  let content ← Tracked.content?
  Tracked.setContent { content with
    elements := content.order.sort es
    loaded := content.loaded || content.useCache }

/-- Whether a replaced value has to be written: not before the owner itself was. A new owner is
written in the course of its own insertion, unless changes are queued. -/
def replacementReachesStore (q : TrackedQueue E) (s : Session E) : Bool :=
  match q.tracker.channel with
  | none => false
  | some (_, owner) =>
    match (s.entity? owner).filter (·.alive) with
    | none => false
    | some entity => if q.tracker.isQueued || !entity.isNew then entity.flushed else true

variable [DecidableEq E]

/-- Replace the whole value. In the store, or in the queue, it is cleared, and the new elements
are added one by one. -/
def initialiseWith (es : List E) : Action E Unit := do
  let scene ← get
  let content := scene.value.content
  if replacementReachesStore scene.value scene.session then
    Tracked.report fun tracker session =>
      tracker.enqueue (.collectionClear :: es.map .collectionAdd) session
    discard (forward "clear" Store.clear)
    discard (forward "add-all" (Store.addAll · es (if content.useCache then some 0 else none)))
  Tracked.setContent { content with elements := content.order.sort es, loaded := true }
  Tracked.makeDirty

variable [Element E]

/-- A queue may have to load its elements before it is compared with a value from outside. -/
instance : Container (QueueContent E) E where
  isLoaded := isAuthoritative
  load := ensureLoaded
  elements := toList
  initialiseFrom := initialiseFrom
  contains := contains
  containsAll := containsAll
  add := add
  addAll := addAll
  remove := removeWith
  removeAll := removeAll
  retainAll := retainAll
  clear := clear

/-- Copies of the elements for use outside the session, in the order of the queue. -/
def detachCopy (seen : Detachment) : Action E (List E × Detachment) := do
  let es ← snapshot
  return (es, ← Tracked.detach es seen)

/-- Take over a value from outside the session: drop what it lacks, add what it adds. -/
def attachCopy (target : List E) : Action E Unit := do
  Tracked.attach target
  Container.reconcile target

end TrackedFields.TrackedQueue
