import TrackedFields.Store.Bulk
import TrackedFields.TrackedQueue.Basic

/-!
# Changing a priority queue

Each change is made in memory, in the store if changes go there right away, and reported to the
owner. A store that fails leaves the change in memory standing; the answer then says that nothing
changed.
-/

namespace TrackedFields

/-- What a change answers: what the store says, if it was called, and nothing where it failed. -/
def Forwarded.answer {α : Type} (forwarded : Forwarded α) (inMemory failed : α) : α :=
  match forwarded with
  | .skipped => inMemory
  | .applied answer => answer
  | .failed => failed

namespace TrackedQueue

variable {E α : Type}

/-- Make a change in the store, if changes go there right away. -/
def forward (operation : String) (action : ObjectId → StoreAction E α) :
    Action E (Forwarded α) :=
  Tracked.ask fun tracker session => tracker.forward operation action session

/-- An embedded element changed one of its fields: the store is told, and the field is marked
dirty if asked. -/
def updateEmbedded (e : E) (field : FieldOrdinal) (dirty : Bool) : Action E Unit := do
  discard (Tracked.ask fun tracker session =>
    tracker.call "update-embedded-element" (Store.updateEmbedded · e field) session)
  if dirty then Tracked.makeDirty

variable [DecidableEq E]

/-- Report a change of the elements. -/
def announce (report : Report E) : Action E Unit :=
  Tracked.report fun tracker session => tracker.announce report session

/-- End a change. -/
def changed : Action E Unit := Tracked.report Tracker.changed

/-- Remove and give the head. Where changes are made in the store right away, that is the head
of the store, or nothing if the store fails. -/
def poll : Action E (Option E) := do
  ensureLoaded
  let q ← current
  let head := q.content.elements.head?
  let rest := q.content.elements.tail
  setElements rest
  let forwarded ← forward "poll" (Store.removeAt · 0 q.hint)
  let left :=
    match forwarded with
    | .applied head => head
    | .skipped | .failed => head
  announce {
    relations := left.toList.map .removed
    operations := if head.isSome || !q.isAuthoritative then [.listRemoveAt 0] else []
    orphans := head.toList.filter fun e => !rest.contains e }
  changed
  return forwarded.answer head none

/-- Remove one occurrence of an element; tells whether there was one. Where changes are queued,
an element that only the store holds counts as well. -/
def removeWith (e : E) (cascade : Bool) : Action E Bool := do
  ensureLoaded
  let q ← current
  let inMemory := q.content.elements.contains e
  let rest := q.content.elements.erase e
  let present ←
    if inMemory || q.isAuthoritative || !q.tracker.isQueued then pure inMemory else contains e
  setElements rest
  let forwarded ← forward "remove" (Store.remove · e q.hint cascade)
  let gone :=
    match forwarded with
    | .applied found => found
    | .skipped | .failed => present
  announce {
    relations := if gone then [.removed e] else []
    operations := if present then [.collectionRemove e cascade] else []
    orphans := if inMemory && cascade && !rest.contains e then [e] else [] }
  changed
  return forwarded.answer present false

/-- Remove one occurrence of an element and, if it is gone then, its record. -/
def remove (e : E) : Action E Bool := removeWith e true

/-- Remove every occurrence of the listed elements, also those that only the store holds. -/
def removeListed (doomed : List E) : Action E Bool := do
  ensureLoaded
  let q ← current
  let stored ←
    if q.isAuthoritative then pure [] else readEither true Store.elements fun _ => []
  let stored := stored.filter doomed.contains
  let inMemory := q.content.elements.filter doomed.contains
  setElements (q.content.elements.filter fun e => !doomed.contains e)
  let copies :=
    match q.tracker.dispatch with
    | .immediate _ => if q.isAuthoritative then inMemory else stored
    | .memory | .queued _ => stored ++ inMemory
  announce (.removed copies true)
  let forwarded ← forward "remove-all" (Store.removeAll · copies q.hint)
  changed
  return forwarded.answer (!copies.isEmpty) false

/-- Remove every occurrence of the listed elements; tells whether there was one. -/
def removeAll (es : List E) : Action E Bool := do
  if es.isEmpty then return false
  removeListed es

/-- Keep the occurrences of the listed elements only. -/
def retainAll (keep : List E) : Action E Bool := do
  let es ← toList
  let q ← current
  let unflushed :=
    if q.tracker.isQueued && !q.isAuthoritative then q.content.elements else []
  let dropped := (es ++ unflushed).filter fun e => !keep.contains e
  if dropped.isEmpty then return false
  removeListed dropped

/-- Remove all elements. The owner is told even if there were none. -/
def clear : Action E Unit := do
  let content ← Tracked.content?
  Tracked.setContent { content with
    elements := []
    loaded := content.loaded || content.useCache }
  announce (.cleared content.elements)
  discard (forward "clear" Store.clear)
  changed

variable [Element E]

/-- Add several elements without asking whether they may be null. -/
def addUnchecked (operation : String) (store : ObjectId → Option Nat → StoreAction E Bool)
    (new : List E) : Action E Bool := do
  ensureLoaded
  let q ← current
  let forwarded ← forward operation (store · q.hint)
  setElements (q.content.order.insertAll q.content.elements new)
  announce (.added new)
  changed
  return forwarded.answer true false

/-- Add an element. -/
def add (e : E) : Action E Bool := do
  Tracked.require ((← Tracked.tracker?).check e)
  addUnchecked "add" (Store.add · e ·) [e]

/-- Add several elements, or none if one of them is refused. -/
def addAll (new : List E) : Action E Bool := do
  Tracked.require ((← Tracked.tracker?).checkAll new)
  if new.isEmpty then return false
  addUnchecked "add-all" (Store.addAll · new ·) new

end TrackedQueue

end TrackedFields
