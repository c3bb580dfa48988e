import TrackedFields.Tracked.Container

/-!
# Tracked lists

A list-valued field whose content lives in memory. Positional changes are queued as positional
operations, so that a flush repeats them in the order in which they happened. A dependent element
that leaves a position is deleted once no position holds it any more.
-/

namespace TrackedFields

/-- A list-valued field. -/
abbrev TrackedList (E : Type) := Tracked (List E)

namespace TrackedList

variable {E : Type}

/-- An operation on a tracked list. -/
abbrev Action (E α : Type) := TrackedAction (TrackedList E) E α

/-- A list that belongs to nobody. -/
def unowned : TrackedList E := { tracker := .unowned, content := [] }

/-- A list that belongs to a field. -/
def owned (owner : Owner) (settings : Settings) : TrackedList E :=
  { tracker := .unbacked owner settings, content := [] }

/-- Take over a loaded value. Nobody is told. -/
def initialiseFrom (es : List E) : Action E Unit := Tracked.setContent es

/-- An embedded element changed one of its fields; the field is marked dirty if asked. -/
def updateEmbedded (dirty : Bool) : Action E Unit := do
  if dirty then Tracked.makeDirty

/-- Copies of the elements for use outside the session. -/
def detachCopy [DecidableEq E] [Element E] (seen : Detachment) :
    Action E (List E × Detachment) := do
  let es ← Tracked.content?
  return (es, ← Tracked.detach es seen)

/-! ### Reading -/

/-- The elements from one position to before another one. -/
def slice (l : TrackedList E) (start stop : Nat) : Except Failure (List E) :=
  if start ≤ stop ∧ stop ≤ l.content.length then .ok ((l.content.take stop).drop start)
  else .error (.indexOutOfBounds stop l.content.length)

/-- The JSON form: the elements in order. -/
def toJson (encode : E → Json) (l : TrackedList E) : Json := .arr (l.content.map encode)

instance [Described E] : Described (TrackedList E) where
  describe l := Text.record "ScoList" [
    ("field", describe l.tracker.fieldName),
    ("elements", describe l.content)]

variable [DecidableEq E]

/-- The last position of an element. -/
def lastIndexOf? (l : TrackedList E) (e : E) : Option Nat :=
  (l.content.reverse.idxOf? e).map (l.content.length - 1 - ·)

/-- Whether the list holds all listed elements. -/
def containsAll (l : TrackedList E) (es : List E) : Bool := es.all l.content.contains

/-! ### Removing -/

/-- The report of one element that left the list, with the operation that repeats it. The element
is an orphan unless the rest of the list still holds it. -/
def departure (e : E) (operation : OperationKind E) (rest : List E) (cascade : Bool) :
    Report E where
  relations := [.removed e]
  operations := [operation]
  orphans := if cascade && !rest.contains e then [e] else []

/-- Remove the first occurrence of an element; tells whether there was one. -/
def removeWith (e : E) (cascade : Bool) : Action E Bool :=
  Tracked.mutate fun _ es =>
    if es.contains e then
      let rest := es.erase e
      .ok (.made true rest (departure e (.collectionRemove e cascade) rest cascade))
    else .ok (.nothing false)

/-- Remove the first occurrence of an element and, if it is gone then, its record. -/
def remove (e : E) : Action E Bool := removeWith e true

/-- Remove the element at a position. -/
def removeAtWith (index : Nat) (cascade : Bool) : Action E E :=
  Tracked.mutate fun _ es =>
    match es[index]? with
    | none => .error (.indexOutOfBounds index es.length)
    | some e =>
      let rest := es.eraseIdx index
      .ok (.made e rest (departure e (.listRemoveAt index) rest cascade))

/-- Remove the element at a position and, if it is gone then, its record. -/
def removeAt (index : Nat) : Action E E := removeAtWith index true

/-- Remove the elements that satisfy a condition; tells whether there were any. -/
def removeWhere (doomed : E → Bool) : Action E Bool :=
  Tracked.mutate fun _ es =>
    let removed := es.filter doomed
    if removed.isEmpty then .ok (.nothing false)
    else .ok (.made true (es.filter fun e => !doomed e) (.removed removed true))

/-- Remove every occurrence of the listed elements. -/
def removeAll (es : List E) : Action E Bool := removeWhere es.contains

/-- Keep the occurrences of the listed elements only. -/
def retainAll (keep : List E) : Action E Bool := removeWhere fun e => !keep.contains e

/-- Remove all elements. The owner is told even if there were none. -/
def clear : Action E Unit :=
  Tracked.mutate fun _ es =>
    .ok (.made () [] (if es.isEmpty then {} else .cleared es))

/-! ### Reordering -/

/-- The elements of a new order that differ from the old one at their position, with the
position. -/
def moves (before order : List E) : List (Nat × E) :=
  (before.zip order).zipIdx.filterMap fun ((old, new), index) =>
    if old = new then none else some (index, new)

/-- Rearrange the list. Positions whose element changed are overwritten; nothing leaves the list,
so nothing is deleted. -/
def reorder (arrange : List E → List E) : Action E Unit :=
  Tracked.mutate fun _ es =>
    let order := arrange es
    let moved := moves es order
    if moved.isEmpty then .ok (.nothing ())
    else .ok (.made () order {
      operations := moved.map fun (index, e) => .listSet index e false })

/-- Sort the list. Elements that compare equal keep their order. -/
def sortBy (cmp : Comparator E) : Action E Unit := reorder cmp.sort

variable [Element E]

/-! ### Adding -/

/-- Append an element. -/
def add (e : E) : Action E Bool :=
  Tracked.mutate fun tracker es => do
    tracker.check e
    return .made true (es ++ [e]) (.added [e])

/-- Append several elements, or none if one of them is refused. -/
def addAll (new : List E) : Action E Bool :=
  Tracked.mutate fun tracker es => do
    tracker.checkAll new
    if new.isEmpty then return .nothing false
    return .made true (es ++ new) (.added new)

/-- The report of elements that were inserted from a position on. -/
def arrival (index : Nat) (new : List E) : Report E where
  relations := new.map .added
  operations := new.zipIdx.map fun (e, offset) => .listAddAt (index + offset) e

/-- Insert an element at a position, shifting later ones. -/
def insert (index : Nat) (e : E) : Action E Unit :=
  Tracked.mutate fun tracker es => do
    if es.length < index then throw (.indexOutOfBounds index es.length)
    tracker.check e
    return .made () (es.insertIdx index e) (arrival index [e])

/-- Insert several elements from a position on, or none if one of them is refused. -/
def insertAll (index : Nat) (new : List E) : Action E Bool :=
  Tracked.mutate fun tracker es => do
    if es.length < index then throw (.indexOutOfBounds index es.length)
    tracker.checkAll new
    if new.isEmpty then return .nothing false
    return .made true (es.take index ++ new ++ es.drop index) (arrival index new)

/-! ### Replacing -/

/-- The report of one element that took the place of another one. -/
def replacement (index : Nat) (previous e : E) (content : List E) (cascade : Bool) :
    Report E where
  relations := if previous = e then [] else [.removed previous, .added e]
  operations := [.listSet index e cascade]
  orphans := if cascade && !content.contains previous then [previous] else []

/-- Replace the element at a position; gives the one before. -/
def setWith (index : Nat) (e : E) (cascade : Bool) : Action E E :=
  Tracked.mutate fun tracker es =>
    match es[index]? with
    | none => .error (.indexOutOfBounds index es.length)
    | some previous => do
      tracker.check e
      let content := es.set index e
      return .made previous content (replacement index previous e content cascade)

/-- Replace the element at a position and delete the record of the one before, if it is gone
then. -/
def set (index : Nat) (e : E) : Action E E := setWith index e true

/-- A list is in memory as a whole. -/
instance : Container (List E) E where
  isLoaded _ := true
  load := return ()
  elements := Tracked.content?
  initialiseFrom := initialiseFrom
  contains e := return (← Tracked.content?).contains e
  containsAll es := return containsAll (← get).value es
  add := add
  addAll := addAll
  remove := removeWith
  removeAll := removeAll
  retainAll := retainAll
  clear := clear

end TrackedList

end TrackedFields
