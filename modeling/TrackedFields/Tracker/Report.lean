import TrackedFields.Session.Detachment
import TrackedFields.Tracker.Basic

/-!
# Reporting changes

After a container has changed, the change is reported in a fixed order: first the relation, then
the queue or, where there is no store, the deletion of dependent elements, and last the owner. A
report lists what there is to say for each; which parts are heard depends on the tracker.
-/

namespace TrackedFields

/-- What a change of a container has to tell. -/
structure Report (E : Type) where
  /-- The elements that entered or left the relation. -/
  relations : List (RelationChange E) := []
  /-- The operations that repeat the change on a store. -/
  operations : List (OperationKind E) := []
  /-- The elements to delete if they are dependent and no store looks after that. -/
  orphans : List E := []

namespace Report

variable {E : Type}

/-- Elements were appended. -/
def added (es : List E) : Report E where
  relations := es.map .added
  operations := es.map .collectionAdd

/-- Elements left the container. -/
def removed (es : List E) (cascade : Bool) : Report E where
  relations := es.map .removed
  operations := es.map (.collectionRemove · cascade)
  orphans := if cascade then es else []

/-- The container, which held these elements, was emptied. -/
def cleared (es : List E) : Report E where
  relations := es.map .removed
  operations := [.collectionClear]
  orphans := es

end Report

namespace Tracker

variable {E : Type} [DecidableEq E]

/-- Report changes of the relation behind the owning field. -/
def relate (t : Tracker) (changes : List (RelationChange E)) (s : Session E) : Session E :=
  match t.owner with
  | none => s
  | some owner => s.relate owner.id owner.field changes

/-- Let operations wait for a flush, if changes are queued. -/
def enqueue (t : Tracker) (kinds : List (OperationKind E)) (s : Session E) : Session E :=
  match t.dispatch, t.owner with
  | .queued store, some owner =>
    s.enqueueAll (kinds.map fun kind => { owner := owner.id, field := owner.field, store, kind })
  | _, _ => s

/-- Delete dependent elements, each once, if changes stay in memory. -/
def cascade (t : Tracker) (es : List E) (s : Session E) : Session E :=
  match t.dispatch, t.owner with
  | .memory, some owner =>
    if owner.descriptor.hasDependentElement then s.deleteAll (ElementSet.ofList es).toList else s
  | _, _ => s

/-- Tell all of a report. -/
def announce (t : Tracker) (report : Report E) (s : Session E) : Session E :=
  t.cascade report.orphans (t.enqueue report.operations (t.relate report.relations s))

/-- Mark the owning field dirty. -/
def markDirty (t : Tracker) (s : Session E) : Session E :=
  match t.owner with
  | none => s
  | some owner => owner.markDirty s

/-- End a change: mark the owning field dirty and, outside a transaction, persist the change. -/
def changed (t : Tracker) (s : Session E) : Session E :=
  match t.owner with
  | none => s
  | some owner => owner.changed s

/-- Copy elements for use outside the session; without owner, they are left alone. -/
def detach [Element E] (t : Tracker) (es : List E) (seen : Detachment) (s : Session E) :
    Detachment × Session E :=
  match t.owner with
  | none => (seen, s)
  | some _ => (es.foldl Detachment.note seen, s.detachAll es)

/-- Take in elements from outside the session; without owner, they are left alone. -/
def attach (t : Tracker) (es : List E) (s : Session E) : Session E :=
  match t.owner with
  | none => s
  | some owner => s.attachAll es owner.descriptor.hasElementsWithoutIdentity

end Tracker

end TrackedFields
