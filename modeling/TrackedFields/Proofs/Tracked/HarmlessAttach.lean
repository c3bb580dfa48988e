import TrackedFields.Proofs.Session.Harmless
import TrackedFields.Proofs.TrackedSet.Plans
import TrackedFields.TrackedQueue.Replace

/-!
# Attaching sets and queues

Sets and queues take over a value from outside the session by removing and adding single elements.
Removals do not cascade, in memory, in the queue or in the store, and additions have nothing to
delete, so that attaching is harmless in every mode of dispatch.
-/

namespace TrackedFields

open Session (Harmless)

namespace Tracked

variable {C E α : Type} {before : Session E}

/-- A scene whose session has seen nothing but harmless requests since an earlier moment. -/
def Harmless (before : Session E) (scene : Scene (Tracked C) E) : Prop :=
  before.Harmless scene.session

/-- Taking in elements from outside the session is harmless. -/
theorem harmless_attach (es : List E) :
    Keeps (Tracked.Harmless before) (attach es : TrackedAction (Tracked C) E Unit) := by
  intro scene h
  exact Session.Harmless.of_pending_eq h
    (h.spares.of_stores_eq (scene.value.tracker.deletions_attach scene.session es)
      (scene.value.tracker.stores_attach scene.session es))
    (scene.value.tracker.pending_attach scene.session es)

/-- Setting the content is harmless. -/
theorem harmless_setContent (content : C) :
    Keeps (Tracked.Harmless before) (setContent content) := fun _ h => h

/-- Looking at the scene is harmless. -/
theorem harmless_get {f : Scene (Tracked C) E → α} :
    Keeps (Tracked.Harmless before)
      (do return f (← get) : TrackedAction (Tracked C) E α) := fun _ h => h

/-- A plan whose reports have no orphans and queue gentle operations is harmless. -/
theorem harmless_mutate [DecidableEq E] {plan : Tracker → C → Except Failure (Change C E α)}
    (hplan : ∀ tracker content answer next report,
      plan tracker content = .ok (.made answer next report) →
      report.orphans = [] ∧ ∀ kind ∈ report.operations, kind.Gentle) :
    Keeps (Tracked.Harmless before) (mutate plan) := by
  intro scene h
  rcases mutate_cases plan scene with hsame | ⟨answer, next, report, hmade, hafter⟩
  · rw [hsame]
    exact h
  · obtain ⟨horphans, hgentle⟩ := hplan _ _ _ _ _ hmade
    rw [hafter]
    exact (Session.Harmless.announce h scene.value.tracker horphans hgentle).changed
      scene.value.tracker

/-- A scene whose session has the stores and the deletions of an earlier moment. -/
def Undisturbed (before : Session E) (scene : Scene (Tracked C) E) : Prop :=
  scene.session.stores = before.stores ∧ scene.session.deletions = before.deletions

/-- A plan whose reports have no orphans disturbs neither stores nor records. -/
theorem undisturbed_mutate [DecidableEq E] {plan : Tracker → C → Except Failure (Change C E α)}
    (hplan : ∀ tracker content answer next report,
      plan tracker content = .ok (.made answer next report) → report.orphans = []) :
    Keeps (Undisturbed before) (mutate plan) := by
  intro scene h
  rcases mutate_cases plan scene with hsame | ⟨answer, next, report, hmade, hafter⟩
  · rw [hsame]
    exact h
  · have horphans := hplan _ _ _ _ _ hmade
    rw [hafter]
    constructor
    · rw [Tracker.stores_changed, Tracker.stores_announce, h.1]
    · rw [Tracker.deletions_changed, Tracker.deletions_announce _ _ horphans, h.2]

/-- Taking in elements from outside the session disturbs neither stores nor records. -/
theorem undisturbed_attach (es : List E) :
    Keeps (Undisturbed before) (attach es : TrackedAction (Tracked C) E Unit) := by
  intro scene h
  exact ⟨(scene.value.tracker.stores_attach scene.session es).trans h.1,
    (scene.value.tracker.deletions_attach scene.session es).trans h.2⟩

/-- A scene whose container does not queue its changes and whose queue is that of an earlier
moment. -/
def Idle (before : Session E) (scene : Scene (Tracked C) E) : Prop :=
  scene.value.tracker.isQueued = false ∧ scene.session.pending = before.pending

/-- Without queueing, a plan leaves the queue alone. -/
theorem idle_mutate [DecidableEq E] (plan : Tracker → C → Except Failure (Change C E α)) :
    Keeps (Idle before) (mutate plan) := by
  intro scene h
  rcases mutate_cases plan scene with hsame | ⟨answer, next, report, -, hafter⟩
  · rw [hsame]
    exact h
  · rw [hafter]
    refine ⟨h.1, ?_⟩
    rw [Tracker.pending_changed, Tracker.pending_announce, Tracker.queued_of_not_isQueued h.1,
      List.append_nil]
    exact h.2

/-- Without queueing, taking in elements leaves the queue alone. -/
theorem idle_attach (es : List E) :
    Keeps (Idle before) (attach es : TrackedAction (Tracked C) E Unit) := by
  intro scene h
  exact ⟨h.1, (scene.value.tracker.pending_attach scene.session es).trans h.2⟩

end Tracked

/-- Additions queue gentle operations. -/
theorem Report.gentle_added {E : Type} (es : List E) :
    ∀ kind ∈ (Report.added es).operations, kind.Gentle := by
  intro kind hmem
  obtain ⟨e, -, rfl⟩ := List.mem_map.mp hmem
  exact trivial

/-- Removals without cascading queue gentle operations. -/
theorem Report.gentle_removed {E : Type} (es : List E) :
    ∀ kind ∈ (Report.removed es false).operations, kind.Gentle := by
  intro kind hmem
  obtain ⟨e, -, rfl⟩ := List.mem_map.mp hmem
  exact rfl

variable {E α : Type} {before : Session E}

namespace TrackedSet

variable [DecidableEq E]

/-- Removing without cascading from a set is harmless. -/
theorem harmless_removeWith (e : E) :
    Keeps (Tracked.Harmless before) (removeWith e false) := by
  rw [removeWith, removeListed]
  apply Tracked.harmless_mutate
  intro tracker members answer next report hplan
  obtain ⟨removed, -, -, rfl⟩ := made_of_removeListed hplan
  exact ⟨rfl, Report.gentle_removed removed.toList⟩

variable [Element E]

/-- Adding to a set is harmless. -/
theorem harmless_add (e : E) : Keeps (Tracked.Harmless before) (add e) := by
  rw [add, addAll]
  apply Tracked.harmless_mutate
  intro tracker members answer next report hplan
  obtain ⟨-, new, -, -, rfl⟩ := made_of_addAll hplan
  exact ⟨rfl, Report.gentle_added new.toList⟩

/-- Attaching a set is harmless. -/
theorem harmless_attachCopy (target : ElementSet E) :
    Keeps (Tracked.Harmless before) (attachCopy target) :=
  (Tracked.harmless_attach target.toList).bind fun _ =>
    Container.keeps_reconcile Tracked.harmless_get harmless_removeWith harmless_add target.toList

end TrackedSet

namespace TrackedQueue

/-- A read from the store is harmless. -/
theorem harmless_read {name : StoreName} {action : StoreAction E α}
    (haction : ∀ deleted, Keeps (fun st => st.deleted = deleted) action) :
    Keeps (Tracked.Harmless before) (read name action) := by
  intro scene h
  have hafter : (stateAfter (read name action) scene).session =
      stateAfter (Session.access name action) scene.session := by
    unfold stateAfter read
    cases Session.access name action scene.session <;> rfl
  unfold Tracked.Harmless
  rw [hafter]
  exact Session.Harmless.access h haction

/-- Reading from store or memory is harmless. -/
theorem harmless_readEither {fromStore : Bool} {action : ObjectId → StoreAction E α}
    {fromMemory : QueueContent E → α}
    (haction : ∀ owner deleted, Keeps (fun st => st.deleted = deleted) (action owner)) :
    Keeps (Tracked.Harmless before) (readEither fromStore action fromMemory) := by
  apply Tracked.harmless_get.bind
  intro q
  split
  · next name owner _ => exact (harmless_read (haction owner)).ite (Keeps.pure _)
  · exact Keeps.pure _

private theorem keeps_elements (owner : ObjectId) (deleted : List E) :
    Keeps (fun st => st.deleted = deleted) (Store.elements owner) := by
  apply (Store.keeps_reading _ _).bind
  intro es
  exact Keeps.bind (Keeps.of_modify fun _ h => h) fun _ => Keeps.pure es

/-- Loading is harmless. -/
theorem harmless_loadFromStore : Keeps (Tracked.Harmless before) (loadFromStore (E := E)) := by
  apply Tracked.harmless_get.bind
  intro q
  split
  · exact Keeps.pure ()
  · next name owner _ =>
    exact (Keeps.pure _).ite ((harmless_read (keeps_elements owner)).bind fun es =>
      Tracked.harmless_setContent _)

/-- Loading, if the content is kept in memory, is harmless. -/
theorem harmless_ensureLoaded : Keeps (Tracked.Harmless before) (ensureLoaded (E := E)) :=
  Tracked.harmless_get.bind fun _ => harmless_loadFromStore.ite (Keeps.pure ())

/-- Listing a queue is harmless. -/
theorem harmless_toList : Keeps (Tracked.Harmless before) (toList (E := E)) :=
  harmless_ensureLoaded.bind fun _ => Tracked.harmless_get.bind fun _ =>
    harmless_readEither keeps_elements

/-- Making a change in the store is harmless if it deletes nothing there. -/
theorem harmless_forward {operation : String} {action : ObjectId → StoreAction E α}
    (haction : ∀ owner deleted, Keeps (fun st => st.deleted = deleted) (action owner)) :
    Keeps (Tracked.Harmless before) (forward operation action) := by
  intro scene h
  exact Session.Harmless.forward h scene.value.tracker haction

/-- Setting the elements is harmless. -/
theorem harmless_setElements (es : List E) :
    Keeps (Tracked.Harmless before) (setElements es) :=
  Tracked.harmless_get.bind fun _ => Tracked.harmless_setContent _

/-- The end of a change is harmless. -/
theorem harmless_changed : Keeps (Tracked.Harmless before) (changed (E := E)) := by
  intro scene h
  exact Session.Harmless.changed h scene.value.tracker

variable [DecidableEq E]

/-- A report without orphans whose operations are gentle is harmless. -/
theorem harmless_announce {report : Report E} (horphans : report.orphans = [])
    (hgentle : ∀ kind ∈ report.operations, kind.Gentle) :
    Keeps (Tracked.Harmless before) (announce report) := by
  intro scene h
  exact Session.Harmless.announce h scene.value.tracker horphans hgentle

/-- Asking for an element is harmless. -/
theorem harmless_contains (e : E) : Keeps (Tracked.Harmless before) (contains e) :=
  Tracked.harmless_get.bind fun _ => harmless_readEither fun _ _ => Store.keeps_reading _ _

/-- A change that is made in memory, made in the store and reported is harmless if the store call
and the report are. -/
private theorem harmless_takeOut {β : Type} {es : List E} {operation : String}
    {action : ObjectId → StoreAction E α} {report : Forwarded α → Report E}
    {answer : Forwarded α → β}
    (haction : ∀ owner deleted, Keeps (fun st => st.deleted = deleted) (action owner))
    (horphans : ∀ forwarded, (report forwarded).orphans = [])
    (hgentle : ∀ forwarded, ∀ kind ∈ (report forwarded).operations, kind.Gentle) :
    Keeps (Tracked.Harmless before) (do
      setElements es
      let forwarded ← forward operation action
      announce (report forwarded)
      changed
      return answer forwarded) :=
  (harmless_setElements es).bind fun _ => (harmless_forward haction).bind fun forwarded =>
    (harmless_announce (horphans forwarded) (hgentle forwarded)).bind fun _ =>
      harmless_changed.bind fun _ => Keeps.pure _

/-- Removing without cascading from a queue is harmless. -/
theorem harmless_removeWith (e : E) :
    Keeps (Tracked.Harmless before) (removeWith e false) := by
  apply harmless_ensureLoaded.bind
  intro _
  apply Tracked.harmless_get.bind
  intro q
  have hstore (owner : ObjectId) (deleted : List E) :
      Keeps (fun st => st.deleted = deleted) (Store.remove owner e q.hint false) :=
    (Store.keeps_writing _ owner _).bind fun _ => (Store.keeps_deleteOrphans owner _).bind
      fun _ => Keeps.pure _
  have hgentle (present : Bool) : ∀ kind ∈ (if present = true then
      [OperationKind.collectionRemove e false] else []), kind.Gentle := by
    intro kind hmem
    split at hmem
    · obtain rfl := List.mem_singleton.mp hmem
      exact rfl
    · cases hmem
  dsimp only
  split
  · exact (Keeps.pure _).bind fun present =>
      harmless_takeOut hstore (by simp) fun _ => hgentle present
  · exact (harmless_contains e).bind fun present =>
      harmless_takeOut hstore (by simp) fun _ => hgentle present

variable [Element E]

/-- Adding to a queue is harmless. -/
theorem harmless_add (e : E) : Keeps (Tracked.Harmless before) (add e) := by
  apply Tracked.harmless_get.bind
  intro tracker
  have hrequire : Keeps (Tracked.Harmless before)
      (Tracked.require (tracker.check e) : Action E Unit) := by
    cases tracker.check e with
    | error failure => exact Keeps.throw failure
    | ok answer => exact Keeps.pure ()
  apply hrequire.bind
  intro _
  apply harmless_ensureLoaded.bind
  intro _
  apply Tracked.harmless_get.bind
  intro q
  have hstore (owner : ObjectId) (deleted : List E) :
      Keeps (fun st => st.deleted = deleted) (Store.add owner e q.hint) :=
    Store.keeps_writing _ owner _
  exact (harmless_forward hstore).bind fun _ => (harmless_setElements _).bind fun _ =>
    (harmless_announce rfl (Report.gentle_added [e])).bind fun _ => harmless_changed.bind fun _ =>
      Keeps.pure _

/-- Attaching a queue is harmless. -/
theorem harmless_attachCopy (target : List E) :
    Keeps (Tracked.Harmless before) (attachCopy target) :=
  (Tracked.harmless_attach target).bind fun _ =>
    Container.keeps_reconcile harmless_toList harmless_removeWith harmless_add target

end TrackedQueue

end TrackedFields
