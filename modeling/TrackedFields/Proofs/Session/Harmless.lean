import TrackedFields.Proofs.Keeps
import TrackedFields.Proofs.Session.Frame
import TrackedFields.Proofs.Store.Calls
import TrackedFields.Session.Flush
import TrackedFields.Tracker.Forward

/-!
# Requests that delete no record

Records of dependent elements are deleted in two places: by the session, when a container in memory
reports an orphan, and by a store, when a write lets an element go for good. Appending, inserting,
and removing or replacing without cascading let nothing go. A request is harmless if it deletes
nothing in either place and all that it leaves in the queue lets nothing go when it is replayed.
-/

namespace TrackedFields

namespace Store

variable {E α : Type} {deleted : List E}

/-- A read deletes nothing. -/
theorem keeps_reading (call : StoreCall E) (answer : Store E → α) :
    Keeps (fun st => st.deleted = deleted) (reading call answer) := by
  intro st h
  unfold stateAfter
  rw [reading_eq]
  split
  · next hread =>
    split at hread
    · cases hread
    · cases hread
      exact h
  · next hread =>
    split at hread
    · cases hread
      exact h
    · cases hread

/-- A write alone deletes nothing. -/
theorem keeps_writing (call : StoreCall E) (owner : ObjectId)
    (change : List E → Except StoreError (α × List E)) :
    Keeps (fun st => st.deleted = deleted) (writing call owner change) := by
  intro st h
  have hafter : (stateAfter (writing call owner change) st).deleted = st.deleted := by
    unfold stateAfter
    rw [writing_eq]
    by_cases hnow : st.writes.now = true
    · rw [if_pos hnow]
      rfl
    · rw [if_neg hnow]
      cases change (st.contents owner) <;> rfl
  rw [hafter]
  exact h

variable [DecidableEq E]

/-- Removed elements are not deleted without cascading. -/
theorem keeps_deleteOrphans (owner : ObjectId) (removed : List E) :
    Keeps (fun st => st.deleted = deleted) (deleteOrphans owner false removed) := by
  apply Keeps.of_modify
  intro st h
  rw [Bool.and_false]
  exact h

end Store

namespace OperationKind

variable {E : Type}

/-- An operation that lets no element of a container go for good. -/
def Gentle : OperationKind E → Prop
  | collectionAdd _ | listAddAt _ _ => True
  | collectionRemove _ cascade | listSet _ _ cascade => cascade = false
  | collectionClear | listRemoveAt _ => False

/-- A gentle operation deletes nothing, whatever the store and however it ends. -/
theorem Gentle.keeps_perform [DecidableEq E] {kind : OperationKind E} (h : kind.Gentle)
    (owner : ObjectId) (deleted : List E) :
    Keeps (fun st => st.deleted = deleted) (kind.perform owner) := by
  cases kind with
  | collectionAdd e => exact (Store.keeps_writing _ owner _).discard
  | collectionRemove e cascade =>
    obtain rfl : cascade = false := h
    apply Keeps.discard
    exact (Store.keeps_writing _ owner _).bind fun _ =>
      (Store.keeps_deleteOrphans owner _).bind fun _ => Keeps.pure _
  | collectionClear => exact h.elim
  | listAddAt i e =>
    rw [perform, Store.insert]
    exact Store.keeps_writing _ owner _
  | listRemoveAt i => exact h.elim
  | listSet i e cascade =>
    obtain rfl : cascade = false := h
    apply Keeps.discard
    exact (Store.keeps_writing _ owner _).bind fun _ =>
      (Store.keeps_deleteOrphans owner _).bind fun _ => Keeps.pure _

end OperationKind

namespace Session

variable {E α : Type}

/-- No record was deleted in between, neither by the session nor by a store. -/
structure Spares (before after : Session E) : Prop where
  deletions : after.deletions = before.deletions
  deleted : ∀ name, (after.store name).deleted = (before.store name).deleted

/-- Nothing is deleted while nothing happens. -/
theorem Spares.refl (s : Session E) : s.Spares s := ⟨rfl, fun _ => rfl⟩

/-- Requests without deletions that leave the stores alone delete no record. -/
theorem Spares.of_stores_eq {before s after : Session E} (h : before.Spares s)
    (hdeletions : after.deletions = s.deletions) (hstores : after.stores = s.stores) :
    before.Spares after := by
  constructor
  · exact hdeletions.trans h.deletions
  · intro name
    rw [store_of_stores_eq hstores]
    exact h.deleted name

/-- A store call that deletes nothing deletes no record of the session. -/
theorem Spares.access {before s : Session E} (h : before.Spares s) {name : StoreName}
    {action : StoreAction E α}
    (haction : ∀ deleted, Keeps (fun st => st.deleted = deleted) action) :
    before.Spares (stateAfter (access name action) s) := by
  have hafter : stateAfter (Session.access name action) s =
      s.afterCalls name (stateAfter action (s.store name)) := by
    unfold stateAfter Session.access
    cases action (s.store name) <;> rfl
  rw [hafter]
  refine ⟨(s.deletions_afterCalls name _).trans h.deletions, fun other => ?_⟩
  rw [store_afterCalls, ← h.deleted other]
  split
  · next hother =>
    rw [hother]
    exact haction (s.store name).deleted (s.store name) rfl
  · rfl

/-- A store call leaves the queue alone. -/
theorem pending_access (name : StoreName) (action : StoreAction E α) (s : Session E) :
    (stateAfter (access name action) s).pending = s.pending := by
  unfold stateAfter access
  cases action (s.store name) <;> rfl

variable [DecidableEq E]

/-- Replaying a gentle operation deletes no record, whatever the stores and however it ends. -/
theorem keeps_replay {before : Session E} (default : Option StoreName) {operation : Operation E}
    (h : operation.kind.Gentle) : Keeps before.Spares (replay default operation) := by
  intro s hs
  have hafter (name : StoreName) (failed : StoreError → ReplayError) :
      stateAfter (EStateM.adaptExcept failed
          (access name (operation.kind.perform operation.owner))) s =
        stateAfter (access name (operation.kind.perform operation.owner)) s := by
    unfold stateAfter EStateM.adaptExcept
    cases access name (operation.kind.perform operation.owner) s <;> rfl
  unfold replay
  split
  · exact hs
  · rw [hafter]
    exact hs.access (h.keeps_perform operation.owner)

/-- Replaying gentle operations deletes no record. -/
theorem keeps_replayAll {before : Session E} (default : Option StoreName)
    {operations : List (Operation E)} (h : ∀ operation ∈ operations, operation.kind.Gentle) :
    Keeps before.Spares (replayAll default operations) := by
  induction operations with
  | nil => exact Keeps.pure 0
  | cons operation rest ih =>
    have hpending : Keeps before.Spares
        (modify fun s => { s with pending := rest } : EStateM ReplayError (Session E) PUnit) :=
      Keeps.of_modify fun s hs => hs.of_stores_eq rfl rfl
    exact (keeps_replay default (h operation List.mem_cons_self)).bind fun _ =>
      hpending.bind fun _ => (ih fun operation hmem => h operation
        (List.mem_cons_of_mem _ hmem)).bind fun _ => Keeps.pure _

/-- No record was deleted in between, and the operations that joined the queue are gentle. -/
structure Harmless (before after : Session E) : Prop where
  spares : before.Spares after
  pending : ∃ operations, after.pending = before.pending ++ operations ∧
    ∀ operation ∈ operations, operation.kind.Gentle

omit [DecidableEq E] in
/-- Nothing is harmless. -/
theorem Harmless.refl (s : Session E) : s.Harmless s :=
  ⟨.refl s, [], (List.append_nil s.pending).symm, by simp⟩

omit [DecidableEq E] in
/-- What leaves the queue alone and deletes no record is harmless. -/
theorem Harmless.of_pending_eq {before s after : Session E} (h : before.Harmless s)
    (hspares : before.Spares after) (hpending : after.pending = s.pending) :
    before.Harmless after :=
  ⟨hspares, hpending ▸ h.pending⟩

omit [DecidableEq E] in
/-- Gentle operations may join the queue. -/
theorem Harmless.queue {before s after : Session E} (h : before.Harmless s) {t : Tracker}
    {kinds : List (OperationKind E)} (hkinds : ∀ kind ∈ kinds, kind.Gentle)
    (hspares : before.Spares after) (hpending : after.pending = s.pending ++ t.queued kinds) :
    before.Harmless after := by
  obtain ⟨operations, heq, hgentle⟩ := h.pending
  refine ⟨hspares, operations ++ t.queued kinds, ?_, ?_⟩
  · rw [hpending, heq, List.append_assoc]
  · intro operation hmem
    rcases List.mem_append.mp hmem with hmem | hmem
    · exact hgentle operation hmem
    · exact hkinds operation.kind (Tracker.kind_mem_of_queued hmem)

omit [DecidableEq E] in
/-- A store call that deletes nothing is harmless. -/
theorem Harmless.access {before s : Session E} (h : before.Harmless s) {name : StoreName}
    {action : StoreAction E α}
    (haction : ∀ deleted, Keeps (fun st => st.deleted = deleted) action) :
    before.Harmless (stateAfter (access name action) s) :=
  h.of_pending_eq (h.spares.access haction) (pending_access name action s)

omit [DecidableEq E] in
/-- Making a change in the store is harmless if it deletes nothing there. -/
theorem Harmless.forward {before s : Session E} (h : before.Harmless s) (t : Tracker)
    {operation : String} {action : ObjectId → StoreAction E α}
    (haction : ∀ owner deleted, Keeps (fun st => st.deleted = deleted) (action owner)) :
    before.Harmless (t.forward operation action s).2 := by
  unfold Tracker.forward Tracker.call
  split
  · split
    · exact h
    · next name owner _ =>
      have hcall : before.Harmless (stateAfter (Session.access name (action owner)) s) :=
        h.access (haction owner)
      split
      · next haccess =>
        rw [stateAfter_of_ok haccess] at hcall
        exact hcall
      · next error after haccess =>
        rw [stateAfter_of_error haccess] at hcall
        exact hcall.of_pending_eq
          (hcall.spares.of_stores_eq (after.deletions_record (by simp)) rfl) rfl
  · exact h
  · exact h

/-- A report without orphans whose operations are gentle is harmless. -/
theorem Harmless.announce {before s : Session E} (h : before.Harmless s) (t : Tracker)
    {report : Report E} (horphans : report.orphans = [])
    (hgentle : ∀ kind ∈ report.operations, kind.Gentle) :
    before.Harmless (t.announce report s) :=
  h.queue hgentle
    (h.spares.of_stores_eq (t.deletions_announce s horphans) (t.stores_announce s report))
    (t.pending_announce s report)

omit [DecidableEq E] in
/-- The end of a change is harmless. -/
theorem Harmless.changed {before s : Session E} (h : before.Harmless s) (t : Tracker) :
    before.Harmless (t.changed s) :=
  h.of_pending_eq (h.spares.of_stores_eq (t.deletions_changed s) (t.stores_changed s))
    (t.pending_changed s)

end Session

end TrackedFields
