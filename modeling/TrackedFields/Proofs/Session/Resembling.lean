import TrackedFields.Proofs.Lockstep
import TrackedFields.Proofs.Session.Reads

/-!
# Sessions that differ in their records only

What was written down of the past decides nothing: not the journal of a session, and not the calls
of a store. Sessions that differ in no more than that are asked alike, are flushed alike, and go on
differing in no more than that.
-/

namespace TrackedFields

namespace Store

variable {E α : Type}

/-- Two stores that differ at most in what was written down of their calls. -/
def Resembles (st other : Store E) : Prop :=
  ∃ iterations calls, other = { st with iterations, calls }

namespace Resembles

variable {st mid other : Store E}

/-- Every store resembles itself. -/
theorem refl (st : Store E) : st.Resembles st := ⟨st.iterations, st.calls, rfl⟩

/-- Stores resemble one another. -/
theorem symm (h : st.Resembles other) : other.Resembles st := by
  obtain ⟨iterations, calls, rfl⟩ := h
  exact ⟨st.iterations, st.calls, rfl⟩

/-- What resembles the same resembles. -/
theorem trans (h : st.Resembles mid) (h' : mid.Resembles other) : st.Resembles other := by
  obtain ⟨iterations, calls, rfl⟩ := h
  obtain ⟨iterations', calls', rfl⟩ := h'
  exact ⟨iterations', calls', rfl⟩

/-- Stores that resemble hold the same. -/
theorem contents (h : st.Resembles other) (owner : ObjectId) :
    other.contents owner = st.contents owner := by
  obtain ⟨iterations, calls, rfl⟩ := h
  rfl

/-- Stores that resemble reject the same reads. -/
theorem reads (h : st.Resembles other) : other.reads = st.reads := by
  obtain ⟨iterations, calls, rfl⟩ := h
  rfl

end Resembles

/-- An action that goes alike on stores that resemble. -/
abbrev Unrecorded (action : StoreAction E α) : Prop :=
  Lockstep Resembles Eq Eq action action

/-- Answers that depend on one answer alone. -/
theorem Unrecorded.bind {β : Type} {action : StoreAction E α} {next : α → StoreAction E β}
    (h : Unrecorded action) (hnext : ∀ a, Unrecorded (next a)) : Unrecorded (action >>= next) := by
  apply Lockstep.bind h
  rintro a _ rfl
  exact hnext a

/-- Reading what is no record. -/
theorem unrecorded_reading {call : StoreCall E} {answer : Store E → α}
    (hanswer : ∀ st other, st.Resembles other → answer st = answer other) :
    Unrecorded (reading call answer) := by
  rintro st other ⟨iterations, calls, rfl⟩
  have hafter : (st.afterRead call).Resembles
      (({ st with iterations, calls } : Store E).afterRead call) :=
    ⟨iterations, calls ++ [call], rfl⟩
  rw [reading_eq, reading_eq]
  change Agree _ _ _ _ (if st.reads.now then _ else _)
  split
  · exact .error rfl hafter
  · exact .ok (hanswer _ _ hafter) hafter

/-- Writing. -/
theorem unrecorded_writing (call : StoreCall E) (owner : ObjectId)
    (change : List E → Except StoreError (α × List E)) :
    Unrecorded (writing call owner change) := by
  rintro st other ⟨iterations, calls, rfl⟩
  have hput (es : List E) : ((st.noted call).put owner es).Resembles
      ((({ st with iterations, calls } : Store E).noted call).put owner es) :=
    ⟨iterations, calls ++ [call], rfl⟩
  have hwrites : ({ st with iterations, calls } : Store E).writes.now = st.writes.now := rfl
  have hcontents : ({ st with iterations, calls } : Store E).contents owner = st.contents owner :=
    rfl
  rw [writing_eq, writing_eq, hwrites, hcontents]
  split
  · exact .error rfl ⟨iterations, calls ++ [call], rfl⟩
  · cases change (st.contents owner) with
    | error e => exact .error rfl (hput _)
    | ok answer => exact .ok rfl (hput (st.arrange answer.2))

/-- Asking for a size. -/
theorem unrecorded_size (owner : ObjectId) : Unrecorded (size (E := E) owner) :=
  unrecorded_reading fun _ _ h => by rw [h.contents]

variable [DecidableEq E]

/-- Deleting what has lost its last place. -/
theorem unrecorded_deleteOrphans (owner : ObjectId) (cascade : Bool) (removed : List E) :
    Unrecorded (deleteOrphans owner cascade removed) := by
  refine Lockstep.mono (Lockstep.of_modify ?_) fun _ _ _ => rfl
  rintro st other ⟨iterations, calls, rfl⟩
  change Resembles _ (if (st.dependent && cascade) = true then _ else _)
  split
  · exact ⟨iterations, calls, rfl⟩
  · exact ⟨iterations, calls, rfl⟩

/-- Removing an element. -/
theorem unrecorded_remove (owner : ObjectId) (e : E) (hint : Option Nat) (cascade : Bool) :
    Unrecorded (remove owner e hint cascade) :=
  (unrecorded_writing _ _ _).bind fun _ =>
    (unrecorded_deleteOrphans _ _ _).bind fun _ => .pure rfl

/-- Removing what stands at a position. -/
theorem unrecorded_removeAt (owner : ObjectId) (position : Nat) (hint : Option Nat) :
    Unrecorded (removeAt (E := E) owner position hint) :=
  (unrecorded_writing _ _ _).bind fun _ =>
    (unrecorded_deleteOrphans _ _ _).bind fun _ => .pure rfl

/-- Removing everything. -/
theorem unrecorded_clear (owner : ObjectId) : Unrecorded (clear (E := E) owner) :=
  (unrecorded_writing _ _ _).bind fun _ => unrecorded_deleteOrphans _ _ _

omit [DecidableEq E] in
/-- Appending elements, one by one. -/
theorem unrecorded_addFrom (owner : ObjectId) (hint : Option Nat) (es : List E) (offset : Nat) :
    Unrecorded (addFrom owner hint offset es) := by
  have hadvance (offset : Nat) : Unrecorded (advanceHint (E := E) hint offset) := by
    unfold advanceHint
    cases hint with
    | none => exact .pure rfl
    | some size =>
      dsimp only
      cases Word.addSizes size offset with
      | ok size => exact .pure rfl
      | error e => exact .throw rfl
  induction es generalizing offset with
  | nil => exact .pure rfl
  | cons e es ih =>
    exact (hadvance offset).bind fun _ => (unrecorded_writing _ _ _).bind fun _ =>
      (ih (offset + 1)).bind fun _ => .pure rfl

/-- Removing listed elements, one by one. -/
theorem unrecorded_removeAll (owner : ObjectId) (es : List E) (hint : Option Nat) :
    Unrecorded (removeAll owner es hint) := by
  induction es with
  | nil => exact .pure rfl
  | cons e es ih =>
    exact (unrecorded_remove _ _ _ _).bind fun _ => ih.bind fun _ => .pure rfl

/-- All changes that containers make right away. -/
theorem Write.unrecorded {good : E → Prop} {action : ObjectId → StoreAction E α}
    (h : Write good action) (owner : ObjectId) : Unrecorded (action owner) := by
  cases h with
  | add e hint => exact unrecorded_writing _ _ _
  | addAll es hint => exact unrecorded_addFrom owner hint es 0
  | remove e hint cascade => exact unrecorded_remove owner e hint cascade
  | removeAt position hint => exact unrecorded_removeAt owner position hint
  | removeAll es hint => exact unrecorded_removeAll owner es hint
  | clear => exact unrecorded_clear owner
  | updateEmbedded e field => exact unrecorded_reading fun _ _ _ => rfl

/-- All operations that wait for a flush. -/
theorem unrecorded_perform (kind : OperationKind E) (owner : ObjectId) :
    Unrecorded (kind.perform owner) := by
  have hdiscard {β : Type} {action : StoreAction E β} (h : Unrecorded action) :
      Unrecorded (discard action) := Lockstep.mono (Lockstep.discard h) fun _ _ _ => rfl
  cases kind with
  | collectionAdd e => exact hdiscard (unrecorded_writing _ _ _)
  | collectionRemove e cascade => exact hdiscard (unrecorded_remove owner e none cascade)
  | collectionClear => exact unrecorded_clear owner
  | listAddAt index e =>
    change Unrecorded (insert owner index e)
    exact unrecorded_writing _ _ _
  | listRemoveAt index =>
    exact (unrecorded_removeAt owner index none).bind fun _ =>
      Lockstep.ite ((unrecorded_size owner).bind fun _ => .throw rfl) (.pure rfl)
  | listSet index e cascade =>
    refine hdiscard ((unrecorded_writing _ _ _).bind fun _ =>
      (unrecorded_deleteOrphans _ _ _).bind fun _ => .pure rfl)

/-- What changes the container of one owner changes no other one. -/
theorem survivesWrites_contents {owner other : ObjectId} (hother : other ≠ owner)
    (good : E → Prop) (es : List E) : SurvivesWrites owner good (·.contents other = es) where
  writing call change _ _ st h := by
    rcases stateAfter_writing call owner change st with hafter | ⟨next, hafter⟩
    · rw [hafter]
      exact h
    · rw [hafter, contents_put, if_neg hother]
      exact h
  deletion cascade removed st h := by
    change (if st.dependent && cascade then _ else st : Store E).contents other = es
    split <;> exact h
  update e field st h := (congrFun (congrArg View.contents (looks_reading _ _ st)) other).trans h

end Store

namespace Session

variable {E α : Type}

/-- Two sessions that differ at most in what was written down of the past. -/
structure Resembles (s other : Session E) : Prop where
  settings : other.settings = s.settings
  transactionActive : other.transactionActive = s.transactionActive
  pending : other.pending = s.pending
  entities : other.entities = s.entities
  stores : ∀ name, (s.store name).Resembles (other.store name)

namespace Resembles

variable {s mid other : Session E}

/-- Every session resembles itself. -/
theorem refl (s : Session E) : s.Resembles s := ⟨rfl, rfl, rfl, rfl, fun _ => .refl _⟩

/-- Sessions resemble one another. -/
theorem symm (h : s.Resembles other) : other.Resembles s :=
  ⟨h.settings.symm, h.transactionActive.symm, h.pending.symm, h.entities.symm,
    fun name => (h.stores name).symm⟩

/-- What resembles the same resembles. -/
theorem trans (h : s.Resembles mid) (h' : mid.Resembles other) : s.Resembles other :=
  ⟨h'.settings.trans h.settings, h'.transactionActive.trans h.transactionActive,
    h'.pending.trans h.pending, h'.entities.trans h.entities,
    fun name => (h.stores name).trans (h'.stores name)⟩

/-- Sessions that resemble know the same entities to be in memory. -/
theorem isAlive (h : s.Resembles other) (id : ObjectId) : other.isAlive id = s.isAlive id := by
  rw [Session.isAlive, entity?, h.entities]
  rfl

/-- Whatever is written down. -/
theorem record (h : s.Resembles other) (effects effects' : List (Effect E)) :
    (s.record effects).Resembles (other.record effects') :=
  ⟨h.settings, h.transactionActive, h.pending, h.entities, h.stores⟩

/-- Calling stores that leave what resembles. -/
theorem afterCalls (h : s.Resembles other) (name : StoreName) {store store' : Store E}
    (hstore : store.Resembles store') :
    (s.afterCalls name store).Resembles (other.afterCalls name store') := by
  refine ⟨h.settings, h.transactionActive, h.pending, h.entities, fun target => ?_⟩
  rw [store_afterCalls, store_afterCalls]
  split
  · exact hstore
  · exact h.stores target

/-- A call that leaves a store that resembles. -/
theorem of_afterCalls {name : StoreName} {store : Store E} (h : (s.store name).Resembles store) :
    s.Resembles (s.afterCalls name store) := by
  refine ⟨rfl, rfl, rfl, rfl, fun target => ?_⟩
  rw [store_afterCalls]
  split
  · next htarget =>
    rw [htarget]
    exact h
  · exact .refl _

/-- Marking a field. -/
theorem markDirty (h : s.Resembles other) (id : ObjectId) (field : FieldOrdinal) :
    (s.markDirty id field).Resembles (other.markDirty id field) := by
  apply record
  unfold updateEntity entity?
  rw [h.entities]
  cases s.entities.get? id with
  | none => exact h
  | some entity => exact ⟨h.settings, h.transactionActive, h.pending, rfl, h.stores⟩

end Resembles

/-- Calling a store. -/
theorem lockstep_access {action : StoreAction E α} (h : Store.Unrecorded action)
    (name : StoreName) : Lockstep Resembles Eq Eq (access name action) (access name action) := by
  intro s other hsessions
  have hend := h _ _ (hsessions.stores name)
  unfold access
  generalize action (s.store name) = result, action (other.store name) = result' at hend ⊢
  cases hend with
  | ok answers stores => exact .ok answers (hsessions.afterCalls name stores)
  | error failures stores => exact .error failures (hsessions.afterCalls name stores)

variable [DecidableEq E]

/-- Replaying an operation. -/
theorem lockstep_replay (default : Option StoreName) (operation : Operation E) :
    Lockstep Resembles Eq Eq (replay default operation) (replay default operation) := by
  unfold replay
  cases operation.store.or default with
  | none => exact .throw rfl
  | some name =>
    intro s other hsessions
    have hend := lockstep_access (Store.unrecorded_perform operation.kind operation.owner) name s
      other hsessions
    dsimp only
    unfold EStateM.adaptExcept
    generalize access name (operation.kind.perform operation.owner) s = result,
      access name (operation.kind.perform operation.owner) other = result' at hend ⊢
    cases hend with
    | ok answers sessions => exact .ok answers sessions
    | error failures sessions => exact .error (congrArg _ failures) sessions

/-- Flushing. -/
theorem lockstep_flush (default : Option StoreName) :
    Lockstep Resembles Eq Eq (flush (E := E) default) (flush default) := by
  have hall (operations : List (Operation E)) :
      Lockstep Resembles Eq Eq (replayAll default operations) (replayAll default operations) := by
    induction operations with
    | nil => exact .pure rfl
    | cons operation rest ih =>
      apply (lockstep_replay default operation).bind
      intro _ _ _
      refine Lockstep.bind (Lockstep.of_modify fun s other h => ?_) fun _ _ _ => ?_
      · exact ⟨h.settings, h.transactionActive, rfl, h.entities, h.stores⟩
      · apply ih.bind
        rintro n _ rfl
        exact .pure rfl
  intro s other hsessions
  change Agree _ _ _ (replayAll default s.pending s) (replayAll default other.pending other)
  rw [hsessions.pending]
  exact hall s.pending s other hsessions

/-- No waiting operation concerns the container of an owner in a store. -/
def NoneWaits (s : Session E) (name : StoreName) (owner : ObjectId) : Prop :=
  ∀ operation ∈ s.pending, operation.owner = owner →
    ∃ other, operation.store = some other ∧ other ≠ name

/-- A container that no waiting operation concerns stays as it is through a flush, and no waiting
operation concerns it then. -/
theorem keeps_flush_of_noneWaits (default : Option StoreName) (name : StoreName) (owner : ObjectId)
    (es : List E) :
    Keeps (fun s : Session E => s.NoneWaits name owner ∧ (s.store name).contents owner = es)
      (flush default) := by
  apply keeps_flush
  · intro s operation rest ⟨hnone, hcontents⟩ hpending
    rw [stateAfter_replay]
    split
    · exact ⟨hnone, hcontents⟩
    · next target htarget =>
      refine ⟨hnone, ?_⟩
      rw [store_afterCalls]
      split
      · next hname =>
        have hother : owner ≠ operation.owner := by
          rintro rfl
          obtain ⟨other, hstore, hne⟩ :=
            hnone operation (by rw [hpending]; exact List.mem_cons_self) rfl
          rw [hstore] at htarget
          cases htarget
          exact hne hname.symm
        rw [← hname]
        have hsize : Keeps (fun st : Store E => st.contents owner = es)
            (Store.size operation.owner) :=
          fun st h =>
            (congrFun (congrArg Store.View.contents (Store.looks_reading _ _ st)) owner).trans h
        exact (Store.survivesWrites_contents hother (fun _ => True) es).perform hsize
          (fun _ _ => trivial) _ hcontents
      · exact hcontents
  · intro s operation rest ⟨hnone, hcontents⟩ hpending
    exact ⟨fun operation hmem => hnone operation (by
      rw [hpending]; exact List.mem_cons_of_mem _ hmem), hcontents⟩

end Session

namespace Tracker

variable {E α : Type} {s other : Session E}

/-- Requests that reach no store, mark no field and let the same operations wait. -/
theorem resembles_of_unmarked {after after' : Session E} (h : s.Resembles other)
    (hsession : s.Unmarked after) (hsession' : other.Unmarked after')
    (hpending : after'.pending = after.pending) (hstores : after.stores = s.stores)
    (hstores' : after'.stores = other.stores) : after.Resembles after' where
  settings := hsession'.settings.trans (h.settings.trans hsession.settings.symm)
  transactionActive :=
    hsession'.transactionActive.trans (h.transactionActive.trans hsession.transactionActive.symm)
  pending := hpending
  entities := hsession'.entities.trans (h.entities.trans hsession.entities.symm)
  stores name := by
    rw [Session.store_of_stores_eq hstores, Session.store_of_stores_eq hstores']
    exact h.stores name

/-- Reports that let the same operations wait. -/
theorem resembles_announce [DecidableEq E] (h : s.Resembles other) (t : Tracker)
    {report report' : Report E} (hoperations : report.operations = report'.operations) :
    (t.announce report s).Resembles (t.announce report' other) := by
  refine resembles_of_unmarked h (t.unmarked_announce report s) (t.unmarked_announce report' other)
    ?_ (t.stores_announce s report) (t.stores_announce other report')
  rw [pending_announce, pending_announce, h.pending, hoperations]

/-- Marking the field of a container. -/
theorem resembles_markDirty (h : s.Resembles other) (t : Tracker) :
    (t.markDirty s).Resembles (t.markDirty other) := by
  unfold markDirty Owner.markDirty
  split
  · exact h
  · next o _ =>
    rw [h.isAlive]
    split
    · exact h.markDirty o.id o.field
    · exact h

/-- The end of a change. -/
theorem resembles_changed (h : s.Resembles other) (t : Tracker) :
    (t.changed s).Resembles (t.changed other) := by
  unfold changed Owner.changed
  split
  · exact h
  · next o _ =>
    have hmarked := h.markDirty o.id o.field
    rw [h.isAlive]
    dsimp only
    rw [hmarked.transactionActive]
    split
    · split
      · exact hmarked
      · exact hmarked.record _ _
    · exact h

/-- Taking in elements from outside the session. -/
theorem resembles_attach (h : s.Resembles other) (t : Tracker) (es : List E) :
    (t.attach es s).Resembles (t.attach es other) := by
  unfold attach
  split
  · exact h
  · exact h.record _ _

/-- Copying elements for use outside the session. -/
theorem resembles_detach [Element E] (h : s.Resembles other) (t : Tracker) (es : List E)
    (seen : Detachment) :
    (t.detach es seen other).1 = (t.detach es seen s).1 ∧
      (t.detach es seen s).2.Resembles (t.detach es seen other).2 := by
  unfold detach
  split
  · exact ⟨rfl, h⟩
  · exact ⟨rfl, h.record _ _⟩

/-- Calling the store of a container. -/
theorem resembles_call (h : s.Resembles other) (t : Tracker) (operation : String)
    {action : ObjectId → StoreAction E α} (haction : ∀ owner, Store.Unrecorded (action owner)) :
    (t.call operation action other).1 = (t.call operation action s).1 ∧
      (t.call operation action s).2.Resembles (t.call operation action other).2 := by
  unfold call
  split
  · exact ⟨rfl, h⟩
  · next name owner _ =>
    have hend := Session.lockstep_access (haction owner) name s other h
    generalize Session.access name (action owner) s = result,
      Session.access name (action owner) other = result' at hend ⊢
    cases hend with
    | ok answers sessions => exact ⟨by rw [answers], sessions⟩
    | error failures sessions => exact ⟨rfl, sessions.record _ _⟩

/-- A change that may be made in the store right away. -/
theorem resembles_forward (h : s.Resembles other) (t : Tracker) (operation : String)
    {action : ObjectId → StoreAction E α} (haction : ∀ owner, Store.Unrecorded (action owner)) :
    (t.forward operation action other).1 = (t.forward operation action s).1 ∧
      (t.forward operation action s).2.Resembles (t.forward operation action other).2 := by
  unfold forward
  split
  · exact resembles_call h t operation haction
  · exact ⟨rfl, h⟩
  · exact ⟨rfl, h⟩

/-- A call that only looks lets nothing wait and leaves what the stores show. -/
theorem call_of_looks {action : ObjectId → StoreAction E α}
    (haction : ∀ owner, Store.Looks (action owner)) (t : Tracker) (operation : String)
    (s : Session E) :
    (t.call operation action s).2.pending = s.pending ∧
      (t.call operation action s).2.views = s.views := by
  unfold call
  split
  · exact ⟨rfl, rfl⟩
  · next name owner _ =>
    have hview := haction owner (s.store name)
    cases hcall : action owner (s.store name) with
    | ok answer store =>
      rw [stateAfter_of_ok hcall] at hview
      rw [Session.access_ok hcall]
      exact ⟨rfl, (Session.OnlyCalled.afterCalls s name hview).views⟩
    | error e store =>
      rw [stateAfter_of_error hcall] at hview
      rw [Session.access_error hcall]
      exact ⟨rfl, (Session.OnlyCalled.afterCalls s name hview).views⟩

end Tracker

end TrackedFields
