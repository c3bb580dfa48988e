import TrackedFields.Proofs.Tracked.InSync
import TrackedFields.Proofs.TrackedList.Attach
import TrackedFields.Proofs.TrackedList.Repeats

/-!
# Queued lists converge

A tracked list that queues its changes stays in sync with an unordered store under every change,
accepted or refused: each plan reports operations that repeat its change. A flush then makes the
store hold what the list holds, position by position, after any run of changes and flushes.
-/

namespace TrackedFields.TrackedList

open Store (Rules)

variable {E : Type} [DecidableEq E]

section Mutators

variable {o : Owner} {name : StoreName} {stores : Table StoreName (Store E)}

/-- A plan for a list repeats its changes: the operations that it reports make the same of an
unordered container with the same elements. -/
def Repeats {α : Type} (plan : Tracker → List E → Except Failure (Change (List E) E α)) : Prop :=
  ∀ rules : Rules E, rules.order = none → ∀ tracker es answer next report,
    plan tracker es = .ok (.made answer next report) →
    OperationKind.carryOutAll rules es report.operations = some next

/-- A plan that repeats its changes keeps a list in sync with an unordered store. -/
theorem keeps_mutate {α : Type} (horder : (stores.getD name {}).order = none)
    {plan : Tracker → List E → Except Failure (Change (List E) E α)} (hplan : Repeats plan) :
    Keeps (InSync id o none name stores) (Tracked.mutate plan) := by
  intro scene h
  exact h.mutate (hplan _ horder _ _)

variable (horder : (stores.getD name {}).order = none)
include horder

/-- Removing by value keeps a list in sync. -/
theorem keeps_removeWith (e : E) (cascade : Bool) :
    Keeps (InSync id o none name stores) (removeWith e cascade) := by
  apply keeps_mutate horder
  intro rules h tracker es answer next report hplan
  obtain ⟨-, rfl, rfl⟩ := made_of_removeWith hplan
  exact OperationKind.carryOutAll_removed (Rules.fits_of_none h es) [e] cascade

/-- Removing by position keeps a list in sync. -/
theorem keeps_removeAtWith (index : Nat) (cascade : Bool) :
    Keeps (InSync id o none name stores) (removeAtWith (E := E) index cascade) := by
  apply keeps_mutate horder
  intro rules h tracker es answer next report hplan
  obtain ⟨he, rfl, rfl⟩ := made_of_removeAt hplan
  have hchange : (OperationKind.listRemoveAt index).change es =
      some (es.eraseIdx index, [answer]) := by
    rw [OperationKind.change, he, Option.map_some]
  exact OperationKind.carryOutAll_change h hchange []

/-- Removing what satisfies a condition keeps a list in sync. -/
theorem keeps_removeWhere (doomed : E → Bool) :
    Keeps (InSync id o none name stores) (removeWhere doomed) := by
  apply keeps_mutate horder
  intro rules h tracker es answer next report hplan
  obtain ⟨rfl, rfl⟩ := made_of_removeWhere hplan
  rw [← OperationKind.foldl_erase_filter]
  exact OperationKind.carryOutAll_removed (Rules.fits_of_none h es) (es.filter doomed) true

/-- Removing everything keeps a list in sync. -/
theorem keeps_clear : Keeps (InSync id o none name stores) (clear (E := E)) := by
  apply keeps_mutate horder
  intro rules h tracker es answer next report hplan
  cases hplan
  cases es with
  | nil => rfl
  | cons e es => exact OperationKind.carryOutAll_change h rfl []

/-- A rearrangement that keeps the length keeps a list in sync. -/
theorem keeps_reorder {arrange : List E → List E}
    (hlength : ∀ es, (arrange es).length = es.length) :
    Keeps (InSync id o none name stores) (reorder arrange) := by
  apply keeps_mutate horder
  intro rules h tracker es answer next report hplan
  obtain ⟨rfl, rfl⟩ := made_of_reorder hplan
  exact OperationKind.carryOutAll_moves h (hlength es)

variable [Element E]

/-- Appending keeps a list in sync. -/
theorem keeps_add (e : E) : Keeps (InSync id o none name stores) (add e) := by
  apply keeps_mutate horder
  intro rules h tracker es answer next report hplan
  obtain ⟨-, rfl, rfl⟩ := made_of_add hplan
  exact OperationKind.carryOutAll_added h es [e]

/-- Appending several elements keeps a list in sync. -/
theorem keeps_addAll (new : List E) : Keeps (InSync id o none name stores) (addAll new) := by
  apply keeps_mutate horder
  intro rules h tracker es answer next report hplan
  obtain ⟨-, rfl, rfl⟩ := made_of_addAll hplan
  exact OperationKind.carryOutAll_added h es new

/-- Inserting keeps a list in sync. -/
theorem keeps_insert (index : Nat) (e : E) :
    Keeps (InSync id o none name stores) (insert index e) := by
  apply keeps_mutate horder
  intro rules h tracker es answer next report hplan
  obtain ⟨hindex, -, rfl, rfl⟩ := made_of_insert hplan
  have hchange : (OperationKind.listAddAt (index + 0) e).change es =
      some (es.insertIdx index e, []) := by
    rw [OperationKind.change, Nat.add_zero, if_neg (Nat.not_lt.mpr hindex)]
  exact OperationKind.carryOutAll_change h hchange []

/-- Inserting several elements keeps a list in sync. -/
theorem keeps_insertAll (index : Nat) (new : List E) :
    Keeps (InSync id o none name stores) (insertAll index new) := by
  apply keeps_mutate horder
  intro rules h tracker es answer next report hplan
  obtain ⟨hindex, -, rfl, rfl⟩ := made_of_insertAll hplan
  exact OperationKind.carryOutAll_arrival h hindex new

/-- Replacing keeps a list in sync. -/
theorem keeps_setWith (index : Nat) (e : E) (cascade : Bool) :
    Keeps (InSync id o none name stores) (setWith index e cascade) := by
  apply keeps_mutate horder
  intro rules h tracker es answer next report hplan
  obtain ⟨hanswer, -, rfl, rfl⟩ := made_of_setWith hplan
  have hchange : (OperationKind.listSet index e cascade).change es =
      some (es.set index e, if cascade then [answer] else []) := by
    rw [OperationKind.change, hanswer, Option.map_some]
  exact OperationKind.carryOutAll_change h hchange []

/-- Taking over a list keeps it in sync. -/
theorem keeps_attachCopy (target : List E) :
    Keeps (InSync id o none name stores) (attachCopy target) :=
  attachCopy_keeps (InSync.attach target) (fun index => keeps_removeAtWith horder index false)
    (keeps_insert horder) fun _ hlength => keeps_reorder horder hlength

end Mutators

/-- The changes that a list offers. -/
inductive Mutator (E : Type) where
  | add (e : E)
  | addAll (new : List E)
  | insert (index : Nat) (e : E)
  | insertAll (index : Nat) (new : List E)
  | remove (e : E)
  | removeWith (e : E) (cascade : Bool)
  | removeAt (index : Nat)
  | set (index : Nat) (e : E)
  | setWith (index : Nat) (e : E) (cascade : Bool)
  | removeAll (es : List E)
  | retainAll (keep : List E)
  | clear
  | sortBy (cmp : Comparator E)
  | attachCopy (target : List E)

variable [Element E]

/-- Make a change, ignoring its answer. -/
def Mutator.run : Mutator E → Action E Unit
  | add e => discard (TrackedList.add e)
  | addAll new => discard (TrackedList.addAll new)
  | insert index e => TrackedList.insert index e
  | insertAll index new => discard (TrackedList.insertAll index new)
  | remove e => discard (TrackedList.remove e)
  | removeWith e cascade => discard (TrackedList.removeWith e cascade)
  | removeAt index => discard (TrackedList.removeAt index)
  | set index e => discard (TrackedList.set index e)
  | setWith index e cascade => discard (TrackedList.setWith index e cascade)
  | removeAll es => discard (TrackedList.removeAll es)
  | retainAll keep => discard (TrackedList.retainAll keep)
  | clear => TrackedList.clear
  | sortBy cmp => TrackedList.sortBy cmp
  | attachCopy target => TrackedList.attachCopy target

/-- Every change keeps a list in sync with an unordered store. -/
theorem Mutator.keeps {o : Owner} {name : StoreName} {stores : Table StoreName (Store E)}
    (horder : (stores.getD name {}).order = none) (m : Mutator E) :
    Keeps (InSync id o none name stores) m.run := by
  cases m with
  | add e => exact (keeps_add horder e).discard
  | addAll new => exact (keeps_addAll horder new).discard
  | insert index e => exact keeps_insert horder index e
  | insertAll index new => exact (keeps_insertAll horder index new).discard
  | remove e => exact (keeps_removeWith horder e true).discard
  | removeWith e cascade => exact (keeps_removeWith horder e cascade).discard
  | removeAt index => exact (keeps_removeAtWith horder index true).discard
  | set index e => exact (keeps_setWith horder index e true).discard
  | setWith index e cascade => exact (keeps_setWith horder index e cascade).discard
  | removeAll es => exact (keeps_removeWhere horder es.contains).discard
  | retainAll keep => exact (keeps_removeWhere horder fun e => !keep.contains e).discard
  | clear => exact keeps_clear horder
  | sortBy cmp => exact keeps_reorder horder cmp.length_sort
  | attachCopy target => exact keeps_attachCopy horder target

/-- What can happen to a list and the session around it: a change of the list, or a flush of the
session. -/
inductive Call (E : Type) where
  | change (m : Mutator E)
  | flush

/-- The scene that a call leaves; a flush has the named store as default. -/
def Call.run (name : StoreName) (scene : Scene (TrackedList E) E) :
    Call E → Scene (TrackedList E) E
  | change m => stateAfter m.run scene
  | flush => { scene with session := stateAfter (Session.flush (some name)) scene.session }

/-- A list of a field that queues its changes for an unordered reliable store which holds what the
list holds, while nothing waits. -/
structure Settled (o : Owner) (name : StoreName) (scene : Scene (TrackedList E) E) : Prop where
  owner : scene.value.tracker.owner = some o
  dispatch : scene.value.tracker.dispatch = .queued none
  order : (scene.session.store name).order = none
  reliable : (scene.session.store name).Reliable
  pending : scene.session.pending = []
  contents : (scene.session.store name).contents o.id = scene.value.content

/-- A list that queues its changes for an unordered store is in sync with it. -/
private def Queues (o : Owner) (name : StoreName) (scene : Scene (TrackedList E) E) : Prop :=
  (scene.session.store name).order = none ∧
    InSync id o none name scene.session.stores scene

omit [Element E] in
private theorem Settled.queues {o : Owner} {name : StoreName} {scene : Scene (TrackedList E) E}
    (h : Settled o name scene) : Queues o name scene := by
  have hin : (scene.session.views name).InOrder (scene.session.rules name) :=
    Store.View.inOrder_of_none _ h.order
  exact ⟨h.order, h.owner, h.dispatch, rfl,
    Session.behind_of_contents hin h.reliable h.pending h.contents⟩

/-- A change leaves all stores alone. -/
private theorem Queues.change {o : Owner} {name : StoreName} {scene : Scene (TrackedList E) E}
    (h : Queues o name scene) (m : Mutator E) :
    Queues o name (stateAfter m.run scene) ∧
      (stateAfter m.run scene).session.stores = scene.session.stores := by
  obtain ⟨horder, hsync⟩ := h
  have hafter := m.keeps horder scene hsync
  have hstores := hafter.stores_eq
  refine ⟨⟨?_, ?_⟩, hstores⟩
  · rw [Session.store_of_stores_eq hstores]
    exact horder
  · rw [hstores]
    exact hafter

omit [Element E] in
/-- A flush empties the queue and makes the store hold what the list holds. -/
private theorem Queues.flush {o : Owner} {name : StoreName} {scene : Scene (TrackedList E) E}
    (h : Queues o name scene) :
    ∃ after, Session.flush (some name) scene.session = .ok scene.session.pending.length after ∧
      after.pending = [] ∧ (after.store name).contents o.id = scene.value.content ∧
      Queues o name { scene with session := after } := by
  obtain ⟨horder, hsync⟩ := h
  obtain ⟨after, hflush, hnil, hcontents, hcontinues, hbehind⟩ :=
    hsync.behind.flush rfl
  have horder' : (after.store name).order = none :=
    (congrArg Store.Rules.order (hcontinues name).rules).trans horder
  exact ⟨after, hflush, hnil, hcontents, horder', hsync.owner, hsync.dispatch, rfl, hbehind⟩

/-- A list stays in sync through all calls. -/
private theorem queues_run {o : Owner} {name : StoreName} (calls : List (Call E))
    {scene : Scene (TrackedList E) E} (h : Queues o name scene) :
    Queues o name (calls.foldl (Call.run name) scene) := by
  induction calls generalizing scene with
  | nil => exact h
  | cons call calls ih =>
    cases call with
    | change m => exact ih (h.change m).1
    | flush =>
      obtain ⟨after, hflush, -, -, hqueues⟩ := h.flush
      apply ih
      rw [Call.run, stateAfter_of_ok hflush]
      exact hqueues

/-- A list that queues its changes converges with its store. After any run of changes and flushes,
a further change leaves all stores alone, and a further flush carries out whatever waits, empties
the queue and makes the store hold what the list holds. -/
theorem queued_list_converges (o : Owner) (name : StoreName) (start : Scene (TrackedList E) E)
    (hstart : Settled o name start) (calls : List (Call E)) :
    let scene := calls.foldl (Call.run name) start
    (∀ m : Mutator E, (stateAfter m.run scene).session.stores = scene.session.stores) ∧
      ∃ after, Session.flush (some name) scene.session = .ok scene.session.pending.length after ∧
        after.pending = [] ∧ (after.store name).contents o.id = scene.value.content := by
  intro scene
  have hqueues : Queues o name scene := queues_run calls hstart.queues
  obtain ⟨after, hflush, hnil, hcontents, -⟩ := hqueues.flush
  exact ⟨fun m => (hqueues.change m).2, after, hflush, hnil, hcontents⟩

/-- A list takes over another one after a flush; what waits then are three operations. -/
theorem queued_list_converges_after_attach :
    let o : Owner := { id := .ofNat 7, descriptor := { name := "books", ordinal := ⟨3⟩ } }
    let start : Scene (TrackedList Int32) Int32 := {
      value := { tracker := .unbacked o .queued, content := [1, 2] }
      session := { stores := Table.empty.set "books" (Store.seed {} o.id [1, 2]) } }
    let calls : List (Call Int32) :=
      [.change (.add 1), .change (.removeAt 5), .flush, .change (.attachCopy [1, 3])]
    let scene := calls.foldl (Call.run "books") start
    Settled o "books" start ∧ scene.value.content = [1, 3] ∧
      scene.session.pending.length = 3 ∧
      (∀ m : Mutator Int32, (stateAfter m.run scene).session.stores = scene.session.stores) ∧
      ∃ after, Session.flush (some "books") scene.session = .ok scene.session.pending.length after ∧
        after.pending = [] ∧ (after.store "books").contents o.id = scene.value.content := by
  intro o start calls scene
  have hstart : Settled o "books" start := ⟨rfl, rfl, rfl, ⟨rfl, rfl⟩, rfl, rfl⟩
  have hscene : scene = calls.foldl (Call.run "books") start := rfl
  have hcontent : scene.value.content = [1, 3] := by decide
  have hlength : scene.session.pending.length = 3 := by decide
  refine ⟨hstart, hcontent, hlength, ?_⟩
  rw [hscene]
  exact queued_list_converges o "books" start hstart calls

end TrackedFields.TrackedList
