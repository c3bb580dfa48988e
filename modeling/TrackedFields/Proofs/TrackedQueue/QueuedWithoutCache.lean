import Mathlib
import TrackedFields.Proofs.Session.DueDeletions
import TrackedFields.Proofs.TrackedQueue.LockstepWithoutStore
import TrackedFields.Proofs.TrackedQueue.Uncached
import TrackedFields.Proofs.TrackedQueue.WriteThrough

/-!
# What a queue without a cache queues

A priority queue that queues its changes and does not keep its content in memory guesses from what
the store held at the last flush, and from the elements that it remembers itself, what the store is
going to hold. It queues the removal of every copy that is stored or remembered, and remembers what
it adds.
-/

namespace TrackedFields.TrackedQueue

variable {E α : Type}

/-- What a shadowing queue did: it queued more operations, and remembers the given elements, in some
order. -/
structure Queues (o : Owner) (name : StoreName) (before : Session E)
    (kinds more : List (OperationKind E)) (remembered : List E)
    (scene after : Scene (TrackedQueue E) E) : Prop where
  shadowing : Shadowing o name before (kinds ++ more) after
  tracker : after.value.tracker = scene.value.tracker
  elements : after.value.content.elements.Perm remembered

section Queuing

variable {o : Owner} {name : StoreName} {before : Session E} {kinds : List (OperationKind E)}
  {scene : Scene (TrackedQueue E) E}

/-- A shadowing queue that only looked at its store queues nothing. -/
theorem Shadowing.queues_nothing {s : Session E}
    (h : Shadowing o name before kinds { scene with session := s }) :
    Queues o name before kinds [] scene.value.content.elements scene
      { scene with session := s } := by
  refine ⟨?_, rfl, .refl _⟩
  rw [List.append_nil]
  exact h

variable [DecidableEq E]

/-- A shadowing queue that looked at its store and then reports a change queues its operations. -/
theorem Shadowing.queues_reported {t : Tracker} {content : QueueContent E} {s looked : Session E}
    (h : Shadowing o name before kinds ⟨⟨t, content⟩, looked⟩) {es remembered : List E}
    {loaded : Bool} {report : Report E} {more : List (OperationKind E)}
    (hmore : report.operations = more) (hes : es.Perm remembered) :
    Queues o name before kinds more remembered ⟨⟨t, content⟩, s⟩
      ⟨⟨t, { content with elements := es, loaded }⟩, t.changed (t.announce report looked)⟩ := by
  have hcontent : Shadowing o name before kinds
      ⟨⟨t, { content with elements := es, loaded }⟩, looked⟩ := h.setContent h.useCache
  rw [← hmore]
  exact ⟨hcontent.queue (t.pending_reported looked report) (t.stores_reported looked report), rfl,
    hes⟩

variable (h : Shadowing o name before kinds scene)

include h

/-- A shadowing queue that reads its store sees what the store held before anything was queued. -/
theorem Shadowing.exists_read (action : ObjectId → StoreAction E α) {answer : α}
    (hsilent : Silent (action o.id))
    (haction : (scene.session.store name).Carries o.id (action o.id) answer [])
    (fromMemory : QueueContent E → α) :
    ∃ s, readEither true action fromMemory scene = .ok answer { scene with session := s } ∧
      Shadowing o name before kinds { scene with session := s } := by
  obtain ⟨store, hcall, -, -⟩ := haction
  have hread := read_of_ok hcall
  refine ⟨scene.session.afterCalls name store, ?_, ?_⟩
  · rw [readEither_of_channel h.channel, if_pos rfl, hread]
  · have hafter : Shadowing o name before kinds
        (stateAfter (TrackedQueue.read name (action o.id)) scene) := h.read hsilent
    rwa [stateAfter_of_ok hread] at hafter

/-- Removing all elements queues that, and nothing is remembered. -/
theorem Shadowing.clear :
    Queues o name before kinds [.collectionClear] [] scene
      (stateAfter TrackedQueue.clear scene) := by
  obtain ⟨⟨t, content⟩, s⟩ := scene
  have hdispatch : t.dispatch = .queued (some name) := h.dispatch
  let content' : QueueContent E := { content with
    elements := []
    loaded := content.loaded || content.useCache }
  have hrun : TrackedQueue.clear ⟨⟨t, content⟩, s⟩ =
      .ok () ⟨⟨t, content'⟩, t.changed (t.announce (.cleared content.elements) s)⟩ := by
    change (discard (forward "clear" Store.clear) >>= fun _ => changed)
      (⟨⟨t, content'⟩, t.announce (.cleared content.elements) s⟩ : Scene _ E) = _
    rw [bind_apply, discard_apply, forward_queued hdispatch]
    rfl
  rw [stateAfter_of_ok hrun]
  exact h.queues_reported rfl .nil

/-- Adding elements without a check queues their additions, and they are remembered. -/
theorem Shadowing.addUnchecked [Element E] (operation : String)
    (store : ObjectId → Option Nat → StoreAction E Bool) (new : List E) :
    Queues o name before kinds (new.map .collectionAdd) (scene.value.content.elements ++ new) scene
      (stateAfter (TrackedQueue.addUnchecked operation store new) scene) := by
  obtain ⟨⟨t, content⟩, s⟩ := scene
  have hdispatch : t.dispatch = .queued (some name) := h.dispatch
  unfold TrackedQueue.addUnchecked
  simp only [stateAfter, bind_apply, h.ensureLoaded_eq, current_apply, forward_queued hdispatch,
    setElements_apply, announce_apply, changed_apply, pure_apply]
  exact h.queues_reported rfl (content.order.insertAll_perm content.elements new)

variable (hreliable : (before.store name).Reliable)

include hreliable

/-- The elements that are read are those that the store held. -/
theorem Shadowing.read_elements (fromMemory : QueueContent E → List E) :
    ∃ s, readEither true Store.elements fromMemory scene =
        .ok ((before.store name).contents o.id) { scene with session := s } ∧
      Shadowing o name before kinds { scene with session := s } := by
  rw [← h.meets.2.1]
  exact h.exists_read Store.elements (silent_elements o.id)
    (Store.carries_elements (h.continues.reliable hreliable) o.id) fromMemory

/-- An element is looked for among those that the store held. -/
theorem Shadowing.read_contains (e : E) :
    ∃ s, contains e scene =
        .ok (((before.store name).contents o.id).contains e) { scene with session := s } ∧
      Shadowing o name before kinds { scene with session := s } := by
  obtain ⟨s, hread, hlooked⟩ := h.exists_read (Store.contains · e)
    (silent_reading (.contains e) _)
    (Store.carries_reading (h.continues.reliable hreliable) o.id (.contains e)
      fun st => (st.contents o.id).contains e) fun content => content.elements.contains e
  refine ⟨s, ?_, hlooked⟩
  unfold contains
  rw [bind_apply, current_apply]
  dsimp only
  rw [h.isAuthoritative, ← h.meets.2.1]
  exact hread

/-- Removing an element by value queues its removal if it is stored or remembered. -/
theorem Shadowing.removeWith (e : E) (cascade : Bool) :
    Queues o name before kinds
      ((if e ∈ (before.store name).contents o.id ++ scene.value.content.elements then [e]
        else []).map (.collectionRemove · cascade))
      (scene.value.content.elements.erase e) scene
      (stateAfter (TrackedQueue.removeWith e cascade) scene) := by
  have hpart := h.isAuthoritative
  have hqueued := h.isQueued
  obtain ⟨s', hcontains, hlooked⟩ := h.read_contains hreliable e
  obtain ⟨⟨t, content⟩, s⟩ := scene
  have hdispatch : t.dispatch = .queued (some name) := h.dispatch
  unfold TrackedQueue.removeWith
  simp only [stateAfter, bind_apply, h.ensureLoaded_eq, current_apply, hpart, hqueued,
    Bool.not_true, Bool.or_false]
  by_cases hmem : content.elements.contains e = true
  · have hpresent : e ∈ (before.store name).contents o.id ++ content.elements :=
      List.mem_append_right _ (List.contains_iff_mem.mp hmem)
    simp only [hmem, if_true, bind_apply, pure_apply, setElements_apply, forward_queued hdispatch,
      announce_apply, changed_apply]
    rw [if_pos hpresent]
    exact h.queues_reported rfl (.refl _)
  · have hoperations : (if e ∈ (before.store name).contents o.id ++ content.elements then [e]
        else []).map (OperationKind.collectionRemove · cascade) =
          if ((before.store name).contents o.id).contains e = true then
            [OperationKind.collectionRemove e cascade]
          else [] := by
      rw [List.contains_iff_mem] at hmem
      simp only [List.mem_append, hmem, or_false, List.contains_iff_mem]
      split <;> rfl
    simp only [if_neg hmem, bind_apply, hcontains, pure_apply, setElements_apply,
      forward_queued hdispatch, announce_apply, changed_apply]
    rw [hoperations]
    exact hlooked.queues_reported rfl (.refl _)

/-- Removing listed elements queues the removal of all their copies, stored or remembered. -/
theorem Shadowing.removeListed (doomed : List E) :
    Queues o name before kinds
      ((((before.store name).contents o.id ++ scene.value.content.elements).filter
        doomed.contains).map (.collectionRemove · true))
      (scene.value.content.elements.filter fun e => !doomed.contains e) scene
      (stateAfter (TrackedQueue.removeListed doomed) scene) := by
  obtain ⟨⟨t, content⟩, s⟩ := scene
  have hpart := h.isAuthoritative
  have hdispatch : t.dispatch = .queued (some name) := h.dispatch
  obtain ⟨s', hread, hlooked⟩ := h.read_elements hreliable fun _ => []
  unfold TrackedQueue.removeListed
  simp only [stateAfter, bind_apply, h.ensureLoaded_eq, current_apply, hpart,
    Bool.false_eq_true, if_false, hread, setElements_apply, hdispatch, announce_apply,
    forward_queued hdispatch, changed_apply, pure_apply]
  rw [List.filter_append]
  exact hlooked.queues_reported rfl (.refl _)

/-- Keeping listed elements queues the removal of all copies of the others, stored or remembered. -/
theorem Shadowing.retainAll (keep : List E) :
    Queues o name before kinds
      ((((before.store name).contents o.id ++ scene.value.content.elements).filter fun e =>
        !keep.contains e).map (.collectionRemove · true))
      (scene.value.content.elements.filter keep.contains) scene
      (stateAfter (TrackedQueue.retainAll keep) scene) := by
  obtain ⟨⟨t, content⟩, s⟩ := scene
  have hqueued := h.isQueued
  have hpart := h.isAuthoritative
  obtain ⟨s', hread, hlooked⟩ := h.read_elements hreliable QueueContent.elements
  have hremoved := hlooked.removeListed hreliable
    (((before.store name).contents o.id ++ content.elements).filter fun e => !keep.contains e)
  generalize (before.store name).contents o.id = stored at hread hremoved ⊢
  have hlist : toList ⟨⟨t, content⟩, s⟩ = .ok stored ⟨⟨t, content⟩, s'⟩ :=
    (toList_uncached h.useCache).trans hread
  unfold TrackedQueue.retainAll
  simp only [stateAfter, bind_apply, hlist, current_apply, hqueued, hpart, Bool.not_false,
    Bool.and_true, if_true]
  by_cases hempty : ((stored ++ content.elements).filter fun e => !keep.contains e).isEmpty = true
  · have hdropped := List.isEmpty_iff.mp hempty
    have hkept : content.elements.filter keep.contains = content.elements := by
      rw [List.filter_eq_self]
      intro e he
      have hin := List.filter_eq_nil_iff.mp hdropped e (List.mem_append_right stored he)
      simpa using hin
    rw [if_pos hempty, hdropped, hkept]
    exact hlooked.queues_nothing
  · have hcopies := filter_contains_filter (stored ++ content.elements) fun e => !keep.contains e
    have hkept : content.elements.filter (fun e =>
        !((stored ++ content.elements).filter fun e => !keep.contains e).contains e) =
          content.elements.filter keep.contains := by
      apply List.filter_congr
      intro e he
      rw [contains_filter_of_mem _ (List.mem_append_right stored he), Bool.not_not]
    rw [hcopies, hkept] at hremoved
    rw [if_neg hempty]
    exact ⟨hremoved.shadowing, hremoved.tracker, hremoved.elements⟩

end Queuing

end TrackedFields.TrackedQueue
