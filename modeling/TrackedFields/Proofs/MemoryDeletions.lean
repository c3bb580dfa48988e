import TrackedFields.Proofs.AttachDeletions
import TrackedFields.Proofs.TrackedList.Deletions
import TrackedFields.Proofs.TrackedQueue.Deletions
import TrackedFields.Proofs.TrackedSet.Mirrors

/-!
# What containers in memory delete

A container in memory looks after its dependent elements itself. Whatever way a call takes to find
its orphans, the session is asked to delete exactly what the container lost, each element once, or
nothing where a call does not cascade.
-/

namespace TrackedFields

variable {E : Type} [DecidableEq E]

namespace Tracked

variable {C : Type} {elements : C → List E} {allowed : Bool} {o : Owner}
  {scene after : Scene (Tracked C) E}

/-- A container of a field with dependent elements that lives in memory. -/
structure InMemory (o : Owner) (scene : Scene (Tracked C) E) : Prop where
  owner : scene.value.tracker.owner = some o
  dispatch : scene.value.tracker.dispatch = .memory
  dependent : o.descriptor.hasDependentElement = true

/-- A call requested the deletion, once each, of the elements that the container held before it and
does not hold after it, if the call may delete records, and of no others. -/
def DeletesLost (elements : C → List E) (allowed : Bool) (scene after : Scene (Tracked C) E) :
    Prop :=
  ∃ lost, after.session.deletions = scene.session.deletions ++ lost ∧ lost.Nodup ∧
    LostForGood allowed (elements scene.value.content) (elements after.value.content) lost

/-- A call that tells exactly what it loses. -/
theorem Told.deletesLost (h : Told elements allowed scene after) (hmemory : InMemory o scene) :
    DeletesLost elements allowed scene after :=
  h.deletions hmemory.owner hmemory.dispatch hmemory.dependent

omit [DecidableEq E] in
/-- A call that never deletes a record. -/
theorem DeletesLost.of_deletions_eq (h : after.session.deletions = scene.session.deletions) :
    DeletesLost elements false scene after := by
  refine ⟨[], ?_, .nil, .nil fun hallowed => by cases hallowed⟩
  rw [h, List.append_nil]

omit [DecidableEq E] in
/-- Nothing that keeps the tracker of a container takes it out of memory. -/
theorem InMemory.of_tracker_eq (h : InMemory o scene)
    (htracker : after.value.tracker = scene.value.tracker) : InMemory o after := by
  refine ⟨?_, ?_, h.dependent⟩
  · rw [htracker]
    exact h.owner
  · rw [htracker]
    exact h.dispatch

/-- What a container in memory deletes needs no flush. -/
theorem InMemory.loses (h : InMemory o scene)
    (htracker : after.value.tracker = scene.value.tracker)
    (hdeletes : DeletesLost elements allowed scene after) (default : Option StoreName) :
    Loses default elements allowed scene after := by
  obtain ⟨lost, hdeletions, -, hlost⟩ := hdeletes
  refine ⟨lost, ?_, hlost⟩
  unfold deletedOnceFlushed
  rw [htracker, h.dispatch]
  exact hdeletions

end Tracked

open Tracked (InMemory DeletesLost)

variable [Element E] {o : Owner}

/-- Every change of a list in memory. -/
theorem TrackedList.Mutator.deletesLost {scene : Scene (TrackedList E) E} (h : InMemory o scene)
    (m : TrackedList.Mutator E) : DeletesLost id m.cascades scene (stateAfter m.run scene) := by
  by_cases hm : ∃ target, m = .attachCopy target
  · obtain ⟨target, rfl⟩ := hm
    exact .of_deletions_eq (undisturbed_attachCopy target scene ⟨rfl, rfl⟩).2
  · exact ((m.faithful (not_exists.mp hm)).told scene).deletesLost h

/-- Every change of a set in memory. -/
theorem TrackedSet.Mutator.deletesLost {scene : Scene (TrackedSet E) E} (h : InMemory o scene)
    (m : TrackedSet.Mutator E) :
    DeletesLost ElementSet.toList m.cascades scene (stateAfter m.run scene) := by
  by_cases hm : ∃ target, m = .attachCopy target
  · obtain ⟨target, rfl⟩ := hm
    exact .of_deletions_eq (harmless_attachCopy target scene (.refl _)).spares.deletions
  · exact ((m.mirrored (not_exists.mp hm)).faithful.told scene).deletesLost h

/-- Every request to a queue in memory. -/
theorem QueueRequest.deletesLost {α : Type} {scene : Scene (TrackedQueue E) E}
    (h : InMemory o scene) (request : QueueRequest E α) :
    DeletesLost QueueContent.elements request.cascades scene (stateAfter request.run scene) := by
  have hchannel : scene.value.tracker.channel = none := by rw [Tracker.channel, h.dispatch]
  have hapart : TrackedQueue.Apart scene.value := by
    constructor
    · rw [TrackedQueue.isAuthoritative, TrackedQueue.hasStore, hchannel]
      rfl
    · intro name hname
      rw [h.dispatch] at hname
      cases hname
  cases request with
  | attachCopy target =>
    exact .of_deletions_eq
      (TrackedQueue.harmless_attachCopy target scene (.refl _)).spares.deletions
  | _ => exact (QueueRequest.told hapart _ rfl).deletesLost h

/-- Deletion in memory is exact. Let a list, a set or a queue of a field with dependent elements
live in memory. Every change of it, refused or not, requests the deletion of exactly the elements
that it held before and holds at no position afterwards, each once, if the change may delete
records, and requests no other deletion. -/
theorem memory_deletions_exact (o : Owner) :
    (∀ (scene : Scene (TrackedList E) E) (m : TrackedList.Mutator E), InMemory o scene →
      DeletesLost id m.cascades scene (stateAfter m.run scene)) ∧
    (∀ (scene : Scene (TrackedSet E) E) (m : TrackedSet.Mutator E), InMemory o scene →
      DeletesLost ElementSet.toList m.cascades scene (stateAfter m.run scene)) ∧
    ∀ (scene : Scene (TrackedQueue E) E) (α : Type) (request : QueueRequest E α),
      InMemory o scene →
      DeletesLost QueueContent.elements request.cascades scene (stateAfter request.run scene) :=
  ⟨fun _ m h => m.deletesLost h, fun _ m h => m.deletesLost h,
    fun _ _ request h => request.deletesLost h⟩

/-- Of two copies of an element, a replacement takes one and deletes nothing; removing what is left
by value deletes the element once. A set and a queue lose a member each. -/
theorem memory_deletions_exact_of_duplicates :
    let o : Owner := {
      id := .ofNat 7
      descriptor := {
        name := "books"
        ordinal := ⟨3⟩
        contents := some (.ofElement {
          typeName := "Book", hasIdentity := true, dependent := true }) } }
    let tracker : Tracker := .unbacked o {}
    let l : Scene (TrackedList Int32) Int32 := ⟨⟨tracker, [1, 2, 1]⟩, {}⟩
    let replaced := stateAfter (TrackedList.Mutator.run (.set 0 2)) l
    let removed := stateAfter (TrackedList.Mutator.run (.removeAll [1, 2])) replaced
    let c : Scene (TrackedSet Int32) Int32 := ⟨⟨tracker, .ofList [1, 2]⟩, {}⟩
    let q : Scene (TrackedQueue Int32) Int32 := ⟨⟨tracker, {
      order := fun a b => compare a.toInt b.toInt
      useCache := true
      lazily := false
      elements := [1, 1, 2] }⟩, {}⟩
    InMemory o l ∧ InMemory o replaced ∧ InMemory o c ∧ InMemory o q ∧
      replaced.session.deletions = [] ∧ removed.session.deletions = [2, 1] ∧
      DeletesLost id true replaced removed ∧
      DeletesLost ElementSet.toList false c
        (stateAfter (TrackedSet.Mutator.run (.removeWith 1 false)) c) ∧
      DeletesLost QueueContent.elements true q
        (stateAfter (QueueRequest.run .poll) q) := by
  intro o tracker l replaced removed c q
  have hl : InMemory o l := ⟨rfl, rfl, rfl⟩
  have hreplaced : InMemory o replaced := ⟨rfl, rfl, rfl⟩
  have hc : InMemory o c := ⟨rfl, rfl, rfl⟩
  have hq : InMemory o q := ⟨rfl, rfl, rfl⟩
  obtain ⟨hlist, hset, hqueue⟩ := memory_deletions_exact (E := Int32) o
  exact ⟨hl, hreplaced, hc, hq, by decide, by decide, hlist replaced (.removeAll [1, 2]) hreplaced,
    hset c (.removeWith 1 false) hc, hqueue q _ .poll hq⟩

end TrackedFields
