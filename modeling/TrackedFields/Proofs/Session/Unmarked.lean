import TrackedFields.Tracker.Forward
import TrackedFields.Tracker.Report

/-!
# Requests without a mark

A session is asked for many things in the course of a change: to pass on changes of a relation, to
let operations wait, to delete and to copy elements, to call stores. None of them marks a field or
persists a change.
-/

namespace TrackedFields

namespace Session

variable {E : Type}

/-- Between two moments no field was marked and no change persisted, whatever else a session was
asked to do. -/
structure Unmarked (s after : Session E) : Prop where
  settings : after.settings = s.settings
  transactionActive : after.transactionActive = s.transactionActive
  /-- The dirty marks of all entities among them. -/
  entities : after.entities = s.entities
  journal : ∃ effects, after.journal = s.journal ++ effects ∧
    ∀ effect ∈ effects, effect ≠ .updated ∧ ∀ owner field, effect ≠ .dirtied owner field

namespace Unmarked

variable {s mid after : Session E}

/-- Nothing happened between a moment and itself. -/
theorem refl (s : Session E) : s.Unmarked s :=
  ⟨rfl, rfl, rfl, [], (List.append_nil _).symm, fun _ hmem => by cases hmem⟩

/-- Requests come one after the other. -/
theorem trans (h : s.Unmarked mid) (h' : mid.Unmarked after) : s.Unmarked after := by
  obtain ⟨effects, hjournal, hquiet⟩ := h.journal
  obtain ⟨effects', hjournal', hquiet'⟩ := h'.journal
  refine ⟨h'.settings.trans h.settings, h'.transactionActive.trans h.transactionActive,
    h'.entities.trans h.entities, effects ++ effects', ?_, ?_⟩
  · rw [hjournal', hjournal, List.append_assoc]
  · intro effect hmem
    rcases List.mem_append.mp hmem with hfirst | hsecond
    · exact hquiet effect hfirst
    · exact hquiet' effect hsecond

/-- Other effects than marks and updates. -/
theorem record (s : Session E) {effects : List (Effect E)} (h : ∀ effect ∈ effects,
    effect ≠ .updated ∧ ∀ owner field, effect ≠ .dirtied owner field) :
    s.Unmarked (s.record effects) :=
  ⟨rfl, rfl, rfl, effects, rfl, h⟩

/-- Changes of a relation. -/
theorem relate (s : Session E) (owner : ObjectId) (field : FieldOrdinal)
    (changes : List (RelationChange E)) : s.Unmarked (s.relate owner field changes) := by
  unfold Session.relate
  split
  · exact .record s (by simp)
  · exact .refl s

/-- Operations that join the queue. -/
theorem enqueueAll (s : Session E) (operations : List (Operation E)) :
    s.Unmarked (s.enqueueAll operations) := by
  unfold Session.enqueueAll
  induction operations generalizing s with
  | nil => exact .refl s
  | cons operation operations ih =>
    have hfirst : s.Unmarked (s.enqueue operation) := ⟨rfl, rfl, rfl, _, rfl, by simp⟩
    exact hfirst.trans (ih _)

/-- Calls of a store. -/
theorem afterCalls (s : Session E) (name : StoreName) (store : Store E) :
    s.Unmarked (s.afterCalls name store) := by
  refine ⟨rfl, rfl, rfl, _, rfl, ?_⟩
  intro effect hmem
  obtain ⟨call, -, rfl⟩ := List.mem_map.mp hmem
  simp

/-- Whoever was in memory is so still. -/
theorem isAlive_eq (h : s.Unmarked after) (id : ObjectId) : after.isAlive id = s.isAlive id := by
  unfold isAlive entity?
  rw [h.entities]

end Unmarked

end Session

namespace Tracker

variable {E : Type}

/-- Operations join the queue without a mark. -/
theorem unmarked_enqueue (t : Tracker) (kinds : List (OperationKind E)) (s : Session E) :
    s.Unmarked (t.enqueue kinds s) := by
  unfold enqueue
  split
  · exact .enqueueAll s _
  · exact .refl s

/-- A call of the store marks no field, whether the store fails or not. -/
theorem unmarked_call {α : Type} (t : Tracker) (operation : String)
    (action : ObjectId → StoreAction E α) (s : Session E) :
    s.Unmarked (t.call operation action s).2 := by
  unfold call
  split
  · exact .refl s
  · next name owner _ =>
    unfold Session.access
    cases action owner (s.store name) with
    | ok a store => exact .afterCalls s name store
    | error error store =>
      exact (Session.Unmarked.afterCalls s name store).trans (.record _ (by simp))

variable [DecidableEq E]

/-- A report marks no field. -/
theorem unmarked_announce (t : Tracker) (report : Report E) (s : Session E) :
    s.Unmarked (t.announce report s) := by
  have hrelate : s.Unmarked (t.relate report.relations s) := by
    unfold relate
    split
    · exact .refl s
    · exact .relate s _ _ _
  have hcascade (s : Session E) : s.Unmarked (t.cascade report.orphans s) := by
    unfold cascade
    split
    · split
      · exact .record s (by simp)
      · exact .refl s
    · exact .refl s
  exact (hrelate.trans (unmarked_enqueue t _ _)).trans (hcascade _)

end Tracker

end TrackedFields
