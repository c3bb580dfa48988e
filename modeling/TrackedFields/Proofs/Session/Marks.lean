import TrackedFields.Proofs.Session.Heard
import TrackedFields.Proofs.Session.Unmarked

/-!
# Marks of a field

How often a field is marked between two moments. Of all requests, the end of a change and the mark
itself mark the field, once each; everything else leaves the marks alone, whatever becomes of it.
-/

namespace TrackedFields

namespace Session

variable {E : Type} {o : Owner} {n m : Nat} {s mid after : Session E}

/-- Between two moments, the owner stayed in memory or out of it, and in memory its field was marked
that often. -/
structure Marks (o : Owner) (n : Nat) (s after : Session E) : Prop where
  alive : after.isAlive o.id = s.isAlive o.id
  marks : after.marksOf o.id =
    s.marksOf o.id ++ if s.isAlive o.id then List.replicate n o.field else []

/-- What marks no field is no mark of an owner. -/
theorem Marks.of_unmarked (o : Owner) (h : s.Unmarked after) : Marks o 0 s after := by
  refine ⟨h.isAlive_eq o.id, ?_⟩
  unfold marksOf entity?
  rw [h.entities, List.replicate_zero, ite_self, List.append_nil]

/-- No mark is made between a moment and itself. -/
theorem Marks.refl (o : Owner) (s : Session E) : Marks o 0 s s := .of_unmarked o (.refl s)

/-- Marks come one after the other. -/
theorem Marks.trans (h : Marks o n s mid) (h' : Marks o m mid after) :
    Marks o (n + m) s after := by
  refine ⟨h'.alive.trans h.alive, ?_⟩
  rw [h'.marks, h.marks, h.alive, List.append_assoc, ← List.replicate_append_replicate]
  split <;> rfl

end Session

namespace Tracker

open Session (Marks)

variable {E : Type} {t : Tracker} {o : Owner}

/-- The end of a change marks the field. -/
theorem marks_changed (howner : t.owner = some o) (s : Session E) :
    Marks o 1 s (t.changed s) :=
  ⟨congrArg Hearing.alive (hearing_changed s t o.id),
    congrArg News.marks (t.heard_changed s howner)⟩

/-- Marking the field. -/
theorem marks_markDirty (howner : t.owner = some o) (s : Session E) :
    Marks o 1 s (t.markDirty s) := by
  rw [markDirty, howner]
  dsimp only
  unfold Owner.markDirty
  by_cases halive : s.isAlive o.id = true
  · rw [if_pos halive]
    refine ⟨congrArg Hearing.alive (s.hearing_markDirty o.id o.field o.id), ?_⟩
    rw [if_pos halive]
    exact congrArg News.marks (s.heard_markDirty o.field halive)
  · rw [if_neg halive]
    refine ⟨rfl, ?_⟩
    rw [if_neg halive, List.append_nil]

end Tracker

end TrackedFields
