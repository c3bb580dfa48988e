import TrackedFields.Proofs.Session.NullFree
import TrackedFields.Proofs.TrackedQueue.InvariantsOfCalls

/-!
# Containers without null elements

A container that forbids null elements and holds none, for an owner that has none in any store and
for which none waits. A plan keeps it so if it lets only checked elements join, and so does a run if
each of its calls does.
-/

namespace TrackedFields

variable {C E α : Type}

variable [Element E]

/-- A container that forbids null elements holds none, and neither do the stores and the waiting
operations of some owners, among them the owner of the container. -/
structure Tracked.NullFree (members : C → List E) (ids : Set ObjectId)
    (scene : Scene (Tracked C) E) : Prop where
  forbids : scene.value.tracker.allowNulls = false
  owner : ∀ o, scene.value.tracker.owner = some o → o.id ∈ ids
  held : ∀ e ∈ members scene.value.content, Element.Present e
  session : scene.session.NullFree ids

namespace Tracked

variable {members : C → List E} {ids : Set ObjectId}

variable [DecidableEq E]

/-- Requests with present elements only. -/
theorem NullFree.asks {scene : Scene (Tracked C) E} (h : NullFree members ids scene)
    {after : Session E} (hasks : scene.value.tracker.Asks Element.Present scene.session after) :
    NullFree members ids { scene with session := after } :=
  ⟨h.forbids, h.owner, h.held, h.session.asks h.owner hasks⟩

/-- Every step that takes in no null element by an unchecked way. -/
theorem NullFree.run {calls : {α : Type} → TrackedAction (Tracked C) E α → Prop}
    (hcalls : ∀ {α : Type} {action : TrackedAction (Tracked C) E α}, calls action →
      Keeps (NullFree members ids) action) {start scene : Scene (Tracked C) E}
    (h : NullFree members ids start) (hrun : Relation.ReflTransGen (Step calls) start scene) :
    NullFree members ids scene := by
  induction hrun with
  | refl => exact h
  | tail _ step ih =>
    cases step with
    | call hcall => exact hcalls hcall _ ih
    | flush default =>
      exact ⟨ih.forbids, ih.owner, ih.held, Session.nullFree_flush default _ ih.session⟩
    | lifecycle entities =>
      exact ⟨ih.forbids, ih.owner, ih.held, ih.session.of_stores_eq rfl rfl⟩

end Tracked

end TrackedFields
