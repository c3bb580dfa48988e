import TrackedFields.Proofs.Tracked.Dropped

/-!
# Containers that nothing changed

What an outsider can tell of a container between two moments: what it shows, the operations that
wait, the relation changes and dirty marks of all owners, and what the stores hold. Taking in
elements from outside is no change in this sense.
-/

namespace TrackedFields

variable {C D E : Type}

/-- Between two moments, what a container shows stayed the same, and so did the waiting operations,
the relation changes, the dirty marks and the containers of all stores. -/
structure Unaltered (shown : Scene (Tracked C) E → D) (scene after : Scene (Tracked C) E) :
    Prop where
  content : shown after = shown scene
  pending : after.session.pending = scene.session.pending
  relations : ∀ id, after.session.relationsOf id = scene.session.relationsOf id
  marks : ∀ id, after.session.marksOf id = scene.session.marksOf id
  contents : ∀ name, (after.session.store name).contents = (scene.session.store name).contents

/-- What is unaltered twice is unaltered. -/
theorem Unaltered.trans {shown : Scene (Tracked C) E → D} {scene mid after : Scene (Tracked C) E}
    (h : Unaltered shown scene mid) (h' : Unaltered shown mid after) :
    Unaltered shown scene after :=
  ⟨h'.content.trans h.content, h'.pending.trans h.pending,
    fun id => (h'.relations id).trans (h.relations id), fun id => (h'.marks id).trans (h.marks id),
    fun name => (h'.contents name).trans (h.contents name)⟩

namespace Tracked

/-- The scene once elements from outside were taken in. -/
def attached [Element E] (target : List E) (scene : Scene (Tracked C) E) : Scene (Tracked C) E :=
  { scene with session := scene.value.tracker.attach target scene.session }

/-- Taking in elements alters nothing that a container shows by its content. -/
theorem unaltered_attached [Element E] (target : List E) {shown : Scene (Tracked C) E → D}
    {scene : Scene (Tracked C) E} (hshown : shown (attached target scene) = shown scene) :
    Unaltered shown scene (attached target scene) := by
  have h : scene.session.OnlyAttached (attached target scene).session :=
    scene.value.tracker.onlyAttached_attach target scene.session
  refine ⟨hshown, h.pending_eq, fun id => congrArg News.relations (h.heard_eq id),
    fun id => congrArg News.marks (h.heard_eq id), fun name => ?_⟩
  unfold Session.store
  rw [h.stores_eq]

end Tracked

end TrackedFields
