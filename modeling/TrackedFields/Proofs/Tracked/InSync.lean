import TrackedFields.Proofs.Session.Behind

/-!
# Containers that queue their changes

A tracked container is in sync with a store if the store lags behind it by what waits in the
queue. A plan that reports operations which repeat its change keeps a container in sync, and
never touches a store; so does every other request.
-/

namespace TrackedFields

variable {C E : Type} [DecidableEq E]

/-- The container of a scene queues its changes, and the named store lags behind its elements by
what waits in the queue. The stores are the given ones. -/
structure InSync (elements : C → List E) (o : Owner) (store : Option StoreName)
    (name : StoreName) (stores : Table StoreName (Store E)) (scene : Scene (Tracked C) E) :
    Prop where
  owner : scene.value.tracker.owner = some o
  dispatch : scene.value.tracker.dispatch = .queued store
  stores_eq : scene.session.stores = stores
  behind : scene.session.Behind name store o.id (elements scene.value.content)

namespace InSync

variable {elements : C → List E} {o : Owner} {store : Option StoreName} {name : StoreName}
  {stores : Table StoreName (Store E)} {scene : Scene (Tracked C) E} {α : Type}

/-- The rules of the store are those of the given stores. -/
theorem rules_eq (h : InSync elements o store name stores scene) :
    scene.session.rules name = (stores.getD name {}).rules := by
  rw [Session.rules, Session.store, h.stores_eq]

/-- A plan that reports operations which repeat its change keeps a container in sync. -/
theorem mutate (h : InSync elements o store name stores scene)
    {plan : Tracker → C → Except Failure (Change C E α)}
    (hplan : ∀ answer content report,
      plan scene.value.tracker scene.value.content = .ok (.made answer content report) →
      OperationKind.carryOutAll (stores.getD name {}).rules (elements scene.value.content)
        report.operations = some (elements content)) :
    InSync elements o store name stores (stateAfter (Tracked.mutate plan) scene) := by
  rcases Tracked.mutate_cases plan scene with hsame | ⟨answer, content, report, hmade, hafter⟩
  · rw [hsame]
    exact h
  · have hkinds := hplan answer content report hmade
    rw [← h.rules_eq] at hkinds
    rw [hafter]
    refine ⟨h.owner, h.dispatch, ?_, ?_⟩
    · dsimp only
      rw [Tracker.stores_changed, Tracker.stores_announce, h.stores_eq]
    · apply (h.behind.queue h.owner h.dispatch hkinds).of_stores_eq
      · dsimp only
        rw [Tracker.pending_changed, Tracker.pending_announce]
      · dsimp only
        rw [Tracker.stores_changed, Tracker.stores_announce]

/-- Taking in elements from outside the session keeps a container in sync. -/
theorem attach (es : List E) :
    Keeps (InSync elements o store name stores) (Tracked.attach es) := by
  intro scene h
  refine ⟨h.owner, h.dispatch, ?_, h.behind.of_stores_eq ?_ ?_⟩
  · exact (Tracker.stores_attach scene.value.tracker scene.session es).trans h.stores_eq
  · exact Tracker.pending_attach scene.value.tracker scene.session es
  · exact Tracker.stores_attach scene.value.tracker scene.session es

end InSync

end TrackedFields
