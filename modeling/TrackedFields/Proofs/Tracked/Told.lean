import TrackedFields.Proofs.Lockstep
import TrackedFields.Proofs.Session.DueDeletions
import TrackedFields.Proofs.Tracked.Exact

/-!
# What is told of a call

A call on a container either changes nothing, and then nobody is told, or it changes the content and
tells the session once. If what it tells is exact, the records that it deletes are known: at once
where the container lives in memory, and with the next flush where it queues its changes. Containers
that differ only in how their changes reach the datastore stay alike under plans that look at their
trackers for the check of elements only.
-/

namespace TrackedFields.Tracked

variable {C E α : Type} [DecidableEq E]

/-- What was told of a call on a container: nothing, if nothing changed, and else, once, exactly
what the change loses, if losing is allowed. -/
inductive Told (elements : C → List E) (allowed : Bool) (scene : Scene (Tracked C) E) :
    Scene (Tracked C) E → Prop where
  | nothing : Told elements allowed scene scene
  | change {content : C} {report : Report E}
      (tells : report.Exact allowed (elements scene.value.content) (elements content)) :
      Told elements allowed scene {
        value := { tracker := scene.value.tracker, content }
        session := scene.value.tracker.changed
          (scene.value.tracker.announce report scene.session) }

variable {elements : C → List E} {allowed : Bool} {scene after : Scene (Tracked C) E} {o : Owner}

/-- A plan whose reports tell exactly what it loses, if losing is allowed. -/
def Precise (elements : C → List E) (allowed : Bool)
    (plan : Tracker → C → Except Failure (Change C E α)) : Prop :=
  ∀ tracker content answer next report,
    plan tracker content = .ok (.made answer next report) →
    report.Exact allowed (elements content) (elements next)

/-- Of a precise plan, exactly what it loses is told. -/
theorem told_mutate {plan : Tracker → C → Except Failure (Change C E α)}
    (hplan : Precise elements allowed plan) (scene : Scene (Tracked C) E) :
    Told elements allowed scene (stateAfter (mutate plan) scene) := by
  rcases mutate_cases plan scene with hsame | ⟨answer, next, report, hmade, hafter⟩
  · rw [hsame]
    exact .nothing
  · rw [hafter]
    exact .change (hplan _ _ answer next report hmade)

namespace Told

/-- A call keeps the tracker of a container. -/
theorem tracker_eq (h : Told elements allowed scene after) :
    after.value.tracker = scene.value.tracker := by
  cases h <;> rfl

/-- What is told of a call leaves the stores alone. -/
theorem stores_eq (h : Told elements allowed scene after) :
    after.session.stores = scene.session.stores := by
  cases h with
  | nothing => rfl
  | @change content report tells =>
    exact scene.value.tracker.stores_reported scene.session report

/-- A container of dependent elements in memory deletes, each once, the elements that it held before
a call and does not hold after it. -/
theorem deletions (h : Told elements allowed scene after)
    (howner : scene.value.tracker.owner = some o)
    (hdispatch : scene.value.tracker.dispatch = .memory)
    (hdependent : o.descriptor.hasDependentElement = true) :
    ∃ lost, after.session.deletions = scene.session.deletions ++ lost ∧ lost.Nodup ∧
      LostForGood allowed (elements scene.value.content) (elements after.value.content) lost := by
  cases h with
  | nothing => exact ⟨[], (List.append_nil _).symm, .nil, .nil fun _ _ he => he⟩
  | @change content report tells =>
    refine ⟨(ElementSet.ofList report.orphans).toList, ?_, (ElementSet.ofList _).nodup, ?_⟩
    · rw [Tracker.deletions_changed,
        Tracker.deletions_announce_memory _ howner hdispatch hdependent]
    · intro e
      rw [← tells.orphans e]
      exact ElementSet.mem_ofList report.orphans e

/-- A container that queues its changes makes due the deletion of the elements that it held before a
call and does not hold after it. -/
theorem dueDeletions {store : Option StoreName} {name : StoreName}
    (h : Told elements allowed scene after) (howner : scene.value.tracker.owner = some o)
    (hdispatch : scene.value.tracker.dispatch = .queued store)
    (hbehind : scene.session.Behind name store o.id (elements scene.value.content))
    (hdependent : (scene.session.rules name).dependent = true) :
    ∃ lost, after.session.dueDeletions name o.id = scene.session.dueDeletions name o.id ++ lost ∧
      LostForGood allowed (elements scene.value.content) (elements after.value.content) lost := by
  cases h with
  | nothing => exact ⟨[], (List.append_nil _).symm, .nil fun _ _ he => he⟩
  | @change content report tells =>
    refine ⟨_, hbehind.dueDeletions_append
      (scene.value.tracker.pending_reported scene.session report)
      (scene.value.tracker.stores_reported scene.session report), ?_⟩
    rw [Tracker.map_kind_queued howner hdispatch]
    exact tells.operations _ hdependent hbehind.fits

end Told

/-! ### Once flushed -/

/-- The records that a container has deleted once its session is flushed with a default store: those
that the session was asked to delete where the container lives in memory, and else those that its
store deleted. -/
def deletedOnceFlushed (default : Option StoreName) (scene : Scene (Tracked C) E) : List E :=
  match scene.value.tracker.dispatch with
  | .memory => scene.session.deletions
  | .immediate name => (scene.session.store name).deleted
  | .queued store =>
    match store.or default with
    | some name => ((stateAfter (Session.flush default) scene.session).store name).deleted
    | none => []

/-- A container that queues its changes deletes what is due. -/
theorem deletedOnceFlushed_of_behind {store default : Option StoreName} {name : StoreName}
    {owner : ObjectId} {es : List E} (hdispatch : scene.value.tracker.dispatch = .queued store)
    (hbehind : scene.session.Behind name store owner es) (hname : store.or default = some name) :
    deletedOnceFlushed default scene = scene.session.dueDeletions name owner := by
  obtain ⟨flushed, hflush, -, hdeleted, -⟩ := hbehind.flush_deletions hname
  unfold deletedOnceFlushed
  rw [hdispatch]
  dsimp only
  rw [hname]
  dsimp only
  rw [stateAfter_of_ok hflush, hdeleted]

/-- A call adds to what is deleted once the session is flushed the elements that the container held
before the call and does not hold after it, if the call may delete records. -/
def Loses (default : Option StoreName) (elements : C → List E) (allowed : Bool)
    (scene after : Scene (Tracked C) E) : Prop :=
  ∃ lost, deletedOnceFlushed default after = deletedOnceFlushed default scene ++ lost ∧
    LostForGood allowed (elements scene.value.content) (elements after.value.content) lost

/-- Two containers have deleted the same once their sessions are flushed. -/
def Agreed (default : Option StoreName) (scene twin : Scene (Tracked C) E) : Prop :=
  ∀ e, e ∈ deletedOnceFlushed default scene ↔ e ∈ deletedOnceFlushed default twin

/-- Containers that hold the same before and after a call go on deleting the same. -/
theorem Agreed.step {default : Option StoreName} {twin after' : Scene (Tracked C) E}
    (h : Agreed default scene twin) (hscene : Loses default elements allowed scene after)
    (htwin : Loses default elements allowed twin after')
    (hbefore : elements scene.value.content = elements twin.value.content)
    (hafter : elements after.value.content = elements after'.value.content) :
    Agreed default after after' := by
  obtain ⟨lost, hdeleted, hlost⟩ := hscene
  obtain ⟨lost', hdeleted', hlost'⟩ := htwin
  rw [← hbefore, ← hafter] at hlost'
  intro e
  rw [hdeleted, hdeleted']
  exact hlost.mem_append_iff hlost' h e

/-! ### Containers alike -/

/-- Containers of one field that hold the same. They may differ in how changes reach the datastore.
-/
structure Alike (scene twin : Scene (Tracked C) E) : Prop where
  owner : scene.value.tracker.owner = twin.value.tracker.owner
  allowNulls : scene.value.tracker.allowNulls = twin.value.tracker.allowNulls
  content : scene.value.content = twin.value.content

/-- A plan that looks at the tracker of a container for the check of elements only. -/
def Impartial (plan : Tracker → C → Except Failure (Change C E α)) : Prop :=
  ∀ (owner : Option Owner) (dispatch dispatch' : Dispatch) (allowNulls : Bool),
    plan ⟨owner, dispatch, allowNulls⟩ = plan ⟨owner, dispatch', allowNulls⟩

/-- Impartial plans keep containers alike and answer alike. -/
theorem lockstep_mutate {plan : Tracker → C → Except Failure (Change C E α)}
    (hplan : Impartial plan) : Lockstep Alike Eq Eq (mutate plan) (mutate plan) := by
  intro scene twin h
  have hsame : plan scene.value.tracker scene.value.content =
      plan twin.value.tracker twin.value.content := by
    have htracker := hplan scene.value.tracker.owner scene.value.tracker.dispatch
      twin.value.tracker.dispatch scene.value.tracker.allowNulls
    rw [h.content]
    refine (congrFun htracker _).trans ?_
    rw [h.owner, h.allowNulls]
  unfold mutate
  dsimp only
  rw [hsame]
  cases plan twin.value.tracker twin.value.content with
  | error failure => exact .error rfl h
  | ok change =>
    cases change with
    | nothing answer => exact .ok rfl h
    | made answer content report => exact .ok rfl ⟨h.owner, h.allowNulls, rfl⟩

omit [DecidableEq E] in
/-- Elements from outside the session are taken in alike. -/
theorem lockstep_attach {F : Failure → Failure → Prop} (es : List E) :
    Lockstep (Alike (C := C)) F (fun _ _ => True) (attach es) (attach es) :=
  .of_modify fun _ _ h => ⟨h.owner, h.allowNulls, h.content⟩

/-- A call that tells exactly what it loses, if losing is allowed, and keeps containers alike. -/
structure Faithful (elements : C → List E) (allowed : Bool)
    (action : TrackedAction (Tracked C) E α) : Prop where
  told : ∀ scene, Told elements allowed scene (stateAfter action scene)
  alike : ∀ {scene twin}, Alike scene twin →
    Alike (stateAfter action scene) (stateAfter action twin)

namespace Faithful

/-- Carrying out a plan that is precise and impartial. -/
theorem of_mutate {plan : Tracker → C → Except Failure (Change C E α)}
    (himpartial : Impartial plan) (hprecise : Precise elements allowed plan) :
    Faithful elements allowed (mutate plan) :=
  ⟨told_mutate hprecise, fun h => (lockstep_mutate himpartial).stateAfter h⟩

/-- Ignoring an answer. -/
theorem discard {action : TrackedAction (Tracked C) E α} (h : Faithful elements allowed action) :
    Faithful elements allowed (Functor.discard action) := by
  constructor
  case told =>
    intro scene
    rw [stateAfter_discard]
    exact h.told scene
  case alike =>
    intro scene twin halike
    rw [stateAfter_discard, stateAfter_discard]
    exact h.alike halike

end Faithful

end TrackedFields.Tracked
