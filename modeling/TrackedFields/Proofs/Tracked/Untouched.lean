import TrackedFields.Proofs.Session.Heard
import TrackedFields.Proofs.Session.Replay

/-!
# Failures that leave no trace

An action on a tracked value that fails should leave the value and its session as they were; only
the record of the store calls that were tried is longer. Some actions do no more than look, and so
leave everything alone in any case; some never fail. What looks first and then goes on without
failing fails without a trace.
-/

namespace TrackedFields

namespace Store

variable {E α : Type}

/-- A call that changes nothing that a store shows, whether it answers or fails. -/
def Looks (action : StoreAction E α) : Prop := ∀ st, (stateAfter action st).view = st.view

/-- A read changes nothing that shows. -/
theorem looks_reading (call : StoreCall E) (answer : Store E → α) :
    Looks (reading call answer) := by
  intro st
  unfold stateAfter
  rw [reading_eq]
  cases st.reads.now with
  | true => rfl
  | false => rfl

/-- Reading a whole container changes nothing that shows. -/
theorem looks_elements (owner : ObjectId) : Looks (elements (E := E) owner) := by
  intro st
  unfold stateAfter elements
  rw [bind_apply, reading_eq]
  cases st.reads.now with
  | true => rfl
  | false => rfl

end Store

namespace Session

variable {E α : Type}

/-- Between two moments, a session was asked for nothing but store calls, and no store shows
anything else than before. -/
structure OnlyCalled (s after : Session E) : Prop where
  settings : after.settings = s.settings
  transactionActive : after.transactionActive = s.transactionActive
  pending : after.pending = s.pending
  /-- The dirty marks of all entities among them. -/
  entities : after.entities = s.entities
  registry : after.registry = s.registry
  /-- The containers of all stores, and the elements that they deleted. -/
  views : after.views = s.views
  journal : ∃ calls : List (StoreName × StoreCall E),
    after.journal = s.journal ++ calls.map fun (name, call) => .called name call

namespace OnlyCalled

variable {s mid after : Session E}

/-- Nothing was asked for between a moment and itself. -/
theorem refl (s : Session E) : s.OnlyCalled s :=
  ⟨rfl, rfl, rfl, rfl, rfl, rfl, [], (List.append_nil _).symm⟩

/-- Store calls come one after the other. -/
theorem trans (h : s.OnlyCalled mid) (h' : mid.OnlyCalled after) : s.OnlyCalled after := by
  obtain ⟨calls, hcalls⟩ := h.journal
  obtain ⟨more, hmore⟩ := h'.journal
  refine ⟨h'.settings.trans h.settings, h'.transactionActive.trans h.transactionActive,
    h'.pending.trans h.pending, h'.entities.trans h.entities, h'.registry.trans h.registry,
    h'.views.trans h.views, calls ++ more, ?_⟩
  rw [hmore, hcalls, List.map_append, List.append_assoc]

/-- A call that only looks at a store. -/
theorem afterCalls (s : Session E) (name : StoreName) {store : Store E}
    (hview : store.view = s.views name) : s.OnlyCalled (s.afterCalls name store) := by
  refine ⟨rfl, rfl, rfl, rfl, rfl, ?_, (store.calls.drop (s.store name).calls.length).map (name, ·),
    ?_⟩
  · funext other
    change ((s.afterCalls name store).store other).view = s.views other
    rw [store_afterCalls]
    split
    · next hother => rw [hother, hview]
    · rfl
  · rw [List.map_map]
    rfl

/-- Store calls tell no owner anything. -/
theorem heard (h : s.OnlyCalled after) (id : ObjectId) : after.heard id = s.heard id := by
  obtain ⟨calls, hcalls⟩ := h.journal
  let effects : List (Effect E) := calls.map fun (name, call) => .called name call
  have hsame : after.heard id = (s.record effects).heard id := by
    unfold Session.heard relationsOf updates marksOf entity?
    rw [hcalls, h.entities]
    rfl
  rw [hsame]
  apply s.heard_record id
  intro effect hmem
  obtain ⟨call, -, rfl⟩ := List.mem_map.mp hmem
  simp

/-- Store calls delete no records. -/
theorem deletions (h : s.OnlyCalled after) : after.deletions = s.deletions := by
  obtain ⟨calls, hcalls⟩ := h.journal
  unfold Session.deletions
  rw [hcalls, List.filterMap_append, List.append_right_eq_self, List.filterMap_eq_nil_iff]
  intro effect hmem
  obtain ⟨call, -, rfl⟩ := List.mem_map.mp hmem
  rfl

end OnlyCalled

end Session

/-- An action left a tracked value as it was, and asked its session for nothing but store calls that
only look. -/
structure Untouched {W E : Type} (scene after : Scene W E) : Prop where
  value : after.value = scene.value
  session : scene.session.OnlyCalled after.session

section Actions

variable {W E α β : Type} {scene mid after : Scene W E}

/-- What is left alone twice is left alone. -/
theorem Untouched.trans (h : Untouched scene mid) (h' : Untouched mid after) :
    Untouched scene after :=
  ⟨h'.value.trans h.value, h.session.trans h'.session⟩

/-- Nothing happened between a moment and itself. -/
theorem Untouched.refl (scene : Scene W E) : Untouched scene scene := ⟨rfl, .refl _⟩

/-- An action that does no more than look, whether it answers or fails. -/
def Looks (action : TrackedAction W E α) : Prop :=
  ∀ scene, Untouched scene (stateAfter action scene)

/-- An action that never fails. -/
def Total (action : TrackedAction W E α) : Prop :=
  ∀ scene, ∃ answer after, action scene = .ok answer after

/-- An action that leaves everything alone where it fails. -/
def FailsCleanly (action : TrackedAction W E α) : Prop :=
  ∀ scene failure after, action scene = .error failure after → Untouched scene after

/-- Looks fail without a trace. -/
theorem Looks.failsCleanly {action : TrackedAction W E α} (h : Looks action) :
    FailsCleanly action := by
  intro scene failure after haction
  rw [← stateAfter_of_error haction]
  exact h scene

/-- Without failure, there is nothing to show. -/
theorem Total.failsCleanly {action : TrackedAction W E α} (h : Total action) :
    FailsCleanly action := by
  intro scene failure after haction
  obtain ⟨answer, mid, hok⟩ := h scene
  rw [hok] at haction
  cases haction

/-- Answering is a look. -/
theorem Looks.pure (a : α) : Looks (Pure.pure a : TrackedAction W E α) := fun scene => .refl scene

/-- Looks one after the other. -/
theorem Looks.bind {action : TrackedAction W E α} {next : α → TrackedAction W E β}
    (h : Looks action) (hnext : ∀ a, Looks (next a)) : Looks (action >>= next) := by
  intro scene
  have hfirst := h scene
  rw [stateAfter_bind]
  unfold stateAfter at hfirst
  cases haction : action scene with
  | error failure mid =>
    rw [haction] at hfirst
    exact hfirst
  | ok a mid =>
    rw [haction] at hfirst
    exact hfirst.trans (hnext a mid)

/-- A choice between looks. -/
theorem Looks.ite {c : Prop} [Decidable c] {first second : TrackedAction W E α} (h : Looks first)
    (h' : Looks second) : Looks (if c then first else second) := by
  split
  · exact h
  · exact h'

/-- What comes after a look fails without a trace if it does so by itself. -/
theorem Looks.bind_failsCleanly {action : TrackedAction W E α} {next : α → TrackedAction W E β}
    (h : Looks action) (hnext : ∀ a, FailsCleanly (next a)) : FailsCleanly (action >>= next) := by
  intro scene failure after hafter
  have hfirst := h scene
  rw [bind_apply] at hafter
  unfold stateAfter at hfirst
  cases haction : action scene with
  | error failure' mid =>
    rw [haction] at hfirst hafter
    cases hafter
    exact hfirst
  | ok a mid =>
    rw [haction] at hfirst hafter
    exact hfirst.trans (hnext a mid failure after hafter)

/-- A choice between actions that fail without a trace. -/
theorem FailsCleanly.ite {c : Prop} [Decidable c] {first second : TrackedAction W E α}
    (h : FailsCleanly first) (h' : FailsCleanly second) :
    FailsCleanly (if c then first else second) := by
  split
  · exact h
  · exact h'

/-- Actions that never fail, one after the other. -/
theorem Total.bind {action : TrackedAction W E α} {next : α → TrackedAction W E β}
    (h : Total action) (hnext : ∀ a, Total (next a)) : Total (action >>= next) := by
  intro scene
  obtain ⟨a, mid, haction⟩ := h scene
  obtain ⟨b, after, hafter⟩ := hnext a mid
  refine ⟨b, after, ?_⟩
  rw [bind_apply, haction]
  exact hafter

/-- Answering never fails. -/
theorem Total.pure (a : α) : Total (Pure.pure a : TrackedAction W E α) :=
  fun scene => ⟨a, scene, rfl⟩

/-- Changing the scene never fails. -/
theorem Total.modify (change : Scene W E → Scene W E) :
    Total (modify change : TrackedAction W E PUnit) := fun scene => ⟨⟨⟩, change scene, rfl⟩

/-- A choice between actions that never fail. -/
theorem Total.ite {c : Prop} [Decidable c] {first second : TrackedAction W E α} (h : Total first)
    (h' : Total second) : Total (if c then first else second) := by
  split
  · exact h
  · exact h'

/-- An answer that is ignored does not matter. -/
theorem Total.discard {action : TrackedAction W E α} (h : Total action) :
    Total (Functor.discard action) := by
  intro scene
  obtain ⟨answer, after, haction⟩ := h scene
  exact ⟨(), after, by rw [discard_apply, haction]⟩

end Actions

namespace Tracked

variable {C E α : Type}

/-- A question about a tracked value alone. -/
def inspect (question : Tracked C → Except Failure α) : TrackedAction (Tracked C) E α :=
  fun scene =>
    match question scene.value with
    | .ok answer => .ok answer scene
    | .error failure => .error failure scene

/-- A question about a tracked value leaves it alone. -/
theorem looks_inspect (question : Tracked C → Except Failure α) :
    Looks (inspect question : TrackedAction (Tracked C) E α) := by
  intro scene
  unfold stateAfter inspect
  cases question scene.value with
  | ok answer => exact .refl scene
  | error failure => exact .refl scene

/-- A check leaves everything alone. -/
theorem looks_require (checked : Except Failure Unit) :
    Looks (require checked : TrackedAction (Tracked C) E Unit) := by
  intro scene
  cases checked with
  | ok answer => exact .refl scene
  | error failure => exact .refl scene

/-- Asking something of the session never fails. -/
theorem total_ask (question : Tracker → Session E → α × Session E) :
    Total (ask question : TrackedAction (Tracked C) E α) := fun _ => ⟨_, _, rfl⟩

/-- Asking for the content is a look. -/
theorem looks_content : Looks (content? : TrackedAction (Tracked C) E C) := fun scene => .refl scene

/-- Asking for the tracker is a look. -/
theorem looks_tracker : Looks (tracker? : TrackedAction (Tracked C) E Tracker) :=
  fun scene => .refl scene

/-- Marking the owning field dirty, if that is asked, never fails. -/
theorem total_dirtyIf (dirty : Bool) :
    Total (do if dirty then makeDirty : TrackedAction (Tracked C) E Unit) :=
  .ite (.modify _) (.pure _)

/-- Carrying out a plan goes well unless the plan fails. -/
theorem ok_mutate [DecidableEq E] {plan : Tracker → C → Except Failure (Change C E α)}
    {scene : Scene (Tracked C) E}
    (h : ∀ failure, plan scene.value.tracker scene.value.content ≠ .error failure) :
    ∃ answer after, mutate plan scene = .ok answer after := by
  unfold mutate
  dsimp only
  cases hplan : plan scene.value.tracker scene.value.content with
  | error failure => exact absurd hplan (h failure)
  | ok change =>
    cases change with
    | nothing answer => exact ⟨answer, _, rfl⟩
    | made answer content report => exact ⟨answer, _, rfl⟩

/-- Carrying out plans that never fail. -/
theorem total_mutate [DecidableEq E] {plan : Tracker → C → Except Failure (Change C E α)}
    (h : ∀ tracker content failure, plan tracker content ≠ .error failure) :
    Total (mutate plan) := fun _ => ok_mutate (h _ _)

/-- A plan that fails leaves everything alone. -/
theorem failsCleanly_mutate [DecidableEq E]
    (plan : Tracker → C → Except Failure (Change C E α)) : FailsCleanly (mutate plan) := by
  intro scene failure after h
  rw [eq_of_mutate_error h]
  exact .refl scene

end Tracked

end TrackedFields
