import TrackedFields.Tracked.Container

/-!
# What actions keep

An action on a store, a session or a tracked value answers or fails, and leaves a state either way.
A property is kept if that state has it whenever the state before has it. A sequence of actions
that keep a property keeps it too, wherever it stops.
-/

namespace TrackedFields

variable {ε σ α β : Type}

/-- A sequence runs its second part on what the first one leaves, unless that fails. -/
theorem bind_apply (action : EStateM ε σ α) (next : α → EStateM ε σ β) (s : σ) :
    (action >>= next) s =
      match action s with
      | .ok a after => next a after
      | .error e after => .error e after := rfl

/-- Ignoring an answer leaves everything else as it is. -/
theorem discard_apply (action : EStateM ε σ α) (s : σ) :
    (discard action : EStateM ε σ Unit) s =
      match action s with
      | .ok _ after => .ok () after
      | .error e after => .error e after := rfl

/-- What a check in front lets pass has been accepted. -/
theorem accepted_of_bind {checked : Except ε Unit} {next : Unit → Except ε β} {b : β}
    (h : (checked >>= next) = .ok b) : checked = .ok () ∧ next () = .ok b := by
  cases checked with
  | error failure => cases h
  | ok answer => exact ⟨rfl, h⟩

/-- The state that an action leaves, whether it answers or fails. -/
def stateAfter (action : EStateM ε σ α) (s : σ) : σ :=
  match action s with
  | .ok _ after => after
  | .error _ after => after

/-- The state left by an action that answers. -/
theorem stateAfter_of_ok {action : EStateM ε σ α} {s after : σ} {a : α}
    (h : action s = .ok a after) : stateAfter action s = after := by
  rw [stateAfter, h]

/-- The state left by an action that fails. -/
theorem stateAfter_of_error {action : EStateM ε σ α} {s after : σ} {e : ε}
    (h : action s = .error e after) : stateAfter action s = after := by
  rw [stateAfter, h]

/-- The answer of an action does not matter for the state that it leaves. -/
@[simp] theorem stateAfter_discard (action : EStateM ε σ α) (s : σ) :
    stateAfter (discard action) s = stateAfter action s := by
  unfold stateAfter
  rw [discard_apply]
  cases action s <;> rfl

/-- A sequence leaves what its second part leaves, if it gets that far. -/
theorem stateAfter_bind (action : EStateM ε σ α) (next : α → EStateM ε σ β) (s : σ) :
    stateAfter (action >>= next) s =
      match action s with
      | .ok a after => stateAfter (next a) after
      | .error _ after => after := by
  unfold stateAfter
  rw [bind_apply]
  cases action s <;> rfl

/-- What is made of an answer does not matter for the state that an action leaves. -/
theorem stateAfter_bind_pure (action : EStateM ε σ α) (f : α → β) (s : σ) :
    stateAfter (action >>= fun a => pure (f a)) s = stateAfter action s := by
  rw [stateAfter_bind]
  unfold stateAfter
  cases action s <;> rfl

/-- An action keeps a property of the state, also where it fails. -/
def Keeps (P : σ → Prop) (action : EStateM ε σ α) : Prop := ∀ s, P s → P (stateAfter action s)

namespace Keeps

variable {P : σ → Prop}

/-- Answering keeps everything. -/
theorem pure (a : α) : Keeps P (Pure.pure a : EStateM ε σ α) := fun _ h => h

/-- Failing keeps everything. -/
theorem throw (e : ε) : Keeps P (MonadExcept.throw e : EStateM ε σ α) := fun _ h => h

/-- Changing the state keeps what the change keeps. -/
theorem of_modify {change : σ → σ} (h : ∀ s, P s → P (change s)) :
    Keeps P (modify change : EStateM ε σ PUnit) := h

/-- Ignoring an answer changes nothing about what is kept. -/
theorem discard {action : EStateM ε σ α} (h : Keeps P action) :
    Keeps P (Functor.discard action) := by
  intro s hs
  rw [stateAfter_discard]
  exact h s hs

/-- A sequence keeps what its parts keep. -/
theorem bind {action : EStateM ε σ α} {next : α → EStateM ε σ β} (h : Keeps P action)
    (hnext : ∀ a, Keeps P (next a)) : Keeps P (action >>= next) := by
  intro s hs
  have hs' := h s hs
  unfold stateAfter at hs'
  rw [stateAfter_bind]
  cases heq : action s with
  | ok a after =>
    rw [heq] at hs'
    exact hnext a after hs'
  | error e after =>
    rw [heq] at hs'
    exact hs'

/-- A choice keeps what both of its branches keep. -/
theorem ite {c : Prop} [Decidable c] {first second : EStateM ε σ α} (h : Keeps P first)
    (h' : Keeps P second) : Keeps P (if c then first else second) := by
  split
  · exact h
  · exact h'

/-- A run of actions keeps what each of them keeps. -/
theorem run {M : Type} {run : M → EStateM ε σ α} {ms : List M} (h : ∀ m ∈ ms, Keeps P (run m))
    {s : σ} (hs : P s) : P (ms.foldl (fun s m => stateAfter (run m) s) s) := by
  induction ms generalizing s with
  | nil => exact hs
  | cons m ms ih =>
    exact ih (fun m hm => h m (List.mem_cons_of_mem _ hm)) (h m List.mem_cons_self s hs)

/-- Looking at the content of a container keeps everything. -/
theorem content? {C E : Type} {P : Scene (Tracked C) E → Prop} :
    Keeps P (Tracked.content? : TrackedAction (Tracked C) E C) := fun _ h => h

/-- Looking at the tracker of a container keeps everything. -/
theorem tracker? {C E : Type} {P : Scene (Tracked C) E → Prop} :
    Keeps P (Tracked.tracker? : TrackedAction (Tracked C) E Tracker) := fun _ h => h

/-- A check keeps everything. -/
theorem require {C E : Type} {P : Scene (Tracked C) E → Prop} (checked : Except Failure Unit) :
    Keeps P (Tracked.require checked : TrackedAction (Tracked C) E Unit) := by
  cases checked with
  | error failure => exact Keeps.throw failure
  | ok answer => exact Keeps.pure ()

end Keeps

/-- Carrying out a plan leaves the scene alone, unless the plan makes a change: then the content is
replaced, and the change is reported. -/
theorem Tracked.mutate_cases {C E : Type} [DecidableEq E]
    (plan : Tracker → C → Except Failure (Change C E α)) (scene : Scene (Tracked C) E) :
    stateAfter (mutate plan) scene = scene ∨
      ∃ answer content report,
        plan scene.value.tracker scene.value.content = .ok (.made answer content report) ∧
        stateAfter (mutate plan) scene = {
          value := { tracker := scene.value.tracker, content }
          session := scene.value.tracker.changed
            (scene.value.tracker.announce report scene.session) } := by
  unfold stateAfter mutate
  dsimp only
  cases plan scene.value.tracker scene.value.content with
  | error failure => exact .inl rfl
  | ok change =>
    cases change with
    | nothing answer => exact .inl rfl
    | made answer content report => exact .inr ⟨answer, content, report, rfl, rfl⟩

/-- Where a plan succeeds, it makes no change, or the content is what the plan makes of it. -/
theorem Tracked.mutate_ok_cases {C E : Type} [DecidableEq E]
    {plan : Tracker → C → Except Failure (Change C E α)} {scene after : Scene (Tracked C) E}
    {answer : α} (h : mutate plan scene = .ok answer after) :
    (plan scene.value.tracker scene.value.content = .ok (.nothing answer) ∧ after = scene) ∨
      ∃ report, plan scene.value.tracker scene.value.content =
        .ok (.made answer after.value.content report) := by
  unfold mutate at h
  dsimp only at h
  cases hplan : plan scene.value.tracker scene.value.content with
  | error failure =>
    rw [hplan] at h
    cases h
  | ok change =>
    rw [hplan] at h
    cases change with
    | nothing answer' =>
      cases h
      exact .inl ⟨rfl, rfl⟩
    | made answer' content report =>
      cases h
      exact .inr ⟨report, rfl⟩

namespace Container

variable {C E : Type}

/-- A pass over a list that skips some elements and acts on the others. -/
structure IsPass (skips : E → Bool) (act : E → TrackedAction (Tracked C) E Unit)
    (pass : List E → TrackedAction (Tracked C) E Unit) : Prop where
  nil : pass [] = pure ()
  cons : ∀ e es, pass (e :: es) = if skips e then pass es else act e >>= fun _ => pass es

/-- What is so of doing nothing, and stays so with one more action in front, is so of a pass. -/
theorem IsPass.closed {skips : E → Bool} {act : E → TrackedAction (Tracked C) E Unit}
    {pass : List E → TrackedAction (Tracked C) E Unit} {es : List E}
    {motive : TrackedAction (Tracked C) E Unit → Prop} (h : IsPass skips act pass)
    (hnothing : motive (pure ()))
    (hact : ∀ e ∈ es, ∀ next, motive next → motive (act e >>= fun _ => next)) :
    motive (pass es) := by
  induction es with
  | nil =>
    rw [h.nil]
    exact hnothing
  | cons e es ih =>
    have hrest := ih fun a ha => hact a (List.mem_cons_of_mem _ ha)
    rw [h.cons]
    split
    · exact hrest
    · exact hact e List.mem_cons_self _ hrest

variable [DecidableEq E] [Element E] [Container C E]

/-- Removing what another list lacks is a pass. -/
theorem isPass_removeMissing (attached : List E) :
    IsPass (C := C) (fun e => attached.any (Element.same e)) (fun e => discard (remove e false))
      (removeMissing attached) :=
  ⟨rfl, fun _ _ => rfl⟩

/-- Adding what a list lacks is a pass. -/
theorem isPass_addMissing (current : List E) :
    IsPass (C := C) (fun e => current.any (Element.same · e)) (fun e => discard (add e))
      (addMissing current) :=
  ⟨rfl, fun _ _ => rfl⟩

variable {P : Scene (Tracked C) E → Prop}

/-- Removing what another list lacks keeps what every single removal keeps. -/
theorem keeps_removeMissing (attached : List E) {es : List E}
    (hremove : ∀ e ∈ es, Keeps P (remove e false)) : Keeps P (removeMissing attached es) :=
  (isPass_removeMissing attached).closed (Keeps.pure ()) fun e he _ hnext =>
    (hremove e he).discard.bind fun _ => hnext

/-- Adding what a list lacks keeps what every single addition keeps. -/
theorem keeps_addMissing (current : List E) {es : List E} (hadd : ∀ e ∈ es, Keeps P (add e)) :
    Keeps P (addMissing current es) :=
  (isPass_addMissing current).closed (Keeps.pure ()) fun e he _ hnext =>
    (hadd e he).discard.bind fun _ => hnext

/-- Reconciling keeps what listing, removing without deletions and adding keep. -/
theorem keeps_reconcile (helements : Keeps P elements) (hremove : ∀ e, Keeps P (remove e false))
    (hadd : ∀ e, Keeps P (add e)) (attached : List E) : Keeps P (reconcile attached) :=
  helements.bind fun current =>
    (keeps_removeMissing attached fun e (_ : e ∈ current) => hremove e).bind fun _ =>
      keeps_addMissing current fun e _ => hadd e

end Container

end TrackedFields
