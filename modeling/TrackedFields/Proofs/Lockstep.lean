import TrackedFields.Proofs.Keeps

/-!
# Two actions in lockstep

Two actions, each on a state of its own, run in lockstep if from related states both answer or both
fail, and in either case leave related states. The rules follow the shape of the actions: what runs
in lockstep part by part does so as a whole.
-/

namespace TrackedFields

variable {ε ε' σ τ α β γ δ : Type}

/-- Two actions ended alike: both answered or both failed, and left related states. -/
inductive Agree (R : σ → τ → Prop) (F : ε → ε' → Prop) (Q : α → β → Prop) :
    EStateM.Result ε σ α → EStateM.Result ε' τ β → Prop where
  | ok {a : α} {b : β} {s : σ} {t : τ} (answers : Q a b) (states : R s t) :
      Agree R F Q (.ok a s) (.ok b t)
  | error {e : ε} {e' : ε'} {s : σ} {t : τ} (failures : F e e') (states : R s t) :
      Agree R F Q (.error e s) (.error e' t)

/-- What is said of two ends may be weakened. -/
theorem Agree.imp {R R' : σ → τ → Prop} {F F' : ε → ε' → Prop} {Q : α → β → Prop}
    {first : EStateM.Result ε σ α} {second : EStateM.Result ε' τ β} (h : Agree R F Q first second)
    (hstates : ∀ s t, R s t → R' s t) (hfailures : ∀ e e', F e e' → F' e e') :
    Agree R' F' Q first second := by
  cases h with
  | ok answers states => exact .ok answers (hstates _ _ states)
  | error failures states => exact .error (hfailures _ _ failures) (hstates _ _ states)

/-- Two sequences end alike if their first parts do, and their second parts from wherever these lead
to. -/
theorem Agree.bind {R : σ → τ → Prop} {F : ε → ε' → Prop} {Q : α → β → Prop} {Q' : γ → δ → Prop}
    {first : EStateM ε σ α} {second : EStateM ε' τ β} {next : α → EStateM ε σ γ}
    {next' : β → EStateM ε' τ δ} {s : σ} {t : τ} (h : Agree R F Q (first s) (second t))
    (hnext : ∀ a b s' t', first s = .ok a s' → second t = .ok b t' → Q a b → R s' t' →
      Agree R F Q' (next a s') (next' b t')) :
    Agree R F Q' ((first >>= next) s) ((second >>= next') t) := by
  rw [bind_apply, bind_apply]
  generalize first s = result, second t = result' at h hnext ⊢
  cases h with
  | ok answers states => exact hnext _ _ _ _ rfl rfl answers states
  | error failures states => exact .error failures states

/-- Two actions run in lockstep: from related states they end alike. -/
def Lockstep (R : σ → τ → Prop) (F : ε → ε' → Prop) (Q : α → β → Prop) (first : EStateM ε σ α)
    (second : EStateM ε' τ β) : Prop :=
  ∀ s t, R s t → Agree R F Q (first s) (second t)

namespace Lockstep

variable {R : σ → τ → Prop} {F : ε → ε' → Prop} {Q : α → β → Prop}

/-- Answering. -/
theorem pure {a : α} {b : β} (h : Q a b) :
    Lockstep R F Q (Pure.pure a) (Pure.pure b) :=
  fun _ _ hstates => .ok h hstates

/-- Failing. -/
theorem throw {e : ε} {e' : ε'} (h : F e e') :
    Lockstep R F Q (MonadExcept.throw e) (MonadExcept.throw e') :=
  fun _ _ hstates => .error h hstates

/-- Changing the states. -/
theorem of_modify {change : σ → σ} {change' : τ → τ} (h : ∀ s t, R s t → R (change s) (change' t)) :
    Lockstep R F (fun _ _ => True) (modify change) (modify change') :=
  fun s t hstates => .ok trivial (h s t hstates)

/-- Answers may be related more loosely. -/
theorem mono {Q' : α → β → Prop} {first : EStateM ε σ α} {second : EStateM ε' τ β}
    (h : Lockstep R F Q first second) (hanswers : ∀ a b, Q a b → Q' a b) :
    Lockstep R F Q' first second := by
  intro s t hstates
  have hend := h s t hstates
  generalize first s = result, second t = result' at hend ⊢
  cases hend with
  | ok answers states => exact .ok (hanswers _ _ answers) states
  | error failures states => exact .error failures states

/-- Two sequences whose parts run in lockstep. -/
theorem bind {Q' : γ → δ → Prop} {first : EStateM ε σ α} {second : EStateM ε' τ β}
    {next : α → EStateM ε σ γ} {next' : β → EStateM ε' τ δ} (h : Lockstep R F Q first second)
    (hnext : ∀ a b, Q a b → Lockstep R F Q' (next a) (next' b)) :
    Lockstep R F Q' (first >>= next) (second >>= next') :=
  fun s t hstates => (h s t hstates).bind fun a b s' t' _ _ answers states =>
    hnext a b answers s' t' states

/-- Ignoring both answers. -/
theorem discard {first : EStateM ε σ α} {second : EStateM ε' τ β}
    (h : Lockstep R F Q first second) :
    Lockstep R F (fun _ _ => True) (Functor.discard first) (Functor.discard second) := by
  intro s t hstates
  have hend := h s t hstates
  rw [discard_apply, discard_apply]
  generalize first s = result, second t = result' at hend ⊢
  cases hend with
  | ok _ states => exact .ok trivial states
  | error failures states => exact .error failures states

/-- Choosing alike. -/
theorem ite {c : Prop} [Decidable c] {first first' : EStateM ε σ α}
    {second second' : EStateM ε' τ β} (h : Lockstep R F Q first second)
    (h' : Lockstep R F Q first' second') :
    Lockstep R F Q (if c then first else first') (if c then second else second') := by
  split
  · exact h
  · exact h'

/-- What is left is related. -/
theorem stateAfter {first : EStateM ε σ α} {second : EStateM ε' τ β}
    (h : Lockstep R F Q first second) {s : σ} {t : τ} (hstates : R s t) :
    R (TrackedFields.stateAfter first s) (TrackedFields.stateAfter second t) := by
  have hend := h s t hstates
  unfold TrackedFields.stateAfter
  generalize first s = result, second t = result' at hend ⊢
  cases hend with
  | ok _ states => exact states
  | error _ states => exact states

/-- What whole runs leave is related. -/
theorem run {M : Type} {first : M → EStateM ε σ α} {second : M → EStateM ε' τ β}
    (h : ∀ m, Lockstep R F Q (first m) (second m)) (ms : List M) {s : σ} {t : τ}
    (hstates : R s t) :
    R (ms.foldl (fun s m => TrackedFields.stateAfter (first m) s) s)
      (ms.foldl (fun t m => TrackedFields.stateAfter (second m) t) t) := by
  induction ms generalizing s t with
  | nil => exact hstates
  | cons m ms ih => exact ih ((h m).stateAfter hstates)

end Lockstep

namespace Container

variable {C C' E : Type} {R : Scene (Tracked C) E → Scene (Tracked C') E → Prop}
  {F : Failure → Failure → Prop} {Q : Bool → Bool → Prop}

/-- Passes that skip the same run in lockstep if their actions do. -/
theorem IsPass.lockstep {skips : E → Bool} {act : E → TrackedAction (Tracked C) E Unit}
    {act' : E → TrackedAction (Tracked C') E Unit}
    {pass : List E → TrackedAction (Tracked C) E Unit}
    {pass' : List E → TrackedAction (Tracked C') E Unit} (h : IsPass skips act pass)
    (h' : IsPass skips act' pass')
    (hact : ∀ e, Lockstep R F (fun _ _ => True) (act e) (act' e)) (es : List E) :
    Lockstep R F (fun _ _ => True) (pass es) (pass' es) := by
  induction es with
  | nil =>
    rw [h.nil, h'.nil]
    exact .pure trivial
  | cons e es ih =>
    rw [h.cons, h'.cons]
    exact .ite ih ((hact e).bind fun _ _ _ => ih)

variable [DecidableEq E] [Element E] [Container C E] [Container C' E]

/-- Removing what another list lacks from two containers. -/
theorem lockstep_removeMissing
    (hremove : ∀ e, Lockstep R F Q (remove e false) (remove e false)) (attached es : List E) :
    Lockstep R F (fun _ _ => True) (removeMissing attached es) (removeMissing attached es) :=
  (isPass_removeMissing attached).lockstep (isPass_removeMissing attached)
    (fun e => (hremove e).discard) es

/-- Adding to two containers what a list lacks. -/
theorem lockstep_addMissing (hadd : ∀ e, Lockstep R F Q (add e) (add e)) (current es : List E) :
    Lockstep R F (fun _ _ => True) (addMissing current es) (addMissing current es) :=
  (isPass_addMissing current).lockstep (isPass_addMissing current) (fun e => (hadd e).discard) es

/-- Two containers that list the same are reconciled in lockstep, if their removals and additions
run in lockstep. -/
theorem lockstep_reconcile (helements : Lockstep R F Eq elements elements)
    (hremove : ∀ e, Lockstep R F Q (remove e false) (remove e false))
    (hadd : ∀ e, Lockstep R F Q (add e) (add e)) (attached : List E) :
    Lockstep R F (fun _ _ => True) (reconcile attached) (reconcile attached) := by
  apply helements.bind
  rintro current _ rfl
  apply (lockstep_removeMissing hremove attached current).bind
  exact fun _ _ _ => lockstep_addMissing hadd current attached

end Container

end TrackedFields
