/-!
# Outages

Which of the coming calls a datastore rejects. Any pattern is possible: outages that last, that
start after some calls, or that hit single calls.
-/

namespace TrackedFields

/-- A plan of rejections: `rejects n` says whether the call after the next `n` is rejected. -/
structure Outage where
  rejects : Nat → Bool

namespace Outage

/-- No call is rejected. -/
def never : Outage := ⟨fun _ => false⟩

/-- Every call is rejected. -/
def always : Outage := ⟨fun _ => true⟩

/-- The next `n` calls pass, all later ones are rejected. -/
def after (n : Nat) : Outage := ⟨fun i => n ≤ i⟩

/-- Whether the next call is rejected. -/
def now (o : Outage) : Bool := o.rejects 0

/-- The plan once the next call has been made. -/
def next (o : Outage) : Outage := ⟨fun i => o.rejects (i + 1)⟩

/-- No outage never rejects. -/
@[simp] theorem now_never : never.now = false := rfl

/-- No outage stays none. -/
@[simp] theorem next_never : never.next = never := rfl

/-- A lasting outage rejects. -/
@[simp] theorem now_always : always.now = true := rfl

/-- A lasting outage lasts. -/
@[simp] theorem next_always : always.next = always := rfl

/-- An outage is due once all calls before it are made. -/
@[simp] theorem now_after (n : Nat) : (after n).now = decide (n = 0) := by
  simp [now, after]

/-- Each call brings an outage nearer. -/
@[simp] theorem next_after (n : Nat) : (after n).next = after (n - 1) := by
  unfold next after
  congr 1
  funext i
  exact decide_eq_decide.mpr (by omega)

end Outage

end TrackedFields
