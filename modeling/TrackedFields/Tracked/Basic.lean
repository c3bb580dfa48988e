import TrackedFields.Tracker.Report

/-!
# Tracked containers

A tracked container is its content together with its tracker. An operation runs on a scene, the
container and the session around it, and leaves a scene also where it fails.

The changes of a container that lives in memory have one shape: a plan looks at the content and
says what becomes of it and what there is to report. `mutate` carries a plan out. A failed plan
and a plan without change leave the scene alone; any other plan changes the content first, then
reports, and ends with the owner.
-/

namespace TrackedFields

/-- A container of a tracked field. -/
structure Tracked (C : Type) where
  tracker : Tracker
  content : C

/-- A tracked value and the session around it. -/
structure Scene (W E : Type) where
  value : W
  session : Session E

/-- An operation on a tracked value. -/
abbrev TrackedAction (W E α : Type) := EStateM Failure (Scene W E) α

/-- What a plan makes of a container. -/
inductive Change (C E α : Type) where
  /-- The content stays, and nobody is told. -/
  | nothing (answer : α)
  /-- There is new content and something to report. -/
  | made (answer : α) (content : C) (report : Report E)

namespace Tracked

variable {C E α : Type}

/-- The tracker of the container. -/
def tracker? : TrackedAction (Tracked C) E Tracker := return (← get).value.tracker

/-- The content of the container. -/
def content? : TrackedAction (Tracked C) E C := return (← get).value.content

/-- Fail with a failure found by a check. -/
def require (checked : Except Failure Unit) : TrackedAction (Tracked C) E Unit :=
  match checked with
  | .error failure => throw failure
  | .ok () => return ()

/-- Replace the content. Nobody is told. -/
def setContent (content : C) : TrackedAction (Tracked C) E Unit :=
  modify fun scene => { scene with value := { scene.value with content } }

/-- Change the session with the help of the tracker. -/
def report (tell : Tracker → Session E → Session E) : TrackedAction (Tracked C) E Unit :=
  modify fun scene => { scene with session := tell scene.value.tracker scene.session }

/-- Ask something of the session with the help of the tracker. -/
def ask (question : Tracker → Session E → α × Session E) : TrackedAction (Tracked C) E α :=
  fun scene =>
    let (answer, session) := question scene.value.tracker scene.session
    .ok answer { scene with session }

/-- Mark the owning field dirty. -/
def makeDirty : TrackedAction (Tracked C) E Unit := report Tracker.markDirty

/-- Cut the link to the owner. -/
def unsetOwner (w : Tracked C) : Tracked C := { w with tracker := w.tracker.unsetOwner }

variable [DecidableEq E]

/-- Carry out a plan. -/
def mutate (plan : Tracker → C → Except Failure (Change C E α)) :
    TrackedAction (Tracked C) E α :=
  fun scene =>
    let tracker := scene.value.tracker
    match plan tracker scene.value.content with
    | .error failure => .error failure scene
    | .ok (.nothing answer) => .ok answer scene
    | .ok (.made answer content report) => .ok answer {
        value := { tracker, content }
        session := tracker.changed (tracker.announce report scene.session) }

/-- A failed plan leaves the scene alone. -/
theorem eq_of_mutate_error {plan : Tracker → C → Except Failure (Change C E α)}
    {scene after : Scene (Tracked C) E} {failure : Failure}
    (h : mutate plan scene = .error failure after) : after = scene := by
  unfold mutate at h
  dsimp only at h
  split at h
  · cases h
    rfl
  · cases h
  · cases h

/-- Copy elements of the container for use outside the session. -/
def detach [Element E] (es : List E) (seen : Detachment) :
    TrackedAction (Tracked C) E Detachment :=
  ask fun tracker session => tracker.detach es seen session

/-- Take in elements from outside the session. -/
def attach (es : List E) : TrackedAction (Tracked C) E Unit :=
  report fun tracker session => tracker.attach es session

end Tracked

end TrackedFields
