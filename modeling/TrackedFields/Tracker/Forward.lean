import TrackedFields.Tracker.Basic

/-!
# Forwarding changes to the store

A change can be made in the store of its container as well. A store that fails then does not fail
the change: the failure is noted in the journal, and the change in memory stands.
-/

namespace TrackedFields

/-- How a change that was forwarded to a container's store ended. -/
inductive Forwarded (α : Type) where
  /-- There was no call. -/
  | skipped
  | applied (answer : α)
  /-- The store failed, which the journal tells. -/
  | failed
  deriving DecidableEq

namespace Tracker

variable {E α : Type}

/-- Call the store of the container, if it has one. -/
def call (t : Tracker) (operation : String) (action : ObjectId → StoreAction E α)
    (s : Session E) : Forwarded α × Session E :=
  match t.channel with
  | none => (.skipped, s)
  | some (store, owner) =>
    match Session.access store (action owner) s with
    | .ok answer s => (.applied answer, s)
    | .error error s => (.failed, s.record [.warned operation (t.place s) error])

/-- Make a change in the store of the container, if changes are made there right away. -/
def forward (t : Tracker) (operation : String) (action : ObjectId → StoreAction E α)
    (s : Session E) : Forwarded α × Session E :=
  match t.dispatch with
  | .immediate _ => t.call operation action s
  | .memory | .queued _ => (.skipped, s)

end Tracker

end TrackedFields
