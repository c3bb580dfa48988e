import TrackedFields.Session.Basic

/-!
# Flushing a session

A flush replays the waiting operations against their stores, in the order in which they came. It
stops at the first one that fails; that one and all after it keep waiting, so that every operation
is carried out once, and none before an earlier one.
-/

namespace TrackedFields

/-- Why a waiting operation could not be replayed. -/
inductive ReplayError where
  /-- Neither the operation nor the flush names a store. -/
  | noStore (operation : String) (owner : ObjectId) (field : FieldOrdinal)
  /-- The store failed. -/
  | failed (operation : String) (field : FieldOrdinal) (error : StoreError)
  deriving DecidableEq

namespace ReplayError

/-- The text of a replay error. -/
def message : ReplayError → String
  | noStore operation owner field =>
    "no backing store to replay " ++ operation ++ " on field " ++ field.text ++ " of "
      ++ owner.text
  | failed operation field error =>
    "replaying " ++ operation ++ " on field " ++ field.text ++ " failed: " ++ error.message

end ReplayError

namespace Session

variable {E : Type} [DecidableEq E]

/-- Carry out one operation on its own store, or else on the default one. -/
def replay (default : Option StoreName) (operation : Operation E) :
    EStateM ReplayError (Session E) Unit :=
  match operation.store.or default with
  | none => throw (.noStore operation.kind.name operation.owner operation.field)
  | some name => EStateM.adaptExcept (.failed operation.kind.name operation.field)
      (access name (operation.kind.perform operation.owner))

/-- Replay operations in order, keeping those that are left in the queue; tells how many were
carried out. -/
def replayAll (default : Option StoreName) :
    List (Operation E) → EStateM ReplayError (Session E) Nat
  | [] => return 0
  | operation :: rest => do
    replay default operation
    modify fun s => { s with pending := rest }
    return (← replayAll default rest) + 1

/-- Let no operation wait any more. -/
def discardPending (s : Session E) : Session E := { s with pending := [] }

/-- Replay all waiting operations. -/
def flush (default : Option StoreName) : EStateM ReplayError (Session E) Nat := do
  replayAll default (← get).pending

end Session

end TrackedFields
