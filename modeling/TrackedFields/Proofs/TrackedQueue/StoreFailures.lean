import TrackedFields.Proofs.TrackedQueue.CleanFailures

/-!
# Failures for the store

A queue that loads, lists or removes elements, or adds elements that were checked before, can fail
only because its store cannot be read. A null element is refused by a check, and by nothing else.
-/

namespace TrackedFields.TrackedQueue

variable {E α β : Type}

/-- An action that fails for its store only. -/
def FailsByStore (action : Action E α) : Prop :=
  ∀ scene failure after, action scene = .error failure after → ∃ error, failure = .store error

namespace FailsByStore

/-- Actions that fail for their stores only, one after the other. -/
theorem bind {action : Action E α} {next : α → Action E β} (h : FailsByStore action)
    (hnext : ∀ a, FailsByStore (next a)) : FailsByStore (action >>= next) := by
  intro scene failure after hafter
  rw [bind_apply] at hafter
  cases haction : action scene with
  | error failure' mid =>
    rw [haction] at hafter
    cases hafter
    exact h scene _ _ haction
  | ok a mid =>
    rw [haction] at hafter
    exact hnext a mid failure after hafter

/-- What never fails. -/
theorem of_total {action : Action E α} (h : Total action) : FailsByStore action := by
  intro scene failure after hafter
  obtain ⟨a, mid, haction⟩ := h scene
  rw [haction] at hafter
  cases hafter

/-- A choice. -/
theorem ite {c : Prop} [Decidable c] {first second : Action E α} (h : FailsByStore first)
    (h' : FailsByStore second) : FailsByStore (if c then first else second) := by
  split
  · exact h
  · exact h'

/-- Looking at the queue. -/
theorem current : FailsByStore (current (E := E)) := of_total fun scene => ⟨_, scene, rfl⟩

/-- Looking at the content. -/
theorem content? : FailsByStore (Tracked.content? : Action E (QueueContent E)) :=
  of_total fun scene => ⟨_, scene, rfl⟩

end FailsByStore

open FailsByStore (of_total)

/-- Reading a store fails for the store. -/
theorem failsByStore_read (name : StoreName) (action : StoreAction E α) :
    FailsByStore (read name action) := by
  intro scene failure after h
  unfold read at h
  split at h
  · cases h
  · cases h
    exact ⟨_, rfl⟩

/-- Reading, wherever it is done, fails for the store. -/
theorem failsByStore_readEither (fromStore : Bool) (action : ObjectId → StoreAction E α)
    (fromMemory : QueueContent E → α) :
    FailsByStore (readEither fromStore action fromMemory) := by
  refine FailsByStore.current.bind fun q => ?_
  cases q.tracker.channel with
  | none => exact of_total (.pure _)
  | some channel => exact .ite (failsByStore_read _ _) (of_total (.pure _))

/-- Preparing a queue fails for the store. -/
theorem failsByStore_ensureLoaded : FailsByStore (ensureLoaded (E := E)) := by
  have hload : FailsByStore (loadFromStore (E := E)) := by
    refine FailsByStore.current.bind fun q => ?_
    cases q.tracker.channel with
    | none => exact of_total (.pure _)
    | some channel =>
      exact .ite (of_total (.pure _))
        ((failsByStore_read _ _).bind fun _ => of_total (.modify _))
  exact FailsByStore.content?.bind fun _ => .ite hload (of_total (.pure _))

/-- Listing the elements fails for the store. -/
theorem failsByStore_toList : FailsByStore (toList (E := E)) :=
  failsByStore_ensureLoaded.bind fun _ => FailsByStore.content?.bind fun _ =>
    failsByStore_readEither _ _ _

variable [DecidableEq E]

/-- Removing one occurrence of an element fails for the store. -/
theorem failsByStore_removeWith (e : E) (cascade : Bool) :
    FailsByStore (removeWith e cascade) := by
  refine failsByStore_ensureLoaded.bind fun _ => FailsByStore.current.bind fun q => ?_
  dsimp only
  split
  · exact of_total <| (Total.pure _).bind fun _ => (total_setElements _).bind fun _ =>
      (total_forward _ _).bind fun _ => (total_announce _).bind fun _ =>
        total_changed.bind fun _ => .pure _
  · refine (FailsByStore.current.bind fun _ => failsByStore_readEither _ _ _).bind fun _ => ?_
    exact of_total <| (total_setElements _).bind fun _ => (total_forward _ _).bind fun _ =>
      (total_announce _).bind fun _ => total_changed.bind fun _ => .pure _

/-- Adding without asking for null elements fails for the store. -/
theorem failsByStore_addUnchecked (operation : String)
    (store : ObjectId → Option Nat → StoreAction E Bool) (new : List E) :
    FailsByStore (addUnchecked operation store new) :=
  failsByStore_ensureLoaded.bind fun _ => FailsByStore.current.bind fun _ =>
    of_total <| (total_forward _ _).bind fun _ => (total_setElements _).bind fun _ =>
      (total_announce _).bind fun _ => total_changed.bind fun _ => .pure _

end TrackedFields.TrackedQueue
