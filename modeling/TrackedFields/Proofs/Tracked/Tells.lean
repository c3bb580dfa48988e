import TrackedFields.Proofs.Session.Unmarked
import TrackedFields.TrackedList.Attach
import TrackedFields.TrackedQueue.Replace
import TrackedFields.TrackedSet

/-!
# What containers do to their sessions

Whatever a container changes about its session goes through its tracker: it reports, it calls its
store, and it marks its field. Whatever two sessions have to do with each other and survives each of
these requests survives the same call on two containers that hold the same. A container without
owner makes no request at all.
-/

namespace TrackedFields

namespace Tracker

/-- A request for a change that a container makes of its session, other than marking its field. -/
inductive Tells {E : Type} [DecidableEq E] [Element E] (t : Tracker) :
    Session E → Session E → Prop where
  | announce (report : Report E) (s : Session E) : Tells t s (t.announce report s)
  | enqueue (kinds : List (OperationKind E)) (s : Session E) : Tells t s (t.enqueue kinds s)
  | attach (es : List E) (s : Session E) : Tells t s (t.attach es s)
  | call {α : Type} (operation : String) (action : ObjectId → StoreAction E α) (s : Session E) :
      Tells t s (t.call operation action s).2

variable {E : Type} [DecidableEq E] [Element E] {t t' : Tracker} {s after : Session E}

/-- No request marks a field. -/
theorem Tells.unmarked (h : t.Tells s after) : s.Unmarked after := by
  cases h with
  | announce report => exact unmarked_announce t report s
  | enqueue kinds => exact unmarked_enqueue t kinds s
  | attach es =>
    unfold Tracker.attach
    split
    · exact .refl s
    · exact .record s (by simp)
  | call operation action => exact unmarked_call t operation action s

/-- Making a change in the store is a call of it, if anything. -/
theorem Tells.forward {α : Type} (t : Tracker) (operation : String)
    (action : ObjectId → StoreAction E α) (s : Session E) :
    (t.forward operation action s).2 = s ∨ t.Tells s (t.forward operation action s).2 := by
  unfold Tracker.forward
  cases t.dispatch with
  | immediate name => exact .inr (.call operation action s)
  | memory => exact .inl rfl
  | queued store => exact .inl rfl

/-- A relation between the sessions of two containers that survives the requests of both, if they
mark their fields at the same time. The containers allow the same elements. -/
structure Tandem (t t' : Tracker) (S : Session E → Session E → Prop) : Prop where
  allowNulls : t.allowNulls = t'.allowNulls
  tells : ∀ {s s' after}, t.Tells s after → S s s' → S after s'
  tells' : ∀ {s s' after}, t'.Tells s' after → S s s' → S s after
  markDirty : ∀ {s s'}, S s s' → S (t.markDirty s) (t'.markDirty s')
  changed : ∀ {s s'}, S s s' → S (t.changed s) (t'.changed s')

/-- A relation between two sessions, seen from the other one. -/
theorem Tandem.symm {S : Session E → Session E → Prop} (h : t.Tandem t' S) :
    t'.Tandem t fun s s' => S s' s where
  allowNulls := h.allowNulls.symm
  tells := h.tells'
  tells' := h.tells
  markDirty := h.markDirty
  changed := h.changed

/-- A change that one of two containers may make in its store survives like a call. -/
theorem Tandem.forward {S : Session E → Session E → Prop} (h : t.Tandem t' S) {α : Type}
    (operation : String) (action : ObjectId → StoreAction E α) {s' : Session E} (hs : S s s') :
    S (t.forward operation action s).2 s' := by
  rcases Tells.forward t operation action s with hsame | htells
  · rwa [hsame]
  · exact h.tells htells hs

/-! ### Without owner -/

section Severed

variable (howner : t.owner = none)
include howner

/-- Without owner there is no store to call. -/
theorem channel_of_severed : t.channel = none := by
  unfold channel
  split
  · next howner' => rw [howner] at howner'; cases howner'
  · next howner' => rw [howner] at howner'; cases howner'
  · rfl

omit [Element E] in
/-- Without owner, nobody is told of a change. -/
theorem announce_of_severed (report : Report E) (s : Session E) : t.announce report s = s := by
  unfold announce cascade enqueue relate
  rw [howner]
  cases t.dispatch <;> rfl

omit [DecidableEq E] [Element E] in
/-- Without owner, nothing is queued. -/
theorem enqueue_of_severed (kinds : List (OperationKind E)) (s : Session E) :
    t.enqueue kinds s = s := by
  unfold enqueue
  rw [howner]
  cases t.dispatch <;> rfl

/-- A container without owner makes no request. -/
theorem Tells.eq_of_severed (h : t.Tells s after) : after = s := by
  cases h with
  | announce report => exact announce_of_severed howner report s
  | enqueue kinds => exact enqueue_of_severed howner kinds s
  | attach es => rw [Tracker.attach, howner]
  | call operation action => rw [Tracker.call, channel_of_severed howner]

omit [DecidableEq E] [Element E] in
/-- Without owner there is no field to mark. -/
theorem markDirty_of_severed (s : Session E) : t.markDirty s = s := by rw [markDirty, howner]

omit [DecidableEq E] [Element E] in
/-- Without owner, nobody hears of the end of a change. -/
theorem changed_of_severed (s : Session E) : t.changed s = s := by rw [changed, howner]

/-- What two sessions have to do with each other stays so. -/
theorem tandem_of_severed (howner' : t'.owner = none) (hnulls : t.allowNulls = t'.allowNulls)
    (S : Session E → Session E → Prop) : t.Tandem t' S where
  allowNulls := hnulls
  tells := fun h hs => h.eq_of_severed howner ▸ hs
  tells' := fun h hs => h.eq_of_severed howner' ▸ hs
  markDirty := fun hs => by rwa [markDirty_of_severed howner, markDirty_of_severed howner']
  changed := fun hs => by rwa [changed_of_severed howner, changed_of_severed howner']

end Severed

end Tracker

end TrackedFields
