import TrackedFields.Proofs.Lockstep
import TrackedFields.Proofs.Tracked.Tells
import TrackedFields.Proofs.Tracked.Untouched

/-!
# Containers with different trackers

A plan for a container looks at the tracker only to refuse null elements. Containers that hold the
same and allow the same therefore change alike, whoever their owners are and however their changes
reach the datastore: from peers, calls answer the same or fail for the same reason, and leave peers.
Only the name of the field in a refusal may differ.
-/

namespace TrackedFields

namespace Tracker

/-- Two fields refuse a null element, each by its own name. -/
def NullRefusal (t t' : Tracker) (failure failure' : Failure) : Prop :=
  failure = .nullElement (t.fieldName.getD "unowned") ∧
    failure' = .nullElement (t'.fieldName.getD "unowned")

/-- Two fields refuse a call for the same reason. -/
inductive Refusal (t t' : Tracker) : Failure → Failure → Prop where
  | null {failure failure' : Failure} (h : NullRefusal t t' failure failure') :
      Refusal t t' failure failure'
  | position (index length : Nat) :
      Refusal t t' (.indexOutOfBounds index length) (.indexOutOfBounds index length)

/-- Two computations give the same, or fail since two fields refuse. -/
inductive Concur {α : Type} (t t' : Tracker) : Except Failure α → Except Failure α → Prop where
  | ok (a : α) : Concur t t' (.ok a) (.ok a)
  | error {failure failure' : Failure} (h : Refusal t t' failure failure') :
      Concur t t' (.error failure) (.error failure')

variable {t t' : Tracker} {α β : Type}

/-- A field fails like itself, and never for its store. -/
theorem Refusal.eq {failure failure' : Failure} (h : Refusal t t failure failure') :
    failure = failure' ∧ ∀ error, failure ≠ .store error := by
  rcases h with ⟨rfl, rfl⟩ | ⟨index, length⟩
  · exact ⟨rfl, fun _ h => by cases h⟩
  · exact ⟨rfl, fun _ h => by cases h⟩

/-- Computations that concur, one after the other. -/
theorem Concur.bind {first first' : Except Failure α} {next next' : α → Except Failure β}
    (h : Concur t t' first first') (hnext : ∀ a, Concur t t' (next a) (next' a)) :
    Concur t t' (first >>= next) (first' >>= next') := by
  cases h with
  | ok a => exact hnext a
  | error hrefusal => exact .error hrefusal

variable {E : Type} [Element E]

/-- Elements are refused for a null element among them only, by the name of the field. -/
theorem checkAll_eq (t : Tracker) (es : List E) :
    t.checkAll es =
      if es.any Element.isNull && !t.allowNulls then
        .error (.nullElement (t.fieldName.getD "unowned"))
      else .ok () := by
  unfold checkAll
  induction es with
  | nil => rfl
  | cons e es ih =>
    change (t.check e >>= fun _ => es.forM t.check) = _
    rw [ih, check, List.any_cons]
    cases Element.isNull e <;> cases t.allowNulls <;> cases es.any Element.isNull <;> rfl

/-- An element that is not null is accepted. -/
theorem check_of_not_null (t : Tracker) {e : E} (he : Element.isNull e = false) :
    t.check e = .ok () := by
  rw [check, he]
  rfl

/-- A null element is refused where null elements are forbidden. -/
theorem check_of_null {e : E} (hnulls : t.allowNulls = false) (he : Element.isNull e = true) :
    t.check e = .error (.nullElement (t.fieldName.getD "unowned")) := by
  rw [check, he, hnulls]
  rfl

/-- A single element is checked like a list of one. -/
theorem check_eq_checkAll (t : Tracker) (e : E) : t.check e = t.checkAll [e] := by
  rw [checkAll_eq, check, List.any_cons, List.any_nil, Bool.or_false]

/-- Fields with the same null policy check lists alike. -/
theorem concur_checkAll (h : t.allowNulls = t'.allowNulls) (es : List E) :
    Concur t t' (t.checkAll es) (t'.checkAll es) := by
  rw [checkAll_eq, checkAll_eq, h]
  split
  · exact .error (.null ⟨rfl, rfl⟩)
  · exact .ok ()

/-- Fields with the same null policy check alike. -/
theorem concur_check (h : t.allowNulls = t'.allowNulls) (e : E) :
    Concur t t' (t.check e) (t'.check e) := by
  rw [check_eq_checkAll, check_eq_checkAll]
  exact concur_checkAll h [e]

end Tracker

namespace Tracked

variable {C E α β : Type} {t t' : Tracker} {S : Session E → Session E → Prop}

/-- Containers that hold the same, each with a tracker of its own. -/
structure Peers (t t' : Tracker) (S : Session E → Session E → Prop)
    (scene scene' : Scene (Tracked C) E) : Prop where
  tracker : scene.value.tracker = t
  tracker' : scene'.value.tracker = t'
  content : scene.value.content = scene'.value.content
  sessions : S scene.session scene'.session

/-- A call that does not tell peers apart. -/
def Neutral (t t' : Tracker) (S : Session E → Session E → Prop)
    (action : TrackedAction (Tracked C) E α) : Prop :=
  Lockstep (Peers t t' S) (t.Refusal t') Eq action action

namespace Neutral

/-- Answering. -/
theorem pure (a : α) : Neutral t t' S (Pure.pure a : TrackedAction (Tracked C) E α) :=
  Lockstep.pure rfl

/-- Neutral calls, one after the other. -/
theorem bind {action : TrackedAction (Tracked C) E α} {next : α → TrackedAction (Tracked C) E β}
    (h : Neutral t t' S action) (hnext : ∀ a, Neutral t t' S (next a)) :
    Neutral t t' S (action >>= next) := by
  apply Lockstep.bind h
  rintro a _ rfl
  exact hnext a

/-- A choice between neutral calls. -/
theorem ite {c : Prop} [Decidable c] {first second : TrackedAction (Tracked C) E α}
    (h : Neutral t t' S first) (h' : Neutral t t' S second) :
    Neutral t t' S (if c then first else second) := Lockstep.ite h h'

/-- Ignoring an answer. -/
theorem discard {action : TrackedAction (Tracked C) E α} (h : Neutral t t' S action) :
    Neutral t t' S (Functor.discard action) := Lockstep.mono (Lockstep.discard h) fun _ _ _ => rfl

/-- Asking for the content. -/
theorem content? : Neutral t t' S (Tracked.content? : TrackedAction (Tracked C) E C) :=
  fun _ _ h => .ok h.content h

/-- Replacing the content. -/
theorem setContent (content : C) :
    Neutral t t' S (Tracked.setContent content : TrackedAction (Tracked C) E Unit) :=
  fun _ _ h => .ok rfl ⟨h.tracker, h.tracker', rfl, h.sessions⟩

section Tells

variable [DecidableEq E] [Element E] (htandem : t.Tandem t' S)
include htandem

/-- Marking the field. -/
theorem makeDirty : Neutral t t' S (Tracked.makeDirty : TrackedAction (Tracked C) E Unit) := by
  intro scene scene' h
  have hsessions := htandem.markDirty h.sessions
  rw [← h.tracker, ← h.tracker'] at hsessions
  exact .ok rfl ⟨h.tracker, h.tracker', h.content, hsessions⟩

/-- Taking in elements from outside the session. -/
theorem attach (es : List E) :
    Neutral t t' S (Tracked.attach es : TrackedAction (Tracked C) E Unit) := by
  intro scene scene' h
  have hsessions := htandem.tells' (.attach es _) (htandem.tells (.attach es _) h.sessions)
  rw [← h.tracker, ← h.tracker'] at hsessions
  exact .ok rfl ⟨h.tracker, h.tracker', h.content, hsessions⟩

/-- Carrying out a plan that uses the tracker for checks only. -/
theorem mutate {plan : Tracker → C → Except Failure (Change C E α)}
    (hplan : ∀ content, t.Concur t' (plan t content) (plan t' content)) :
    Neutral t t' S (Tracked.mutate plan) := by
  intro scene scene' h
  have hconcur := hplan scene.value.content
  unfold Tracked.mutate
  dsimp only
  rw [h.tracker, h.tracker', ← h.content]
  generalize plan t _ = outcome, plan t' _ = outcome' at hconcur ⊢
  cases hconcur with
  | error hrefusal => exact .error hrefusal h
  | ok change =>
    cases change with
    | nothing answer => exact .ok rfl h
    | made answer content report =>
      refine .ok rfl ⟨rfl, rfl, rfl, htandem.changed ?_⟩
      exact htandem.tells' (.announce report _) (htandem.tells (.announce report _) h.sessions)

end Tells

end Neutral

end Tracked

/-- Reconciling peers with a list is neutral if listing, removing and adding are. -/
theorem Container.neutral_reconcile {C E : Type} [DecidableEq E] [Element E] [Container C E]
    {t t' : Tracker} {S : Session E → Session E → Prop}
    (helements : Tracked.Neutral t t' S (elements (C := C) (E := E)))
    (hremove : ∀ e : E, Tracked.Neutral t t' S (remove (C := C) e false))
    (hadd : ∀ e : E, Tracked.Neutral t t' S (add (C := C) e)) (attached : List E) :
    Tracked.Neutral t t' S (reconcile (C := C) attached) :=
  Lockstep.mono (lockstep_reconcile helements hremove hadd attached) fun _ _ _ => rfl

/-! ### Lists -/

namespace TrackedList

open Tracked (Neutral)
open Tracker (Concur)

variable {E : Type} [DecidableEq E] [Element E] {t t' : Tracker}
  {S : Session E → Session E → Prop} (htandem : t.Tandem t' S)
include htandem

/-- Removing an element. -/
theorem neutral_removeWith (e : E) (cascade : Bool) : Neutral t t' S (removeWith e cascade) := by
  refine .mutate htandem fun es => ?_
  dsimp only
  split <;> exact .ok _

/-- Removing the element at a position. -/
theorem neutral_removeAtWith (index : Nat) (cascade : Bool) :
    Neutral t t' S (removeAtWith (E := E) index cascade) := by
  refine .mutate htandem fun es => ?_
  dsimp only
  split
  · exact .error (.position index es.length)
  · exact .ok _

/-- Removing the elements that meet a test. -/
theorem neutral_removeWhere (doomed : E → Bool) : Neutral t t' S (removeWhere doomed) := by
  refine .mutate htandem fun es => ?_
  dsimp only
  split <;> exact .ok _

/-- Removing everything. -/
theorem neutral_clear : Neutral t t' S (clear (E := E)) := .mutate htandem fun _ => .ok _

/-- Rearranging the elements. -/
theorem neutral_reorder (arrange : List E → List E) : Neutral t t' S (reorder arrange) := by
  refine .mutate htandem fun es => ?_
  dsimp only
  split <;> exact .ok _

/-- Adding an element, once it is checked. -/
theorem neutral_add (e : E) : Neutral t t' S (add e) :=
  .mutate htandem fun _ => (Tracker.concur_check htandem.allowNulls e).bind fun _ => .ok _

/-- Adding elements, once all are checked. -/
theorem neutral_addAll (new : List E) : Neutral t t' S (addAll new) := by
  refine .mutate htandem fun _ => (Tracker.concur_checkAll htandem.allowNulls new).bind fun _ => ?_
  split <;> exact .ok _

/-- Inserting an element at a position. -/
theorem neutral_insert (index : Nat) (e : E) : Neutral t t' S (insert index e) := by
  refine .mutate htandem fun es => ?_
  split
  · exact .error (.position index es.length)
  · exact (Tracker.concur_check htandem.allowNulls e).bind fun _ => .ok _

/-- Inserting elements from a position on. -/
theorem neutral_insertAll (index : Nat) (new : List E) : Neutral t t' S (insertAll index new) := by
  refine .mutate htandem fun es => ?_
  by_cases hindex : es.length < index
  · simp only [if_pos hindex]
    exact .error (.position index es.length)
  · simp only [if_neg hindex]
    refine (Tracker.concur_checkAll htandem.allowNulls new).bind fun _ => ?_
    split <;> exact .ok _

/-- Replacing the element at a position. -/
theorem neutral_setWith (index : Nat) (e : E) (cascade : Bool) :
    Neutral t t' S (setWith index e cascade) := by
  refine .mutate htandem fun es => ?_
  dsimp only
  split
  · exact .error (.position index es.length)
  · exact (Tracker.concur_check htandem.allowNulls e).bind fun _ => .ok _

/-- Surplus members go from both lists. -/
theorem neutral_trim (target : List E) (n : Nat) : Neutral t t' S (trim target n) := by
  induction n with
  | zero => exact .pure ()
  | succ n ih =>
    refine Neutral.content?.bind fun es => ?_
    dsimp only
    split
    · exact (neutral_removeAtWith htandem n false).discard.bind fun _ => ih
    · exact ih

/-- Missing members enter both lists. -/
theorem neutral_fill (target : List E) (index : Nat) (rest : List E) :
    Neutral t t' S (fill target index rest) := by
  induction rest generalizing index with
  | nil => exact .pure ()
  | cons e rest ih =>
    refine Neutral.content?.bind fun es => ?_
    dsimp only
    split
    · exact (neutral_insert htandem _ e).bind fun _ => ih (index + 1)
    · exact ih (index + 1)

/-- Attaching a copy: each of its passes is a change of the list. -/
theorem neutral_attachCopy (target : List E) : Neutral t t' S (attachCopy target) :=
  (Neutral.attach htandem _).bind fun _ => Neutral.content?.bind fun es =>
    (neutral_trim htandem target es.length).bind fun _ =>
      (neutral_fill htandem target 0 target).bind fun _ => neutral_reorder htandem _

end TrackedList

/-! ### Sets -/

namespace TrackedSet

open Tracked (Neutral)

variable {E : Type} [DecidableEq E] [Element E] {t t' : Tracker}
  {S : Session E → Session E → Prop} (htandem : t.Tandem t' S)
include htandem

/-- Removing listed members. -/
theorem neutral_removeListed (es : List E) (cascade : Bool) :
    Neutral t t' S (removeListed es cascade) := by
  refine .mutate htandem fun members => ?_
  dsimp only
  split <;> exact .ok _

/-- Keeping listed members only. -/
theorem neutral_retainAll (keep : List E) : Neutral t t' S (retainAll keep) := by
  refine .mutate htandem fun members => ?_
  dsimp only
  split <;> exact .ok _

/-- Removing all members. -/
theorem neutral_clear : Neutral t t' S (clear (E := E)) := .mutate htandem fun _ => .ok _

/-- Adding members, once all are checked. -/
theorem neutral_addAll (es : List E) : Neutral t t' S (addAll es) := by
  refine .mutate htandem fun _ => (Tracker.concur_checkAll htandem.allowNulls es).bind fun _ => ?_
  dsimp only
  split <;> exact .ok _

/-- Taking in the difference to a value from outside. -/
theorem neutral_reconcile (attached : List E) :
    Neutral t t' S (Container.reconcile (C := ElementSet E) attached) :=
  Container.neutral_reconcile (Neutral.content?.bind fun _ => .pure _)
    (fun e => neutral_removeListed htandem [e] false) (fun e => neutral_addAll htandem [e]) attached

/-- Attaching a copy takes in the difference to it. -/
theorem neutral_attachCopy (target : ElementSet E) : Neutral t t' S (attachCopy target) :=
  (Neutral.attach htandem _).bind fun _ => neutral_reconcile htandem target.toList

end TrackedSet

end TrackedFields
