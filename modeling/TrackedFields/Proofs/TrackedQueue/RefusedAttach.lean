import TrackedFields.Proofs.Session.Marks
import TrackedFields.Proofs.Tracked.TrackerIndependence
import TrackedFields.Proofs.Tracked.Reconcile
import TrackedFields.Proofs.Tracked.Unaltered
import TrackedFields.Proofs.TrackedQueue.Notices
import TrackedFields.Proofs.TrackedQueue.StoreFailures

/-!
# Queues that refuse a value

A priority queue that forbids null elements refuses a value with a null element when it comes to
adding it. Every removal and addition before that has told the owner, so that the field is marked
once more, as long as the owner is in memory. Without any, the queue has done no more than to list
its elements.
-/

namespace TrackedFields

variable {E : Type} [DecidableEq E] [Element E]

open Tracked (Brings attached)

namespace TrackedQueue

open Session (Marks)

variable {α : Type} {target : List E} {scene mid after : Scene (TrackedQueue E) E} {o : Owner}

omit [DecidableEq E] [Element E] in
/-- An idle queue is unaltered. -/
theorem Idle.unaltered (h : Idle scene after) : Unaltered listed scene after :=
  ⟨h.listed_eq, h.session.called.pending,
    fun id => congrArg News.relations (h.session.called.heard id),
    fun id => congrArg News.marks (h.session.called.heard id),
    fun name => congrArg Store.View.contents (congrFun h.session.called.views name)⟩

omit [DecidableEq E] in
/-- Taking in elements alters no queue. -/
theorem unaltered_attached (target : List E) (scene : Scene (TrackedQueue E) E) :
    Unaltered listed scene (attached target scene) := by
  apply Tracked.unaltered_attached
  have hstores : (attached target scene).session.stores = scene.session.stores :=
    (scene.value.tracker.onlyAttached_attach target scene.session).stores_eq
  unfold listed Session.store
  rw [hstores]
  rfl

/-- Once a queue has listed its elements, it refuses a null element in the course of removing and
adding. -/
theorem idle_of_refused {field : String}
    (h : attachCopy target scene = .error (.nullElement field) after) :
    ∃ mid, Idle (attached target scene) mid ∧
      (Container.removeMissing target (listed scene) >>= fun _ =>
        Container.addMissing (listed scene) target) mid = .error (.nullElement field) after := by
  change (toList >>= fun es => Container.removeMissing target es >>= fun _ =>
    Container.addMissing es target) (attached target scene) = _ at h
  have hleads := leads_toList (attached target scene) (Idle.refl _)
  rw [bind_apply] at h
  cases htoList : toList (attached target scene) with
  | error failure mid =>
    rw [htoList] at h
    cases h
    obtain ⟨error, herror⟩ := failsByStore_toList _ _ _ htoList
    cases herror
  | ok es mid =>
    rw [htoList] at h hleads
    rw [eq_listed_of_toList htoList, (unaltered_attached target scene).content] at h
    exact ⟨mid, hleads, h⟩

/-- A field was marked since a start. -/
def Marked (o : Owner) (start scene : Scene (TrackedQueue E) E) : Prop :=
  scene.value.tracker = start.value.tracker ∧
    ∃ n, Marks o (n + 1) start.session scene.session

omit [DecidableEq E] [Element E] in
/-- Telling the owner marks its field. -/
theorem Notified.marks (h : Notified scene after) (howner : scene.value.tracker.owner = some o) :
    Marks o 1 scene.session after.session := by
  obtain ⟨mid, hunmarked, hafter⟩ := h.session
  rw [hafter]
  exact (Marks.of_unmarked o hunmarked).trans (Tracker.marks_changed howner mid)

omit [DecidableEq E] [Element E] in
/-- A call that ends with telling the owner takes no mark back. -/
theorem keeps_marked {start : Scene (TrackedQueue E) E}
    (howner : start.value.tracker.owner = some o) {action : Action E α}
    (h : ∀ scene, Leads scene (Idle scene) action fun _ => Notified scene) :
    Keeps (Marked o start) action := by
  rintro scene ⟨htracker, n, hmarks⟩
  have hleads := h scene scene (.refl scene)
  unfold stateAfter
  cases haction : action scene with
  | error failure after =>
    rw [haction] at hleads
    exact ⟨hleads.tracker.trans htracker, n,
      hmarks.trans (.of_unmarked o hleads.session.called.unmarked)⟩
  | ok answer after =>
    rw [haction] at hleads
    have htold := hleads.marks (by rw [htracker, howner])
    exact ⟨hleads.tracker.trans htracker, n + 1, hmarks.trans htold⟩

omit [DecidableEq E] [Element E] in
/-- A call that ends with telling the owner marks the field, if it goes well. -/
theorem brings_marked {start : Scene (TrackedQueue E) E} (hidle : Idle start mid)
    (howner : start.value.tracker.owner = some o) {action : Action E α}
    (h : Leads mid (Idle mid) action fun _ => Notified mid)
    (hfails : ∀ failure after, action mid = .error failure after →
      ∃ error, failure = .store error) : Brings (Marked o start) mid action := by
  have hleads := h mid (.refl mid)
  unfold Brings
  cases haction : action mid with
  | error failure after =>
    obtain ⟨error, rfl⟩ := hfails failure after haction
    intro field hfield
    cases hfield
  | ok answer after =>
    rw [haction] at hleads
    have htold := hleads.marks (by rw [hidle.tracker, howner])
    have hlooks : Marks o 0 start.session mid.session :=
      .of_unmarked o hidle.session.called.unmarked
    exact ⟨hleads.tracker.trans hidle.tracker, 0, hlooks.trans htold⟩

/-- Adding an element that is not null fails for the store. -/
theorem error_of_add {e : E} (he : Element.isNull e = false) {failure : Failure}
    (h : add e mid = .error failure after) : ∃ error, failure = .store error := by
  change (Tracked.require (mid.value.tracker.check e) >>= fun _ =>
    addUnchecked "add" (Store.add · e ·) [e]) mid = _ at h
  rw [Tracker.check_of_not_null _ he] at h
  exact failsByStore_addUnchecked _ _ _ mid failure after h

section Refusals

variable {field : String} (h : attachCopy target scene = .error (.nullElement field) after)
include h

/-- A queue that refuses to attach a value is unaltered if a null element comes first. -/
theorem unaltered_of_nullFirst (hnulls : scene.value.tracker.allowNulls = false)
    (hfirst : Container.NullFirst (listed scene) target) : Unaltered listed scene after := by
  obtain ⟨mid, hidle, hrefused⟩ := idle_of_refused h
  have hrefuse (e : E) (he : Element.isNull e = true) :
      ∃ failure, add e mid = .error failure mid := by
    have hforbids : mid.value.tracker.allowNulls = false := by
      rw [hidle.tracker]
      exact hnulls
    change ∃ failure, (Tracked.require (mid.value.tracker.check e) >>= fun _ =>
      addUnchecked "add" (Store.add · e ·) [e]) mid = .error failure mid
    rw [Tracker.check_of_null hforbids he]
    exact ⟨_, rfl⟩
  rw [Container.unchanged_of_nullFirst hfirst hrefuse hrefused]
  exact (unaltered_attached target scene).trans hidle.unaltered

/-- A queue that refuses to attach a value, and whose owner is in memory, has marked the field
unless a null element comes first. -/
theorem nullFirst_of_unaltered (howner : scene.value.tracker.owner = some o)
    (halive : scene.session.isAlive o.id = true) (hunaltered : Unaltered listed scene after) :
    Container.NullFirst (listed scene) target := by
  by_contra hfirst
  let start := attached target scene
  have howner' : start.value.tracker.owner = some o := howner
  have halive' : start.session.isAlive o.id = true :=
    ((scene.value.tracker.onlyAttached_attach target scene.session).unmarked.isAlive_eq o.id).trans
      halive
  obtain ⟨mid, hidle, hrefused⟩ := idle_of_refused h
  have hmarked : Marked o start after := by
    refine Container.changed_of_not_nullFirst
      (fun e _ => keeps_marked howner' fun _ => leads_removeWith e false)
      (fun e _ => keeps_marked howner' fun _ => leads_add e) (fun e _ _ => ?_)
      (fun e _ _ he => ?_) hfirst hrefused
    · exact brings_marked hidle howner' (leads_removeWith e false)
        (failsByStore_removeWith e false mid)
    · exact brings_marked hidle howner' (leads_add e) fun _ _ => error_of_add he
  obtain ⟨-, n, hmarks⟩ := hmarked
  have hmore := hmarks.marks
  rw [halive', if_pos rfl, hunaltered.marks, (unaltered_attached target scene).marks] at hmore
  have hnone := List.append_right_eq_self.mp hmore.symm
  cases hnone

end Refusals

end TrackedQueue

end TrackedFields
