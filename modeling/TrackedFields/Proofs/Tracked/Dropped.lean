import TrackedFields.Proofs.Session.Heard
import TrackedFields.Proofs.Tracked.Tells

/-!
# Trackers whose owner is gone

An owner that has left the memory can be told of no mark and no update any more. That is all that
its absence changes: relation changes, operations to queue, deletions and store calls are passed on
as before, as long as there is a relation, a queue, a dependent element or a store to pass them on
to.
-/

namespace TrackedFields

namespace Session

variable {E : Type} {s mid after : Session E}

/-- Between two moments, a session was asked for nothing but to take in elements from outside. -/
def OnlyAttached (s after : Session E) : Prop :=
  ∃ attachments : List (E × Bool), after =
    s.record (attachments.map fun (e, withoutIdentity) => .attached e withoutIdentity)

namespace OnlyAttached

/-- Nothing was asked for between a moment and itself. -/
theorem refl (s : Session E) : s.OnlyAttached s := by
  refine ⟨[], ?_⟩
  rw [List.map_nil, record, List.append_nil]

/-- Attachments come one after the other. -/
theorem trans (h : s.OnlyAttached mid) (h' : mid.OnlyAttached after) : s.OnlyAttached after := by
  obtain ⟨attachments, rfl⟩ := h
  obtain ⟨more, rfl⟩ := h'
  refine ⟨attachments ++ more, ?_⟩
  simp only [record, List.map_append, List.append_assoc]

/-- Attaching queues nothing. -/
theorem pending_eq (h : s.OnlyAttached after) : after.pending = s.pending := by
  obtain ⟨_, rfl⟩ := h
  rfl

/-- Attaching calls no store. -/
theorem stores_eq (h : s.OnlyAttached after) : after.stores = s.stores := by
  obtain ⟨_, rfl⟩ := h
  rfl

/-- Attaching marks no field. -/
theorem unmarked (h : s.OnlyAttached after) : s.Unmarked after := by
  obtain ⟨attachments, rfl⟩ := h
  apply Unmarked.record
  intro effect hmem
  obtain ⟨attachment, -, rfl⟩ := List.mem_map.mp hmem
  simp

/-- Attaching deletes no record. -/
theorem deletions_eq (h : s.OnlyAttached after) : after.deletions = s.deletions := by
  obtain ⟨attachments, rfl⟩ := h
  apply s.deletions_record
  intro effect hmem
  obtain ⟨attachment, -, rfl⟩ := List.mem_map.mp hmem
  simp

/-- Attaching tells no owner anything. -/
theorem heard_eq (h : s.OnlyAttached after) (id : ObjectId) : after.heard id = s.heard id := by
  obtain ⟨attachments, rfl⟩ := h
  apply s.heard_record id
  intro effect hmem
  obtain ⟨attachment, -, rfl⟩ := List.mem_map.mp hmem
  simp

end OnlyAttached

end Session

namespace Tracker

variable {E : Type} {t : Tracker} {o : Owner} {s after : Session E}

/-- A container has nobody to tell of a change but its owner: relations are not managed, changes
stay in memory, and the elements are not dependent. -/
structure Mute (t : Tracker) (o : Owner) (s : Session E) : Prop where
  unmanaged : s.settings.manageRelationships = false
  memory : t.dispatch = .memory
  independent : o.descriptor.hasDependentElement = false

/-- Taking in elements from outside is an attachment. -/
theorem onlyAttached_attach [Element E] (t : Tracker) (es : List E) (s : Session E) :
    s.OnlyAttached (t.attach es s) := by
  rw [attach]
  cases t.owner with
  | none => exact .refl s
  | some owner =>
    refine ⟨es.map (·, owner.descriptor.hasElementsWithoutIdentity), ?_⟩
    rw [List.map_map]
    rfl

section Dropped

variable (howner : t.owner = some o)
include howner

/-- The end of a change is not heard by an owner that is gone. -/
theorem changed_of_dropped (hdropped : s.isAlive o.id = false) : t.changed s = s := by
  rw [changed, howner]
  exact if_neg (by rw [hdropped]; exact Bool.false_ne_true)

/-- A mark does not reach an owner that is gone. -/
theorem markDirty_of_dropped (hdropped : s.isAlive o.id = false) : t.markDirty s = s := by
  rw [markDirty, howner]
  exact if_neg (by rw [hdropped]; exact Bool.false_ne_true)

variable [DecidableEq E]

/-- Who has nobody to tell announces nothing. -/
theorem Mute.announce_eq (h : t.Mute o s) (report : Report E) : t.announce report s = s := by
  have hrelate : t.relate report.relations s = s := by
    rw [relate, howner]
    exact if_neg (by rw [h.unmanaged]; exact Bool.false_ne_true)
  have hcascade : t.cascade report.orphans s = s := by
    rw [cascade, h.memory, howner]
    exact if_neg (by rw [h.independent]; exact Bool.false_ne_true)
  rw [announce, hrelate, enqueue, h.memory, hcascade]

/-- If the owner hears of no relation change, relations are not managed. -/
theorem unmanaged_of_heard_eq {report : Report E} (hrelations : report.relations ≠ [])
    (h : (t.announce report s).heard o.id = s.heard o.id) :
    s.settings.manageRelationships = false := by
  rw [heard_announce s howner] at h
  have hnone := List.append_right_eq_self.mp (congrArg News.relations h)
  cases hmanaged : s.settings.manageRelationships with
  | false => rfl
  | true =>
    have hhearing : (s.hearing o.id).managed = true := hmanaged
    unfold Hearing.news at hnone
    rw [hhearing, if_pos rfl] at hnone
    exact absurd (List.map_eq_nil_iff.mp hnone) hrelations

/-- If nothing is queued, changes do not wait. -/
theorem not_isQueued_of_pending_eq {report : Report E} (hoperations : report.operations ≠ [])
    (h : (t.announce report s).pending = s.pending) : t.isQueued = false := by
  rw [pending_announce, List.append_right_eq_self] at h
  cases hdispatch : t.dispatch with
  | queued store =>
    rw [queued_eq_map howner hdispatch, List.map_eq_nil_iff] at h
    exact absurd h hoperations
  | memory => rw [isQueued, hdispatch]
  | immediate name => rw [isQueued, hdispatch]

/-- If an element comes and goes without a trace, there was nobody to tell of it. -/
theorem mute_of_onlyAttached {s₁ s₂ : Session E} {e : E}
    (hdefers : ∀ name, t.dispatch ≠ .immediate name) (h₁ : s.OnlyAttached s₁)
    (hadded : s₂ = t.announce (.added [e]) s₁) (h₂ : s.OnlyAttached s₂)
    (h₃ : s.OnlyAttached (t.announce (.cleared [e]) s₂)) : t.Mute o s := by
  subst hadded
  have hqueued : t.isQueued = false :=
    not_isQueued_of_pending_eq howner (List.cons_ne_nil _ _)
      (h₂.pending_eq.trans h₁.pending_eq.symm)
  have hmemory : t.dispatch = .memory := by
    cases hdispatch : t.dispatch with
    | memory => rfl
    | immediate name => exact absurd hdispatch (hdefers name)
    | queued store =>
      rw [isQueued, hdispatch] at hqueued
      cases hqueued
  refine ⟨?_, hmemory, ?_⟩
  · rw [← h₁.unmarked.settings]
    exact unmanaged_of_heard_eq howner (List.cons_ne_nil _ _)
      ((h₂.heard_eq o.id).trans (h₁.heard_eq o.id).symm)
  · cases hdependent : o.descriptor.hasDependentElement with
    | false => rfl
    | true =>
      have hdeletions := h₃.deletions_eq.trans h₂.deletions_eq.symm
      rw [deletions_announce_memory _ howner hmemory hdependent] at hdeletions
      have hnone := List.append_right_eq_self.mp hdeletions
      cases hnone

variable [Element E]

/-- What a container asks of a session while its owner is gone marks nothing. -/
theorem tandem_of_dropped (hdropped : s.isAlive o.id = false) :
    t.Tandem t.unsetOwner fun (after : Session E) (_ : Session E) => s.Unmarked after where
  allowNulls := rfl
  tells := fun h hs => hs.trans h.unmarked
  tells' := fun _ hs => hs
  markDirty := fun hs => by
    rwa [markDirty_of_dropped howner ((hs.isAlive_eq o.id).trans hdropped)]
  changed := fun hs => by
    rwa [changed_of_dropped howner ((hs.isAlive_eq o.id).trans hdropped)]

/-- Who has nobody to tell asks the session for attachments only. -/
theorem Mute.tells (h : t.Mute o s) (htells : t.Tells s after) : s.OnlyAttached after := by
  cases htells with
  | announce report =>
    rw [h.announce_eq howner report]
    exact .refl s
  | enqueue kinds =>
    rw [enqueue, h.memory]
    exact .refl s
  | attach es => exact t.onlyAttached_attach es s
  | call operation action =>
    rw [call, channel, h.memory]
    exact .refl s

/-- Who has nobody to tell but an owner that is gone asks the session for attachments only. -/
theorem tandem_of_mute (hdropped : s.isAlive o.id = false) (hmute : t.Mute o s) :
    t.Tandem t.unsetOwner fun (after : Session E) (_ : Session E) => s.OnlyAttached after where
  allowNulls := rfl
  tells := fun h hs => by
    refine hs.trans (Mute.tells howner ⟨?_, hmute.memory, hmute.independent⟩ h)
    rw [hs.unmarked.settings, hmute.unmanaged]
  tells' := fun _ hs => hs
  markDirty := fun hs => by
    rwa [markDirty_of_dropped howner ((hs.unmarked.isAlive_eq o.id).trans hdropped)]
  changed := fun hs => by
    rwa [changed_of_dropped howner ((hs.unmarked.isAlive_eq o.id).trans hdropped)]

end Dropped

end Tracker

end TrackedFields
