import TrackedFields.Proofs.Tracked.HarmlessAttach
import TrackedFields.Proofs.Tracked.Told

/-!
# Sets and their stores

A tracked set reports its changes by value only, so that its store may keep the members in any
order. The operations of a report make of a container with the members of the set a container with
the members that the set has then, and the report is exact for the container as it is for the set.
A set that queues its changes therefore never gets away from its store by more than what waits.
-/

namespace TrackedFields.TrackedSet

open Store (Rules)
open Tracked (Alike Faithful Impartial)

variable {E α : Type} [DecidableEq E]

/-- A plan for a set mirrors its changes: whatever order a container keeps the members in, the
reported operations make it keep the members of the changed set, and the report is exact. -/
def Mirrors (allowed : Bool)
    (plan : Tracker → ElementSet E → Except Failure (Change (ElementSet E) E α)) : Prop :=
  ∀ (rules : Rules E) (held : List E) tracker members answer next report,
    rules.Fits held → held.Perm members.toList →
    plan tracker members = .ok (.made answer next report) →
    ∃ after, OperationKind.carryOutAll rules held report.operations = some after ∧
      after.Perm next.toList ∧ report.Exact allowed held after

/-- A set of a field that queues its changes, followed by a store: the store lags behind some
container with the members of the set by what waits. The stores are the given ones. -/
structure Followed (o : Owner) (name : StoreName) (stores : Table StoreName (Store E))
    (scene : Scene (TrackedSet E) E) : Prop where
  owner : scene.value.tracker.owner = some o
  dispatch : scene.value.tracker.dispatch = .queued none
  stores_eq : scene.session.stores = stores
  behind : ∃ held, held.Perm scene.value.content.toList ∧
    scene.session.Behind name none o.id held

/-- A set of a field that queues its changes for a reliable store which holds the members of the
set, in whatever order, while nothing waits. -/
structure Settled (o : Owner) (name : StoreName) (scene : Scene (TrackedSet E) E) : Prop where
  owner : scene.value.tracker.owner = some o
  dispatch : scene.value.tracker.dispatch = .queued none
  inOrder : (scene.session.store name).view.InOrder (scene.session.store name).rules
  reliable : (scene.session.store name).Reliable
  pending : scene.session.pending = []
  contents : ((scene.session.store name).contents o.id).Perm scene.value.content.toList

/-- A settled set is followed by its store. -/
theorem Settled.followed {o : Owner} {name : StoreName} {scene : Scene (TrackedSet E) E}
    (h : Settled o name scene) : Followed o name scene.session.stores scene :=
  ⟨h.owner, h.dispatch, rfl, _, h.contents,
    Session.behind_of_contents h.inOrder h.reliable h.pending rfl⟩

/-- What an action on a set makes due: the deletion of the members that it loses, if losing is
allowed. -/
def Dues (o : Owner) (name : StoreName) (allowed : Bool) (scene after : Scene (TrackedSet E) E) :
    Prop :=
  ∃ lost, after.session.dueDeletions name o.id = scene.session.dueDeletions name o.id ++ lost ∧
    LostForGood allowed scene.value.content.toList after.value.content.toList lost

/-- An action on a set that tells exactly what it loses, and goes on being followed by a store. -/
structure Mirrored (allowed : Bool) (action : Action E α) : Prop where
  faithful : Faithful ElementSet.toList allowed action
  followed : ∀ {o name stores}, Keeps (Followed o name stores) action
  due : ∀ {o name stores scene}, Followed o name stores scene →
    (scene.session.rules name).dependent = true →
      Dues o name allowed scene (stateAfter action scene)

/-- A plan that mirrors its changes is precise. -/
theorem Mirrors.precise {allowed : Bool}
    {plan : Tracker → ElementSet E → Except Failure (Change (ElementSet E) E α)}
    (h : Mirrors allowed plan) : Tracked.Precise ElementSet.toList allowed plan := by
  intro tracker members answer next report hplan
  obtain ⟨after, -, hperm, hexact⟩ := h ⟨none, false⟩ members.toList tracker members answer next
    report (Rules.fits_of_none rfl _) (.refl _) hplan
  exact hexact.congr fun _ => hperm.mem_iff.symm

namespace Mirrored

variable {allowed : Bool}

/-- Carrying out a plan that is impartial and mirrors its changes. -/
theorem of_mutate {plan : Tracker → ElementSet E → Except Failure (Change (ElementSet E) E α)}
    (himpartial : Impartial plan) (hmirrors : Mirrors allowed plan) :
    Mirrored allowed (Tracked.mutate plan) := by
  constructor
  case faithful => exact .of_mutate himpartial hmirrors.precise
  case followed =>
    intro o name stores scene h
    rcases Tracked.mutate_cases plan scene with hsame | ⟨answer, next, report, hmade, hafter⟩
    · rw [hsame]
      exact h
    · obtain ⟨held, hheld, hbehind⟩ := h.behind
      obtain ⟨after, hcarried, hperm, -⟩ :=
        hmirrors _ held _ _ _ _ _ hbehind.fits hheld hmade
      rw [hafter]
      refine ⟨h.owner, h.dispatch, ?_, after, hperm,
        (hbehind.queue h.owner h.dispatch hcarried).of_stores_eq ?_ ?_⟩
      · exact (scene.value.tracker.stores_reported scene.session report).trans h.stores_eq
      · exact scene.value.tracker.pending_reported scene.session report
      · exact scene.value.tracker.stores_reported scene.session report
  case due =>
    intro o name stores scene h hdependent
    rcases Tracked.mutate_cases plan scene with hsame | ⟨answer, next, report, hmade, hafter⟩
    · rw [hsame]
      exact ⟨[], (List.append_nil _).symm, .nil fun _ _ he => he⟩
    · obtain ⟨held, hheld, hbehind⟩ := h.behind
      obtain ⟨after, -, hperm, hexact⟩ :=
        hmirrors _ held _ _ _ _ _ hbehind.fits hheld hmade
      rw [hafter]
      refine ⟨_, hbehind.dueDeletions_append
        (scene.value.tracker.pending_reported scene.session report)
        (scene.value.tracker.stores_reported scene.session report), ?_⟩
      rw [Tracker.map_kind_queued h.owner h.dispatch]
      exact (hexact.operations _ hdependent hbehind.fits).congr (fun _ => hheld.mem_iff.symm)
        fun _ => hperm.mem_iff.symm

/-- Ignoring an answer. -/
theorem discard {action : Action E α} (h : Mirrored allowed action) :
    Mirrored allowed (Functor.discard action) := by
  constructor
  case faithful => exact h.faithful.discard
  case followed => exact h.followed.discard
  case due =>
    intro o name stores scene hfollowed hdependent
    rw [stateAfter_discard]
    exact h.due hfollowed hdependent

end Mirrored

/-! ### Reports -/

section Reports

variable {rules : Rules E} {held : List E} {members next : ElementSet E}

omit [DecidableEq E] in
private theorem perm_toList {after : List E} (hnodup : after.Nodup)
    (hmem : ∀ e, e ∈ after ↔ e ∈ next) : after.Perm next.toList :=
  (List.perm_ext_iff_of_nodup hnodup next.nodup).mpr hmem

private theorem mirrors_removed {removed : ElementSet E} (hfits : rules.Fits held)
    (hheld : held.Perm members.toList) (hremoved : ∀ e ∈ removed, e ∈ members)
    (hnext : ∀ e, e ∈ next ↔ e ∈ members ∧ e ∉ removed) (cascade : Bool) :
    ∃ after, OperationKind.carryOutAll rules held
        (Report.removed removed.toList cascade).operations = some after ∧
      after.Perm next.toList ∧
      (Report.removed removed.toList cascade).Exact cascade held after := by
  have hnodup : held.Nodup := hheld.nodup_iff.mpr members.nodup
  have hrest (e : E) : e ∈ removed.toList.foldl List.erase held ↔ e ∈ held ∧ e ∉ removed.toList :=
    OperationKind.mem_foldl_erase_iff hnodup e
  refine ⟨_, OperationKind.carryOutAll_removed hfits removed.toList cascade, ?_, ?_⟩
  · apply perm_toList (hnodup.sublist (OperationKind.foldl_erase_sublist _ _))
    intro e
    rw [hrest e, hnext e, hheld.mem_iff]
    exact .rfl
  · apply Report.exact_removed
    · exact fun e he => hheld.mem_iff.mpr (hremoved e he)
    · exact fun e he hkept => ((hrest e).mp hkept).2 he

private theorem mirrors_added {new : ElementSet E} {allowed : Bool}
    (hheld : held.Perm members.toList) (hnew : ∀ e ∈ new, e ∉ members)
    (hnext : ∀ e, e ∈ next ↔ e ∈ new ∨ e ∈ members) :
    ∃ after, OperationKind.carryOutAll rules held (Report.added new.toList).operations =
        some after ∧
      after.Perm next.toList ∧ (Report.added new.toList).Exact allowed held after := by
  obtain ⟨after, hafter, hperm⟩ :=
    OperationKind.exists_carryOutAll_joined rules held new.toList
  have hnodup : (held ++ new.toList).Nodup := by
    rw [List.nodup_append]
    refine ⟨hheld.nodup_iff.mpr members.nodup, new.nodup, ?_⟩
    rintro a ha b hb rfl
    exact hnew a hb (hheld.mem_iff.mp ha)
  refine ⟨after, hafter, perm_toList (hperm.nodup_iff.mpr hnodup) ?_, ?_⟩
  · intro e
    rw [hperm.mem_iff, List.mem_append, hnext e, hheld.mem_iff, or_comm]
    exact .rfl
  · apply Report.exact_of_gentle _ rfl (Report.gentle_added new.toList)
    exact fun _ e he => hperm.mem_iff.mpr (List.mem_append_left _ he)

end Reports

/-! ### Calls -/

/-- Removing listed elements. -/
theorem mirrored_removeListed (es : List E) (cascade : Bool) :
    Mirrored cascade (removeListed es cascade) := by
  refine .of_mutate (fun _ _ _ _ => rfl) ?_
  intro rules held tracker members answer next report hfits hheld hplan
  obtain ⟨removed, hremoved, hnext, rfl⟩ := made_of_removeListed hplan
  exact mirrors_removed hfits hheld (fun e he => ((hremoved e).mp he).2) hnext cascade

/-- Keeping listed elements. -/
theorem mirrored_retainAll (keep : List E) : Mirrored true (retainAll keep) := by
  refine .of_mutate (fun _ _ _ _ => rfl) ?_
  intro rules held tracker members answer next report hfits hheld hplan
  obtain ⟨removed, hremoved, hnext, rfl⟩ := made_of_retainAll hplan
  exact mirrors_removed hfits hheld (fun e he => ((hremoved e).mp he).1) hnext true

/-- Removing everything. -/
theorem mirrored_clear : Mirrored true (clear (E := E)) := by
  refine .of_mutate (fun _ _ _ _ => rfl) ?_
  intro rules held tracker members answer next report hfits hheld hplan
  cases hplan
  by_cases hnone : members.toList.isEmpty = true
  · have hempty : held = [] := (List.isEmpty_iff.mp hnone ▸ hheld).eq_nil
    rw [if_pos hnone, hempty]
    exact ⟨[], rfl, .refl _, Report.exact_of_gentle (fun _ _ he => he) rfl (by simp)⟩
  · rw [if_neg hnone]
    exact ⟨[], OperationKind.carryOutAll_kept hfits rfl (List.nil_sublist held) [], .refl _,
      Report.exact_cleared fun _ => hheld.mem_iff.symm⟩

variable [Element E]

/-- Adding several elements. -/
theorem mirrored_addAll (es : List E) : Mirrored true (addAll es) := by
  refine .of_mutate (fun _ _ _ _ => rfl) ?_
  intro rules held tracker members answer next report hfits hheld hplan
  obtain ⟨-, new, hnew, hnext, rfl⟩ := made_of_addAll hplan
  exact mirrors_added hheld (fun e he => ((hnew e).mp he).2) hnext

/-! ### Attaching -/

private theorem keeps_elements {P : Scene (TrackedSet E) E → Prop} :
    Keeps P (Container.elements : Action E (List E)) := fun _ h => h

/-- Attaching keeps the tracker of a set. -/
theorem tracker_attachCopy (target : ElementSet E) (scene : Scene (TrackedSet E) E) :
    (stateAfter (attachCopy target) scene).value.tracker = scene.value.tracker := by
  have hcall {allowed : Bool} {action : Action E Bool} (h : Mirrored allowed action) :
      Keeps (fun after => after.value.tracker = scene.value.tracker) action :=
    fun s hs => ((h.faithful.told s).tracker_eq).trans hs
  have hattach : Keeps (fun after => after.value.tracker = scene.value.tracker)
      (Tracked.attach target.toList : Action E Unit) := fun _ h => h
  exact (hattach.bind fun _ => Container.keeps_reconcile keeps_elements
    (fun e => hcall (mirrored_removeListed [e] false))
    (fun e => hcall (mirrored_addAll [e])) target.toList) scene rfl

/-- Attaching keeps sets alike. -/
theorem alike_attachCopy (target : ElementSet E) {scene twin : Scene (TrackedSet E) E}
    (h : Alike scene twin) :
    Alike (stateAfter (attachCopy target) scene) (stateAfter (attachCopy target) twin) := by
  have helements : Lockstep (Alike (E := E)) (Eq (α := Failure)) Eq
      (Container.elements : Action E (List E)) Container.elements := by
    intro scene twin halike
    have hcontent : scene.value.content.toList = twin.value.content.toList := by
      rw [halike.content]
    exact .ok hcontent halike
  have hattach : Lockstep (Alike (E := E)) (Eq (α := Failure)) (fun _ _ => True)
      (attachCopy target) (attachCopy target) := by
    apply (Tracked.lockstep_attach target.toList).bind
    intro _ _ _
    have hremove (e : E) : Lockstep (Alike (E := E)) Eq Eq (removeListed [e] false)
        (removeListed [e] false) := Tracked.lockstep_mutate fun _ _ _ _ => rfl
    have hadd (e : E) : Lockstep (Alike (E := E)) Eq Eq (addAll [e]) (addAll [e]) :=
      Tracked.lockstep_mutate fun _ _ _ _ => rfl
    exact Container.lockstep_reconcile helements hremove hadd target.toList
  exact hattach.stateAfter h

/-- Attaching keeps a set followed by its store. -/
theorem followed_attachCopy {o : Owner} {name : StoreName} {stores : Table StoreName (Store E)}
    (target : ElementSet E) : Keeps (Followed o name stores) (attachCopy target) := by
  have hattach : Keeps (Followed o name stores) (Tracked.attach target.toList) := by
    intro scene h
    obtain ⟨held, hheld, hbehind⟩ := h.behind
    have hpending := scene.value.tracker.pending_attach scene.session target.toList
    have hstores := scene.value.tracker.stores_attach scene.session target.toList
    exact ⟨h.owner, h.dispatch, hstores.trans h.stores_eq, held, hheld,
      hbehind.of_stores_eq hpending hstores⟩
  exact hattach.bind fun _ => Container.keeps_reconcile keeps_elements
    (fun e => (mirrored_removeListed [e] false).followed)
    (fun e => (mirrored_addAll [e]).followed) target.toList

/-- Attaching makes no deletion due. -/
theorem dues_attachCopy {o : Owner} {name : StoreName} {stores : Table StoreName (Store E)}
    {scene : Scene (TrackedSet E) E} (h : Followed o name stores scene) (target : ElementSet E) :
    Dues o name false scene (stateAfter (attachCopy target) scene) := by
  obtain ⟨held, -, hbehind⟩ := h.behind
  obtain ⟨operations, hpending, hgentle⟩ :=
    (harmless_attachCopy target scene (.refl scene.session)).pending
  have hstores : (stateAfter (attachCopy target) scene).session.stores = scene.session.stores :=
    (followed_attachCopy target scene h).stores_eq.trans h.stores_eq.symm
  refine ⟨[], ?_, .nil fun hallowed => by cases hallowed⟩
  rw [hbehind.dueDeletions_of_gentle hpending hstores hgentle, List.append_nil]

end TrackedFields.TrackedSet

namespace TrackedFields

/-- The changes that a set offers. -/
inductive TrackedSet.Mutator (E : Type) where
  | add (e : E)
  | addAll (es : List E)
  | remove (e : E)
  | removeWith (e : E) (cascade : Bool)
  | removeAll (es : List E)
  | retainAll (keep : List E)
  | clear
  | attachCopy (target : ElementSet E)

namespace TrackedSet.Mutator

open Tracked (Alike)

variable {E : Type} [DecidableEq E] [Element E]

/-- Make a change, ignoring its answer. -/
def run : Mutator E → Action E Unit
  | add e => discard (TrackedSet.add e)
  | addAll es => discard (TrackedSet.addAll es)
  | remove e => discard (TrackedSet.remove e)
  | removeWith e cascade => discard (TrackedSet.removeWith e cascade)
  | removeAll es => discard (TrackedSet.removeAll es)
  | retainAll keep => discard (TrackedSet.retainAll keep)
  | clear => TrackedSet.clear
  | attachCopy target => TrackedSet.attachCopy target

omit [DecidableEq E] [Element E] in
/-- Whether a change may delete records. -/
def cascades : Mutator E → Bool
  | removeWith _ cascade => cascade
  | attachCopy _ => false
  | _ => true

/-- Every change but an attachment tells exactly what it loses. -/
theorem mirrored (m : Mutator E) (hm : ∀ target, m ≠ .attachCopy target) :
    Mirrored m.cascades m.run := by
  cases m with
  | add e => exact (mirrored_addAll [e]).discard
  | addAll es => exact (mirrored_addAll es).discard
  | remove e => exact (mirrored_removeListed [e] true).discard
  | removeWith e cascade => exact (mirrored_removeListed [e] cascade).discard
  | removeAll es => exact (mirrored_removeListed es true).discard
  | retainAll keep => exact (mirrored_retainAll keep).discard
  | clear => exact mirrored_clear
  | attachCopy target => exact absurd rfl (hm target)

/-- Every change keeps the tracker of a set. -/
theorem tracker_eq (m : Mutator E) (scene : Scene (TrackedSet E) E) :
    (stateAfter m.run scene).value.tracker = scene.value.tracker := by
  by_cases hm : ∃ target, m = .attachCopy target
  · obtain ⟨target, rfl⟩ := hm
    exact tracker_attachCopy target scene
  · exact ((m.mirrored (not_exists.mp hm)).faithful.told scene).tracker_eq

/-- Every change keeps sets alike. -/
theorem alike (m : Mutator E) {scene twin : Scene (TrackedSet E) E} (h : Alike scene twin) :
    Alike (stateAfter m.run scene) (stateAfter m.run twin) := by
  by_cases hm : ∃ target, m = .attachCopy target
  · obtain ⟨target, rfl⟩ := hm
    exact alike_attachCopy target h
  · exact (m.mirrored (not_exists.mp hm)).faithful.alike h

/-- Every change keeps a set followed by its store. -/
theorem followed {o : Owner} {name : StoreName} {stores : Table StoreName (Store E)}
    (m : Mutator E) : Keeps (Followed o name stores) m.run := by
  by_cases hm : ∃ target, m = .attachCopy target
  · obtain ⟨target, rfl⟩ := hm
    exact followed_attachCopy target
  · exact (m.mirrored (not_exists.mp hm)).followed

/-- Of a set that queues its changes, every change makes the deletion due of what it loses. -/
theorem dues {o : Owner} {name : StoreName} {stores : Table StoreName (Store E)}
    {scene : Scene (TrackedSet E) E} (m : Mutator E) (h : Followed o name stores scene)
    (hdependent : (scene.session.rules name).dependent = true) :
    Dues o name m.cascades scene (stateAfter m.run scene) := by
  by_cases hm : ∃ target, m = .attachCopy target
  · obtain ⟨target, rfl⟩ := hm
    exact dues_attachCopy h target
  · exact (m.mirrored (not_exists.mp hm)).due h hdependent

end TrackedSet.Mutator

end TrackedFields
