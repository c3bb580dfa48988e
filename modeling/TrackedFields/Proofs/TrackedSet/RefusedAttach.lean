import Mathlib.Tactic.ByContra
import TrackedFields.Proofs.Tracked.TrackerIndependence
import TrackedFields.Proofs.Tracked.Reconcile
import TrackedFields.Proofs.Tracked.Unaltered
import TrackedFields.Proofs.TrackedSet.Plans

/-!
# Sets that refuse a value

A set that forbids null elements refuses a value with a null element when it comes to adding it.
Members that have left by then are not brought back, and new members stay. So the set is unaltered
exactly if no member was to leave, and no other one to join before the null element.
-/

namespace TrackedFields

variable {E : Type} [DecidableEq E] [Element E]

open Tracked (attached)

namespace TrackedSet

omit [Element E] in
/-- Removing an element never fails. -/
theorem total_removeWith (e : E) (cascade : Bool) : Total (removeWith e cascade) := by
  unfold removeWith removeListed
  apply Tracked.total_mutate
  intro tracker members failure h
  dsimp only at h
  split at h <;> cases h

/-- Adding refuses a null element where null elements are forbidden. -/
theorem add_of_null {e : E} (scene : Scene (TrackedSet E) E)
    (hnulls : scene.value.tracker.allowNulls = false) (he : Element.isNull e = true) :
    ∃ failure, add e scene = .error failure scene := by
  unfold add addAll Tracked.mutate
  dsimp only
  rw [← Tracker.check_eq_checkAll, Tracker.check_of_null hnulls he]
  exact ⟨_, rfl⟩

/-- Adding an element that is not null never fails. -/
theorem add_of_not_null {e : E} (scene : Scene (TrackedSet E) E)
    (he : Element.isNull e = false) : ∃ answer after, add e scene = .ok answer after := by
  unfold add addAll
  apply Tracked.ok_mutate
  intro failure h
  rw [← Tracker.check_eq_checkAll, Tracker.check_of_not_null _ he] at h
  change (if _ then _ else _) = _ at h
  split at h <;> cases h

/-- A set lost a member that was not to be kept, or gained one that was not there. -/
def Moved (members target : List E) (scene : Scene (TrackedSet E) E) : Prop :=
  (∃ e ∈ members, target.any (Element.same e) = false ∧ e ∉ scene.value.content) ∨
    ∃ e ∈ scene.value.content, members.any (Element.same · e) = false

section Moved

variable {members target : List E}

/-- No member is brought back, and none that is new taken away, by removing former members. -/
theorem keeps_moved_removeWith {e : E} (he : e ∈ members) :
    Keeps (Moved members target) (removeWith e false) := by
  rintro scene (⟨a, ha, hgone, hnot⟩ | ⟨a, hmem, hnew⟩)
  · refine .inl ⟨a, ha, hgone, fun h => hnot ?_⟩
    exact ((mem_removeWith e a false scene).mp h).1
  · refine .inr ⟨a, (mem_removeWith e a false scene).mpr ⟨hmem, ?_⟩, hnew⟩
    rintro rfl
    have hsame := List.any_eq_false.mp hnew a he
    exact hsame (Element.same_refl a)

/-- No member is brought back, and none that is new taken away, by adding attached elements. -/
theorem keeps_moved_add {e : E} (he : e ∈ target) : Keeps (Moved members target) (add e) := by
  intro scene h
  cases hadd : add e scene with
  | error failure after =>
    rw [stateAfter_of_error hadd]
    unfold add addAll at hadd
    rw [Tracked.eq_of_mutate_error hadd]
    exact h
  | ok answer after =>
    rw [stateAfter_of_ok hadd]
    rcases h with ⟨a, ha, hgone, hnot⟩ | ⟨a, hmem, hnew⟩
    · refine .inl ⟨a, ha, hgone, fun hmem => ?_⟩
      rcases (mem_of_add hadd a).mp hmem with rfl | hold
      · have hsame := List.any_eq_false.mp hgone a he
        exact hsame (Element.same_refl a)
      · exact hnot hold
    · exact .inr ⟨a, (mem_of_add hadd a).mpr (.inr hmem), hnew⟩

end Moved

/-- A set that refuses to attach a value is unaltered exactly if a null element comes first. -/
theorem unaltered_iff {target : ElementSet E} {scene after : Scene (TrackedSet E) E}
    {field : String} (hnulls : scene.value.tracker.allowNulls = false)
    (h : attachCopy target scene = .error (.nullElement field) after) :
    Unaltered (fun scene => scene.value.content) scene after ↔
      Container.NullFirst scene.value.content.toList target.toList := by
  let members := scene.value.content.toList
  change (Container.removeMissing target.toList members >>= fun _ =>
    Container.addMissing members target.toList) (attached target.toList scene) = _ at h
  constructor
  · intro hunaltered
    by_contra hfirst
    have hmoved : Moved members target.toList after := by
      refine Container.changed_of_not_nullFirst (fun e he => keeps_moved_removeWith he)
        (fun e he => keeps_moved_add he) (fun e he hgone => ?_) (fun e he hnew hnull => ?_)
        hfirst h
      · obtain ⟨answer, removed, hremove⟩ := total_removeWith e false (attached target.toList scene)
        have hmem := mem_removeWith e e false (attached target.toList scene)
        rw [stateAfter_of_ok hremove] at hmem
        exact .of_ok hremove (.inl ⟨e, he, hgone, fun h => (hmem.mp h).2 rfl⟩)
      · obtain ⟨answer, added, hadd⟩ := add_of_not_null (attached target.toList scene) hnull
        exact .of_ok hadd (.inr ⟨e, (mem_of_add hadd e).mpr (.inl rfl), hnew⟩)
    rcases hmoved with ⟨e, he, -, hnot⟩ | ⟨e, he, hnew⟩
    · rw [hunaltered.content] at hnot
      exact hnot he
    · rw [hunaltered.content] at he
      exact List.any_eq_false.mp hnew e he (Element.same_refl e)
  · intro hfirst
    have hrefuse (e : E) (he : Element.isNull e = true) :
        ∃ failure, add e (attached target.toList scene) =
          .error failure (attached target.toList scene) := add_of_null _ hnulls he
    rw [Container.unchanged_of_nullFirst hfirst hrefuse h]
    exact Tracked.unaltered_attached target.toList rfl

end TrackedSet

end TrackedFields
