import Mathlib.Tactic.Tauto
import TrackedFields.Proofs.Keeps
import TrackedFields.TrackedSet

/-!
# What the plans of a set make

A change of a set lets some members leave, or elements join that are no members yet, and reports
just these. For each change it is said here which ones they are, and what has been checked by then,
and for a single element what that does to membership.
-/

namespace TrackedFields.TrackedSet

variable {E : Type} [DecidableEq E] {members next : ElementSet E} {report : Report E}
  {es keep : List E} {answer : Bool}

/-- What removing listed elements makes of a set. -/
theorem made_of_removeListed {cascade : Bool}
    (h : (if ((ElementSet.ofList es).filter members.contains).toList.isEmpty then
        .ok (.nothing false)
      else .ok (.made true
        (members.filter fun e => !((ElementSet.ofList es).filter members.contains).contains e)
        (.removed ((ElementSet.ofList es).filter members.contains).toList cascade)) :
        Except Failure (Change (ElementSet E) E Bool)) = .ok (.made answer next report)) :
    ∃ removed : ElementSet E, (∀ e, e ∈ removed ↔ e ∈ es ∧ e ∈ members) ∧
      (∀ e, e ∈ next ↔ e ∈ members ∧ e ∉ removed) ∧
      report = .removed removed.toList cascade := by
  split at h
  · cases h
  · cases h
    refine ⟨_, fun e => ?_, fun e => ?_, rfl⟩
    · rw [ElementSet.mem_filter, ElementSet.mem_ofList, ElementSet.contains_iff]
    · rw [ElementSet.mem_filter, Bool.not_eq_true', ← Bool.not_eq_true, ElementSet.contains_iff]

/-- What keeping listed elements makes of a set. -/
theorem made_of_retainAll
    (h : (if (members.filter fun e => !keep.contains e).toList.isEmpty then .ok (.nothing false)
      else .ok (.made true (members.filter keep.contains)
        (.removed (members.filter fun e => !keep.contains e).toList true)) :
        Except Failure (Change (ElementSet E) E Bool)) = .ok (.made answer next report)) :
    ∃ removed : ElementSet E, (∀ e, e ∈ removed ↔ e ∈ members ∧ e ∉ keep) ∧
      (∀ e, e ∈ next ↔ e ∈ members ∧ e ∉ removed) ∧
      report = .removed removed.toList true := by
  split at h
  · cases h
  · cases h
    have hremoved (e : E) :
        e ∈ members.filter (fun e => !keep.contains e) ↔ e ∈ members ∧ e ∉ keep := by
      rw [ElementSet.mem_filter, Bool.not_eq_true', ← Bool.not_eq_true, List.contains_iff_mem]
    refine ⟨_, hremoved, fun e => ?_, rfl⟩
    rw [hremoved, ElementSet.mem_filter, List.contains_iff_mem]
    exact and_congr_right fun hmem => by simp [hmem]

/-- What adding several elements makes of a set. -/
theorem made_of_addAll [Element E] {tracker : Tracker}
    (h : (do
      tracker.checkAll es
      if ((ElementSet.ofList es).filter fun e => !members.contains e).toList.isEmpty then
        return .nothing false
      return .made true
        (((ElementSet.ofList es).filter fun e => !members.contains e).toList.foldl .insert members)
        (.added ((ElementSet.ofList es).filter fun e => !members.contains e).toList) :
        Except Failure (Change (ElementSet E) E Bool)) = .ok (.made answer next report)) :
    tracker.checkAll es = .ok () ∧ ∃ new : ElementSet E, (∀ e, e ∈ new ↔ e ∈ es ∧ e ∉ members) ∧
      (∀ e, e ∈ next ↔ e ∈ new ∨ e ∈ members) ∧ report = .added new.toList := by
  obtain ⟨hcheck, h⟩ := accepted_of_bind h
  split at h
  · cases h
  · cases h
    refine ⟨hcheck, _, fun e => ?_, ElementSet.mem_foldl_insert _ members, rfl⟩
    rw [ElementSet.mem_filter, ElementSet.mem_ofList, Bool.not_eq_true', ← Bool.not_eq_true,
      ElementSet.contains_iff]

/-! ### Membership -/

omit [DecidableEq E] in
private theorem not_mem_of_isEmpty (h : members.toList.isEmpty = true) (e : E) :
    e ∉ members := by
  intro hmem
  rw [← ElementSet.mem_toList, List.isEmpty_iff.mp h] at hmem
  cases hmem

/-- Removing an element leaves the other members. -/
theorem mem_removeWith (e a : E) (cascade : Bool) (scene : Scene (TrackedSet E) E) :
    a ∈ (stateAfter (removeWith e cascade) scene).value.content ↔
      a ∈ scene.value.content ∧ a ≠ e := by
  unfold stateAfter removeWith removeListed Tracked.mutate
  dsimp only
  cases hnone : ((ElementSet.ofList [e]).filter scene.value.content.contains).toList.isEmpty with
  | true =>
    have hnot : e ∉ scene.value.content := by simpa using not_mem_of_isEmpty hnone e
    rw [if_pos rfl]
    refine ⟨fun hmem => ⟨hmem, ?_⟩, And.left⟩
    rintro rfl
    exact hnot hmem
  | false =>
    rw [if_neg Bool.false_ne_true]
    change a ∈ ElementSet.filter _ _ ↔ _
    rw [ElementSet.mem_filter, Bool.not_eq_true', ← Bool.not_eq_true, ElementSet.contains_iff,
      ElementSet.mem_filter, ElementSet.contains_iff, ElementSet.mem_ofList, List.mem_singleton]
    tauto

/-- Adding an element that is not refused makes it a member. -/
theorem mem_of_add [Element E] {e : E} {scene after : Scene (TrackedSet E) E} {answer : Bool}
    (h : add e scene = .ok answer after) (a : E) :
    a ∈ after.value.content ↔ a = e ∨ a ∈ scene.value.content := by
  unfold add addAll at h
  rcases Tracked.mutate_ok_cases h with ⟨hplan, rfl⟩ | ⟨report, hplan⟩
  · obtain ⟨-, hplan⟩ := accepted_of_bind hplan
    dsimp only at hplan
    split at hplan
    · next hnone =>
      have hold : e ∈ after.value.content := by simpa using not_mem_of_isEmpty hnone e
      refine ⟨.inr, ?_⟩
      rintro (rfl | hmem)
      · exact hold
      · exact hmem
    · cases hplan
  · obtain ⟨-, new, hnew, hnext, -⟩ := made_of_addAll hplan
    rw [hnext, hnew, List.mem_singleton]
    tauto

end TrackedFields.TrackedSet
