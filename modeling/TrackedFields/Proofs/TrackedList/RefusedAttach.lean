import TrackedFields.Proofs.Tracked.TrackerIndependence
import TrackedFields.Proofs.Tracked.Reconcile
import TrackedFields.Proofs.Tracked.Unaltered
import TrackedFields.Proofs.TrackedList.Balance

/-!
# Lists that refuse a value

A list that forbids null elements finds the null element of a value only when it is to insert it.
By then surplus members are gone, and the missing ones before the null element are there. So the
list is unaltered exactly if there was nothing to remove and the null element is the first member
that is missing.
-/

namespace TrackedFields

variable {E : Type} [DecidableEq E] [Element E]

open Tracked (Brings attached)

namespace TrackedList

/-- A list that takes no member away from another one, and of which the first member that the other
one lacks is null. -/
def NullFirst (es target : List E) : Prop :=
  (∀ e ∈ es, countSame es e ≤ countSame target e) ∧
    (target.find? fun e => countSame es e < countSame target e).any Element.isNull = true

/-- Without surplus members, nothing is trimmed. -/
theorem trim_of_no_surplus {target : List E} (scene : Scene (TrackedList E) E)
    (h : ∀ e ∈ scene.value.content,
      countSame scene.value.content e ≤ countSame target e) (n : Nat) :
    trim target n scene = .ok () scene := by
  induction n with
  | zero => rfl
  | succ n ih =>
    have hkept : ¬ (scene.value.content[n]?.any fun e =>
        countSame target e < countSame scene.value.content e) = true := by
      cases he : scene.value.content[n]? with
      | none => exact Bool.false_ne_true
      | some e =>
        have hle := h e (List.mem_of_getElem? he)
        simpa using hle
    rw [trim_succ, if_neg hkept, ih]

/-- If no member is missing, nothing is filled in. -/
theorem fill_of_none_missing {target rest : List E} (scene : Scene (TrackedList E) E)
    (h : rest.find? (fun e => countSame scene.value.content e < countSame target e) = none)
    (index : Nat) : fill target index rest scene = .ok () scene := by
  induction rest generalizing index with
  | nil => rfl
  | cons e rest ih =>
    rw [List.find?_cons] at h
    rw [fill_cons]
    by_cases hmissing : countSame scene.value.content e < countSame target e
    · rw [decide_eq_true hmissing] at h
      cases h
    · rw [decide_eq_false hmissing] at h
      rw [if_neg hmissing]
      exact ih h (index + 1)

/-- If members are missing, filling begins with the first one. -/
theorem fill_of_missing {target rest : List E} {e : E} (scene : Scene (TrackedList E) E)
    (h : rest.find? (fun e => countSame scene.value.content e < countSame target e) = some e)
    (index : Nat) : ∃ position index' rest', fill target index rest scene =
      (insert position e >>= fun _ => fill target index' rest') scene := by
  induction rest generalizing index with
  | nil => cases h
  | cons a rest ih =>
    rw [List.find?_cons] at h
    rw [fill_cons]
    by_cases hmissing : countSame scene.value.content a < countSame target a
    · rw [decide_eq_true hmissing] at h
      cases h
      exact ⟨_, _, _, if_pos hmissing⟩
    · rw [decide_eq_false hmissing] at h
      obtain ⟨position, index', rest', hsteps⟩ := ih h (index + 1)
      exact ⟨position, index', rest', (if_neg hmissing).trans hsteps⟩

omit [Element E] in
/-- A rearrangement never fails. -/
theorem total_reorder (arrange : List E → List E) : Total (reorder arrange) := by
  refine Tracked.total_mutate fun _ es failure h => ?_
  dsimp only at h
  split at h <;> cases h

/-- Attaching fails while surplus members are removed, or while missing members are inserted. -/
theorem error_of_attachCopy {target : List E} {scene after : Scene (TrackedList E) E}
    {failure : Failure} (h : attachCopy target scene = .error failure after) :
    trim target scene.value.content.length (attached target scene) = .error failure after ∨
      ∃ trimmed, trim target scene.value.content.length (attached target scene) = .ok () trimmed ∧
        fill target 0 target trimmed = .error failure after := by
  change (trim target scene.value.content.length >>= fun _ => fill target 0 target >>= fun _ =>
    reorder fun es => overlay es target) (attached target scene) = _ at h
  rw [bind_apply] at h
  cases htrim : trim target scene.value.content.length (attached target scene) with
  | error failure' mid =>
    rw [htrim] at h
    cases h
    exact .inl rfl
  | ok answer trimmed =>
    rw [htrim] at h
    dsimp only at h
    rw [bind_apply] at h
    cases hfill : fill target 0 target trimmed with
    | error failure' mid =>
      rw [hfill] at h
      cases h
      exact .inr ⟨trimmed, rfl, hfill⟩
    | ok answer filled =>
      rw [hfill] at h
      obtain ⟨answer, last, hlast⟩ := total_reorder (fun es => overlay es target) filled
      dsimp only at h
      rw [hlast] at h
      cases h

/-- Inserting keeps the members of a kind. -/
theorem keeps_le_countSame (n : Nat) (x : E) (index : Nat) (e : E) :
    Keeps (fun scene => n ≤ countSame scene.value.content x) (insert index e) := by
  intro scene h
  cases hinsert : insert index e scene with
  | error failure after =>
    rw [stateAfter_of_error hinsert, Tracked.eq_of_mutate_error hinsert]
    exact h
  | ok answer after =>
    rw [stateAfter_of_ok hinsert, countSame_of_insert hinsert]
    exact Nat.le_trans h (Nat.le_add_right _ _)

/-- Inserting refuses a null element where null elements are forbidden. -/
theorem insert_of_null {e : E} (scene : Scene (TrackedList E) E)
    (hnulls : scene.value.tracker.allowNulls = false) (he : Element.isNull e = true)
    (index : Nat) : ∃ failure, insert index e scene = .error failure scene := by
  unfold insert Tracked.mutate
  dsimp only
  by_cases hindex : scene.value.content.length < index
  · rw [if_pos hindex]
    exact ⟨_, rfl⟩
  · rw [if_neg hindex, Tracker.check_of_null hnulls he]
    exact ⟨_, rfl⟩

/-- Inserting an element that is not null adds it, unless the position lies outside. -/
theorem brings_insert {e : E} (scene : Scene (TrackedList E) E) (he : Element.isNull e = false)
    (index : Nat) :
    Brings (fun after => countSame scene.value.content e + 1 ≤ countSame after.value.content e)
      scene (insert index e) := by
  unfold Brings
  cases hinsert : insert index e scene with
  | ok answer after =>
    have hcount := countSame_of_insert hinsert e
    rw [if_pos (Element.same_refl e)] at hcount
    exact Nat.le_of_eq hcount.symm
  | error failure after =>
    unfold insert Tracked.mutate at hinsert
    dsimp only at hinsert
    by_cases hindex : scene.value.content.length < index
    · rw [if_pos hindex] at hinsert
      cases hinsert
      intro field hfield
      cases hfield
    · rw [if_neg hindex, Tracker.check_of_not_null _ he] at hinsert
      cases hinsert

section Refusals

variable {target : List E} {scene after : Scene (TrackedList E) E} {field : String}
  (hnulls : scene.value.tracker.allowNulls = false)
  (h : attachCopy target scene = .error (.nullElement field) after)
include h

omit hnulls in
/-- Without surplus members, a null element is refused while missing members are inserted. -/
theorem fill_of_no_surplus
    (hstays : ∀ e ∈ scene.value.content, countSame scene.value.content e ≤ countSame target e) :
    fill target 0 target (attached target scene) = .error (.nullElement field) after := by
  have htrim : trim target scene.value.content.length (attached target scene) =
      .ok () (attached target scene) := trim_of_no_surplus (attached target scene) hstays _
  rcases error_of_attachCopy h with herror | ⟨trimmed, hok, hfill⟩
  · rw [htrim] at herror
    cases herror
  · rw [htrim] at hok
    cases hok
    exact hfill

/-- Where a null element is refused, no kind has more members than in the attached value, if one
was removed. -/
theorem countSame_le_of_refused (x : E) :
    countSame after.value.content x ≤ countSame target x := by
  have htrimmed := countSame_trim_le target scene.value.content [] (attached target scene)
    (List.append_nil scene.value.content).symm fun _ => Nat.zero_le _
  rcases error_of_attachCopy h with herror | ⟨trimmed, hok, hfill⟩
  · rw [stateAfter_of_error herror] at htrimmed
    exact htrimmed x
  · rw [stateAfter_of_ok hok] at htrimmed
    rw [← stateAfter_of_error hfill]
    exact countSame_fill_le 0 target htrimmed x

include hnulls

/-- A list that refuses to attach a value is unaltered exactly if a null element comes first. -/
theorem unaltered_iff : Unaltered (fun scene => scene.value.content) scene after ↔
    NullFirst scene.value.content target := by
  constructor
  · intro hunaltered
    have hstays : ∀ e ∈ scene.value.content,
        countSame scene.value.content e ≤ countSame target e := by
      intro e _
      have hle := countSame_le_of_refused h e
      rwa [hunaltered.content] at hle
    have hfill := fill_of_no_surplus h hstays
    refine ⟨hstays, ?_⟩
    cases hfind : target.find? fun e =>
        countSame scene.value.content e < countSame target e with
    | none =>
      rw [fill_of_none_missing (attached target scene) hfind] at hfill
      cases hfill
    | some e =>
      obtain ⟨position, index, rest, hsteps⟩ :=
        fill_of_missing (attached target scene) hfind 0
      rw [hsteps] at hfill
      cases he : Element.isNull e with
      | true => exact he
      | false =>
        have hmore : countSame scene.value.content e + 1 ≤ countSame after.value.content e :=
          (brings_insert (attached target scene) he position).of_refused
            (fun _ => fill_keeps (keeps_le_countSame _ e) target index rest) hfill
        rw [hunaltered.content] at hmore
        exact absurd hmore (Nat.not_succ_le_self _)
  · rintro ⟨hstays, hnull⟩
    have hfill := fill_of_no_surplus h hstays
    cases hfind : target.find? fun e =>
        countSame scene.value.content e < countSame target e with
    | none =>
      rw [hfind] at hnull
      cases hnull
    | some e =>
      rw [hfind] at hnull
      obtain ⟨position, index, rest, hsteps⟩ :=
        fill_of_missing (attached target scene) hfind 0
      obtain ⟨failure, hinsert⟩ :=
        insert_of_null (attached target scene) hnulls hnull position
      rw [hsteps, bind_apply, hinsert] at hfill
      cases hfill
      exact Tracked.unaltered_attached target rfl

end Refusals

end TrackedList

end TrackedFields
