import TrackedFields.Proofs.Tracked.HarmlessAttach
import TrackedFields.Proofs.Tracked.Told
import TrackedFields.Proofs.TrackedList.Convergence

/-!
# What changes of a list delete

Every change of a list but an attachment carries out one plan, and the report of this plan is exact:
a single element that leaves is an orphan unless the list still holds it, elements that leave by
value leave with all their occurrences, and elements that only move or arrive push nothing out.
-/

namespace TrackedFields.TrackedList

open Tracked (Faithful)

variable {E : Type} [DecidableEq E]

/-- Whether a change may delete records. -/
def Mutator.cascades : Mutator E → Bool
  | removeWith _ cascade => cascade
  | setWith _ _ cascade => cascade
  | attachCopy _ => false
  | _ => true

/-- Removing by value. -/
theorem faithful_removeWith (e : E) (cascade : Bool) :
    Faithful id cascade (removeWith e cascade) := by
  refine .of_mutate (fun _ _ _ _ => rfl) ?_
  intro tracker es answer next report hplan
  obtain ⟨hmem, rfl, rfl⟩ := made_of_removeWith hplan
  have hothers : ∀ a ∈ es, a = e ∨ a ∈ es.erase e := fun a ha =>
    (Decidable.em (a = e)).imp_right fun hne => (List.mem_erase_of_ne hne).mpr ha
  have hchange : (OperationKind.collectionRemove e cascade).change es =
      some (es.erase e, if cascade then [e] else []) := by
    rw [OperationKind.change, if_pos (List.contains_iff_mem.mpr hmem)]
  exact Report.exact_of_departure hmem hothers hchange rfl rfl

/-- Removing by position. -/
theorem faithful_removeAt (index : Nat) : Faithful id true (removeAt (E := E) index) := by
  rw [removeAt, removeAtWith]
  refine .of_mutate (fun _ _ _ _ => rfl) ?_
  intro tracker es answer next report hplan
  obtain ⟨he, rfl, rfl⟩ := made_of_removeAt hplan
  have hchange : (OperationKind.listRemoveAt index).change es =
      some (es.eraseIdx index, if true then [answer] else []) := by
    rw [OperationKind.change, he, Option.map_some]
    rfl
  exact Report.exact_of_departure (List.mem_of_getElem? he) (fun _ => eq_or_mem_eraseIdx he)
    hchange rfl rfl

/-- Removing what satisfies a condition. -/
theorem faithful_removeWhere (doomed : E → Bool) : Faithful id true (removeWhere doomed) := by
  refine .of_mutate (fun _ _ _ _ => rfl) ?_
  intro tracker es answer next report hplan
  obtain ⟨rfl, rfl⟩ := made_of_removeWhere hplan
  exact Report.exact_filtered doomed es

/-- Removing everything. -/
theorem faithful_clear : Faithful id true (clear (E := E)) := by
  refine .of_mutate (fun _ _ _ _ => rfl) ?_
  intro tracker es answer next report hplan
  cases hplan
  cases es with
  | nil => exact Report.exact_of_gentle (fun _ e he => he) rfl (by simp)
  | cons e es => exact Report.exact_cleared fun _ => .rfl

/-- A rearrangement that keeps the members. -/
theorem faithful_reorder {arrange : List E → List E} (hkept : ∀ es, ∀ e ∈ es, e ∈ arrange es) :
    Faithful id true (reorder arrange) := by
  refine .of_mutate (fun _ _ _ _ => rfl) ?_
  intro tracker es answer next report hplan
  obtain ⟨rfl, rfl⟩ := made_of_reorder hplan
  apply Report.exact_of_gentle (fun _ => hkept es) rfl
  intro kind hmem
  obtain ⟨move, -, rfl⟩ := List.mem_map.mp hmem
  exact rfl

variable [Element E]

/-- Appending. -/
theorem faithful_add (e : E) : Faithful id true (add e) := by
  refine .of_mutate (fun _ _ _ _ => rfl) ?_
  intro tracker es answer next report hplan
  obtain ⟨-, rfl, rfl⟩ := made_of_add hplan
  exact Report.exact_of_gentle (fun _ a ha => List.mem_append_left _ ha) rfl
    (Report.gentle_added [e])

/-- Appending several elements. -/
theorem faithful_addAll (new : List E) : Faithful id true (addAll new) := by
  refine .of_mutate (fun _ _ _ _ => rfl) ?_
  intro tracker es answer next report hplan
  obtain ⟨-, rfl, rfl⟩ := made_of_addAll hplan
  exact Report.exact_of_gentle (fun _ a ha => List.mem_append_left _ ha) rfl
    (Report.gentle_added new)

/-- Inserting. -/
theorem faithful_insert (index : Nat) (e : E) : Faithful id true (insert index e) := by
  refine .of_mutate (fun _ _ _ _ => rfl) ?_
  intro tracker es answer next report hplan
  obtain ⟨hindex, -, rfl, rfl⟩ := made_of_insert hplan
  apply Report.exact_of_gentle _ rfl
  · intro kind hmem
    obtain rfl := List.mem_singleton.mp hmem
    exact trivial
  · exact fun _ a ha => (List.mem_insertIdx hindex).mpr (.inr ha)

/-- Inserting several elements. -/
theorem faithful_insertAll (index : Nat) (new : List E) :
    Faithful id true (insertAll index new) := by
  refine .of_mutate (fun _ _ _ _ => rfl) ?_
  intro tracker es answer next report hplan
  obtain ⟨-, -, rfl, rfl⟩ := made_of_insertAll hplan
  apply Report.exact_of_gentle _ rfl
  · intro kind hmem
    obtain ⟨place, -, rfl⟩ := List.mem_map.mp hmem
    exact trivial
  · intro _ a ha
    have hparts : a ∈ es.take index ++ es.drop index := by
      rw [List.take_append_drop]
      exact ha
    change a ∈ es.take index ++ new ++ es.drop index
    rw [List.mem_append] at hparts ⊢
    exact hparts.imp_left fun hfront => List.mem_append_left _ hfront

/-- Replacing. -/
theorem faithful_setWith (index : Nat) (e : E) (cascade : Bool) :
    Faithful id cascade (setWith index e cascade) := by
  refine .of_mutate (fun _ _ _ _ => rfl) ?_
  intro tracker es answer next report hplan
  obtain ⟨hanswer, -, rfl, rfl⟩ := made_of_setWith hplan
  have hchange : (OperationKind.listSet index e cascade).change es =
      some (es.set index e, if cascade then [answer] else []) := by
    rw [OperationKind.change, hanswer, Option.map_some]
  exact Report.exact_of_departure (List.mem_of_getElem? hanswer)
    (fun _ => eq_or_mem_set hanswer e) hchange rfl rfl

/-- Every change but an attachment tells exactly what it loses. -/
theorem Mutator.faithful (m : Mutator E) (hm : ∀ target, m ≠ .attachCopy target) :
    Faithful id m.cascades m.run := by
  cases m with
  | add e => exact (faithful_add e).discard
  | addAll new => exact (faithful_addAll new).discard
  | insert index e => exact faithful_insert index e
  | insertAll index new => exact (faithful_insertAll index new).discard
  | remove e => exact (faithful_removeWith e true).discard
  | removeWith e cascade => exact (faithful_removeWith e cascade).discard
  | removeAt index => exact (faithful_removeAt index).discard
  | set index e => exact (faithful_setWith index e true).discard
  | setWith index e cascade => exact (faithful_setWith index e cascade).discard
  | removeAll es => exact (faithful_removeWhere es.contains).discard
  | retainAll keep => exact (faithful_removeWhere fun e => !keep.contains e).discard
  | clear => exact faithful_clear
  | sortBy cmp => exact faithful_reorder fun es e he => (cmp.mem_sort es e).mpr he
  | attachCopy target => exact absurd rfl (hm target)

end TrackedFields.TrackedList
