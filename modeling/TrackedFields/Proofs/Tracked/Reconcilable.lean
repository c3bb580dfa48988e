import Mathlib.Data.List.Count
import TrackedFields.Proofs.TrackedList.Trim

/-!
# Values that reconciling makes the same as a target

Reconciling goes by what is shown of a value, and asks of an element only whether the other side has
one that denotes the same. So it leaves as many elements of a kind as the target has only if those
that show on both sides are held as often as the target has them, those that are new are not held
yet, and those that are to leave show as often as they are held.
-/

namespace TrackedFields

open TrackedList (countSame countSame_congr countSame_append)

variable {E : Type} [DecidableEq E] [Element E] {target shown value gone es : List E} {e : E}

/-- What becomes of a value that is to take over a target, by what is shown of it: it loses, one by
one, the shown elements that denote nothing in the target, and gains the elements of the target that
denote nothing shown. -/
def reconciled (target shown value : List E) : List E :=
  (shown.filter fun e => !target.any (Element.same e)).foldl List.erase value ++
    target.filter fun e => !shown.any (Element.same · e)

/-- A value in which reconciling with a target, by what is shown of the value, leaves as many
elements of each kind as the target has. -/
structure Reconcilable (target shown value : List E) : Prop where
  /-- What shows on both sides is held as often as it is to be. -/
  kept : ∀ e ∈ target, 0 < countSame shown e → countSame value e = countSame target e
  /-- What is to join is not there yet. -/
  new : ∀ e ∈ target, countSame shown e = 0 → countSame value e = 0
  /-- What is to leave shows as often as it is held. -/
  gone : ∀ e ∈ value, countSame target e = 0 → value.count e ≤ shown.count e

/-- An element denotes something in a list if the list has elements of its kind. -/
theorem any_same_eq (es : List E) (e : E) :
    es.any (Element.same · e) = decide (0 < countSame es e) := by
  rw [Bool.eq_iff_iff, decide_eq_true_iff, List.any_eq_true]
  exact List.countP_pos_iff.symm

/-- What an element denotes may be compared the other way round. -/
theorem any_same_eq' (es : List E) (e : E) :
    es.any (Element.same e) = decide (0 < countSame es e) := by
  rw [← any_same_eq, funext (Element.same_comm e)]

/-- A list has elements of the kind of each of its elements. -/
theorem countSame_pos (h : e ∈ es) : 0 < countSame es e :=
  List.countP_pos_iff.mpr ⟨e, h, Element.same_refl e⟩

omit [Element E] in
/-- Each element that is taken out takes one copy with it. -/
theorem count_foldl_erase (gone es : List E) (e : E) :
    (gone.foldl List.erase es).count e = es.count e - gone.count e := by
  induction gone generalizing es with
  | nil => simp
  | cons a gone ih =>
    rw [List.foldl_cons, ih, List.count_erase, List.count_cons]
    omega

/-- Taking out elements of other kinds leaves all elements of a kind. -/
theorem countSame_foldl_erase (h : ∀ a ∈ gone, Element.same a e = false) (es : List E) :
    countSame (gone.foldl List.erase es) e = countSame es e := by
  induction gone generalizing es with
  | nil => rfl
  | cons a gone ih =>
    obtain ⟨ha, hrest⟩ := List.forall_mem_cons.mp h
    rw [List.foldl_cons, ih hrest, countSame, List.countP_erase]
    simp [ha, countSame]

/-- Of a kind that the target has, all that is held stays, and what the target has joins if nothing
of the kind shows. -/
theorem countSame_reconciled_of_target (shown value : List E) (h : 0 < countSame target e) :
    countSame (reconciled target shown value) e =
      countSame value e + if 0 < countSame shown e then 0 else countSame target e := by
  have hgone : ∀ a ∈ shown.filter (fun e => !target.any (Element.same e)),
      Element.same a e = false := by
    intro a ha
    cases hsame : Element.same a e with
    | false => rfl
    | true =>
      have hlacks := (List.mem_filter.mp ha).2
      rw [any_same_eq', countSame_congr hsame, decide_eq_true h] at hlacks
      cases hlacks
  have hnew : countSame (target.filter fun e => !shown.any (Element.same · e)) e =
      if 0 < countSame shown e then 0 else countSame target e := by
    unfold countSame
    rw [List.countP_filter]
    split
    · next hshows =>
      refine List.countP_eq_zero.mpr fun a _ hboth => ?_
      obtain ⟨hsame, hlacks⟩ := Bool.and_eq_true_iff.mp hboth
      rw [any_same_eq, countSame_congr hsame, countSame, decide_eq_true hshows] at hlacks
      cases hlacks
    · next hnone =>
      refine List.countP_congr fun a _ => ?_
      cases hsame : Element.same a e with
      | false => simp
      | true => rw [any_same_eq, countSame_congr hsame, countSame, decide_eq_false hnone]; simp
  rw [reconciled, countSame_append, countSame_foldl_erase hgone, hnew]

/-- Of an element of a kind that the target lacks, as many copies stay as do not show. -/
theorem count_reconciled_of_lacking (shown value : List E) (h : countSame target e = 0) :
    (reconciled target shown value).count e = value.count e - shown.count e := by
  have hlacks : target.any (Element.same e) = false := by
    rw [any_same_eq', h]
    rfl
  have hnot : e ∉ target.filter fun e => !shown.any (Element.same · e) := by
    intro hmem
    have hpos := countSame_pos (List.mem_filter.mp hmem).1
    omega
  rw [reconciled, List.count_append, List.count_eq_zero_of_not_mem hnot, count_foldl_erase,
    List.count_filter (by rw [hlacks]; rfl), Nat.add_zero]

/-- Reconciling reaches the target exactly on the values for which that is said. -/
theorem reconciled_matches_iff (target shown value : List E) :
    (∀ e, countSame (reconciled target shown value) e = countSame target e) ↔
      Reconcilable target shown value := by
  constructor
  · intro h
    refine ⟨fun e he hshows => ?_, fun e he hnone => ?_, fun e _ hlacks => ?_⟩
    · have hcount := h e
      rwa [countSame_reconciled_of_target shown value (countSame_pos he), if_pos hshows] at hcount
    · have hcount := h e
      rw [countSame_reconciled_of_target shown value (countSame_pos he),
        if_neg (Nat.not_lt.mpr (Nat.le_of_eq hnone))] at hcount
      omega
    · have hnot : e ∉ reconciled target shown value := fun hmem => by
        have hpos := countSame_pos hmem
        rw [h e] at hpos
        omega
      have hcount := count_reconciled_of_lacking shown value hlacks
      rw [List.count_eq_zero_of_not_mem hnot] at hcount
      omega
  · intro h e
    rcases Nat.eq_zero_or_pos (countSame target e) with hlacks | hpos
    · -- Whatever is left of the kind would have been held more often than it shows.
      rw [hlacks, countSame, List.countP_eq_zero]
      intro a ha hsame
      have hlacks' : countSame target a = 0 := (countSame_congr hsame target).trans hlacks
      have hcount := count_reconciled_of_lacking shown value hlacks'
      have hleft := List.count_pos_iff.mpr ha
      have hheld : a ∈ value := List.count_pos_iff.mp (by omega)
      have hle := h.gone a hheld hlacks'
      omega
    · obtain ⟨a, ha, hsame⟩ := List.countP_pos_iff.mp hpos
      rw [countSame_reconciled_of_target shown value hpos, ← countSame_congr hsame value,
        ← countSame_congr hsame shown, ← countSame_congr hsame target]
      split
      · next hshows => exact h.kept a ha hshows
      · next hnone =>
        rw [h.new a ha (Nat.eq_zero_of_not_pos hnone), Nat.zero_add]

/-- Where all that is held shows, it is enough that no kind occurs on both sides in different
numbers. -/
theorem reconcilable_of_shown_iff (target es : List E) :
    Reconcilable target es es ↔
      ∀ e ∈ target, 0 < countSame es e → countSame es e = countSame target e :=
  ⟨Reconcilable.kept, fun h => ⟨h, fun _ _ => id, fun _ _ _ => Nat.le_refl _⟩⟩

end TrackedFields
