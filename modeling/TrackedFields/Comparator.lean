/-!
# Sorted lists by a comparator

Stable sorting by a comparator, and insertion into a sorted list. The place of a new element is
found by bisection; it is the one after every element that does not compare greater, so elements
that compare equal stay in order of arrival.

The laws of this module ask that the comparator is a total preorder. Sorting then gives a sorted
permutation, and insertion puts the new element between the elements that do not compare greater
and those that do.
-/

namespace TrackedFields

/-- A three-way comparison. -/
abbrev Comparator (E : Type) := E → E → Ordering

namespace Comparator

variable {E : Type}

/-- Whether the first element may stand before the second one. -/
def le (cmp : Comparator E) (a b : E) : Bool := (cmp a b).isLE

/-- The stable sort. -/
def sort (cmp : Comparator E) (es : List E) : List E := es.mergeSort cmp.le

/-- The comparison with its arguments swapped. -/
def reversed (cmp : Comparator E) : Comparator E := fun a b => cmp b a

/-- Bisection: the end of the run of positions that satisfy `p`, which starts at or before
`base` and ends within the next `size` positions. -/
def bisect (p : Nat → Bool) : Nat → Nat → Nat → Nat
  | 0, base, _ => base
  | fuel + 1, base, size =>
    if size ≤ 1 then base + (if p base then 1 else 0)
    else
      let half := size / 2
      bisect p fuel (if p (base + half) then base + half else base) (size - half)

/-- How many elements at the head of a list satisfy `p`, if all of them come first. -/
def partitionPoint (p : E → Bool) (es : List E) : Nat :=
  if es.isEmpty then 0 else bisect (fun i => es[i]?.any p) es.length 0 es.length

/-- Insert an element into a sorted list, after all that do not compare greater. -/
def insert (cmp : Comparator E) (es : List E) (e : E) : List E :=
  es.insertIdx (partitionPoint (fun a => cmp.le a e) es) e

/-- Insert several elements, one after the other. -/
def insertAll (cmp : Comparator E) (es new : List E) : List E := new.foldl cmp.insert es

/-- Each element may stand before all later ones. -/
def Sorted (cmp : Comparator E) (es : List E) : Prop := es.Pairwise fun a b => cmp.le a b

/-! ### Sorting -/

/-- Sorting keeps the elements. -/
theorem sort_perm (cmp : Comparator E) (es : List E) : (cmp.sort es).Perm es :=
  List.mergeSort_perm es cmp.le

/-- Sorting keeps the number of elements. -/
@[simp] theorem length_sort (cmp : Comparator E) (es : List E) :
    (cmp.sort es).length = es.length := (cmp.sort_perm es).length_eq

/-- Sorting keeps the members. -/
@[simp] theorem mem_sort (cmp : Comparator E) (es : List E) (e : E) :
    e ∈ cmp.sort es ↔ e ∈ es := (cmp.sort_perm es).mem_iff

/-- A sorted list is left as it is. -/
theorem sort_of_sorted {cmp : Comparator E} {es : List E} (h : cmp.Sorted es) :
    cmp.sort es = es := List.mergeSort_of_pairwise h

section TotalPreorder

variable (cmp : Comparator E) [Std.TransCmp cmp]

theorem le_trans (a b c : E) (hab : cmp.le a b) (hbc : cmp.le b c) : cmp.le a c :=
  Std.TransCmp.isLE_trans hab hbc

theorem le_total (a b : E) : cmp.le a b || cmp.le b a := by
  have h : cmp a b = (cmp b a).swap := Std.OrientedCmp.eq_swap
  unfold le
  rw [h]
  cases cmp b a <;> rfl

theorem le_refl (a : E) : cmp.le a a := by
  simpa using cmp.le_total a a

/-- What may not stand before an element may stand after it. -/
theorem le_of_not_le {a b : E} (h : cmp.le a b = false) : cmp.le b a := by
  simpa [h] using cmp.le_total a b

/-- Sorting gives a sorted list. -/
theorem sorted_sort (es : List E) : cmp.Sorted (cmp.sort es) :=
  List.pairwise_mergeSort cmp.le_trans cmp.le_total es

end TotalPreorder

/-! ### Insertion -/

private theorem bisect_eq (p : Nat → Bool) (n fuel base size : Nat)
    (hp : ∀ i, base ≤ i → i < base + size → (p i = true ↔ i < n))
    (hbase : base ≤ n) (hn : n ≤ base + size) (hsize : 0 < size) (hfuel : size ≤ fuel) :
    bisect p fuel base size = n := by
  induction fuel generalizing base size with
  | zero => omega
  | succ fuel ih =>
    unfold bisect
    split
    · have h := hp base (by omega) (by omega)
      split <;> simp_all <;> omega
    · have h := hp (base + size / 2) (by omega) (by omega)
      dsimp only
      split
      · exact ih (base + size / 2) (size - size / 2) (fun i hi hj => hp i (by omega) (by omega))
          (by simp_all; omega) (by omega) (by omega) (by omega)
      · exact ih base (size - size / 2) (fun i hi hj => hp i hi (by omega))
          hbase (by simp_all; omega) (by omega) (by omega)

private theorem bisect_le (p : Nat → Bool) (fuel base size : Nat) (hsize : 0 < size) :
    bisect p fuel base size ≤ base + size := by
  induction fuel generalizing base size with
  | zero => exact Nat.le_add_right _ _
  | succ fuel ih =>
    unfold bisect
    split
    · split <;> omega
    · have h := ih (if p (base + size / 2) then base + size / 2 else base) (size - size / 2)
        (by omega)
      split at h <;> simp_all <;> omega

/-- If all elements that satisfy `p` come first, the partition point counts them. -/
theorem partitionPoint_append (p : E → Bool) {before after : List E}
    (hb : ∀ e ∈ before, p e) (ha : ∀ e ∈ after, p e = false) :
    partitionPoint p (before ++ after) = before.length := by
  unfold partitionPoint
  split
  · simp_all
  · next h =>
    have hpos : 0 < (before ++ after).length := List.length_pos_iff.mpr (by simpa using h)
    refine bisect_eq _ _ _ _ _ (fun i _ hi => ?_) (Nat.zero_le _) (by simp) hpos (Nat.le_refl _)
    rw [Nat.zero_add, List.length_append] at hi
    by_cases h : i < before.length
    · simp [List.getElem?_append_left h, h, hb]
    · have hj : i - before.length < after.length := by omega
      rw [List.getElem?_append_right (Nat.le_of_not_lt h), List.getElem?_eq_getElem hj]
      simp [h, ha]

/-- The partition point is a position of the list or its end. -/
theorem partitionPoint_le (p : E → Bool) (es : List E) : partitionPoint p es ≤ es.length := by
  unfold partitionPoint
  split
  · exact Nat.zero_le _
  · next h =>
    have hpos : 0 < es.length := List.length_pos_iff.mpr (by simpa using h)
    simpa using bisect_le (fun i => es[i]?.any p) es.length 0 es.length hpos

/-- Inserting where the first part of a list ends puts an element between its parts. -/
theorem insertIdx_append_length (before after : List E) (e : E) :
    (before ++ after).insertIdx before.length e = before ++ e :: after := by
  induction before with
  | nil => simp
  | cons x xs ih => simp [ih]

/-- Insertion adds one element. -/
theorem insert_perm (cmp : Comparator E) (es : List E) (e : E) :
    (cmp.insert es e).Perm (e :: es) :=
  List.perm_insertIdx e es (partitionPoint_le _ es)

/-- Insertion of several elements adds them. -/
theorem insertAll_perm (cmp : Comparator E) (es new : List E) :
    (cmp.insertAll es new).Perm (es ++ new) := by
  induction new generalizing es with
  | nil => rw [List.append_nil]; exact .refl es
  | cons e new ih =>
    refine (ih (cmp.insert es e)).trans ?_
    exact ((cmp.insert_perm es e).append_right new).trans List.perm_middle.symm

/-- Insertion puts the new element between those that do not compare greater and those that
do. -/
theorem insert_append (cmp : Comparator E) {before after : List E} {e : E}
    (hb : ∀ a ∈ before, cmp.le a e) (ha : ∀ a ∈ after, cmp.le a e = false) :
    cmp.insert (before ++ after) e = before ++ e :: after := by
  rw [insert, partitionPoint_append _ hb ha, insertIdx_append_length]

/-- In a sorted list, the elements that do not compare greater than another one come first. -/
theorem Sorted.split {cmp : Comparator E} [Std.TransCmp cmp] {es : List E} (h : cmp.Sorted es)
    (e : E) : ∃ before after, es = before ++ after ∧ (∀ a ∈ before, cmp.le a e) ∧
      ∀ a ∈ after, cmp.le a e = false := by
  induction es with
  | nil => exact ⟨[], [], rfl, by simp, by simp⟩
  | cons x xs ih =>
    obtain ⟨hx, hxs⟩ := List.pairwise_cons.mp h
    cases hle : cmp.le x e with
    | true =>
      obtain ⟨before, after, rfl, hb, ha⟩ := ih hxs
      exact ⟨x :: before, after, rfl, by simpa [hle] using hb, ha⟩
    | false =>
      refine ⟨[], x :: xs, rfl, by simp, fun a ha => ?_⟩
      rcases List.mem_cons.mp ha with rfl | ha
      · exact hle
      · exact Bool.eq_false_iff.mpr fun hae => by
          simp [cmp.le_trans x a e (hx a ha) hae] at hle

/-- Insertion keeps a list sorted. -/
theorem Sorted.insert {cmp : Comparator E} [Std.TransCmp cmp] {es : List E}
    (h : cmp.Sorted es) (e : E) : cmp.Sorted (cmp.insert es e) := by
  obtain ⟨before, after, rfl, hb, ha⟩ := h.split e
  rw [cmp.insert_append hb ha]
  obtain ⟨hbefore, hafter, hacross⟩ := List.pairwise_append.mp h
  refine List.pairwise_append.mpr ⟨hbefore, List.pairwise_cons.mpr
    ⟨fun a h => cmp.le_of_not_le (ha a h), hafter⟩, fun a h b h' => ?_⟩
  rcases List.mem_cons.mp h' with rfl | h'
  · exact hb a h
  · exact hacross a h b h'

end Comparator

end TrackedFields
