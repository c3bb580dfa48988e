import Mathlib.Data.List.Induction
import TrackedFields.Comparator

/-!
# Sorting, insertion and removal

A sorted list can be kept by inserting each new element at its place, or by appending it and
sorting again. Both give the same list, also among elements that compare equal: sorting a list with
new elements at its end inserts them one by one into the sorted list. Likewise it does not matter
whether elements are taken out of a list before or after it is sorted. What sorting gives is the
only sorted list that keeps elements which compare equal in order. The head of the sorted list is
the earliest of the least elements, the first one that may stand before all others.
-/

namespace TrackedFields.Comparator

variable {E : Type} {cmp : Comparator E}

/-- Part of a sorted list is sorted. -/
theorem Sorted.sublist {es part : List E} (h : cmp.Sorted es) (hpart : part.Sublist es) :
    cmp.Sorted part := List.Pairwise.sublist hpart h

variable [Std.TransCmp cmp]

/-- An element goes behind every prefix that does not compare greater. -/
theorem insert_append_right {before after : List E} {e : E} (hafter : cmp.Sorted after)
    (hb : ∀ a ∈ before, cmp.le a e) :
    cmp.insert (before ++ after) e = before ++ cmp.insert after e := by
  obtain ⟨low, high, rfl, hlow, hhigh⟩ := hafter.split e
  have hall : ∀ a ∈ before ++ low, cmp.le a e := by
    intro a ha
    exact (List.mem_append.mp ha).elim (hb a) (hlow a)
  rw [← List.append_assoc, cmp.insert_append hall hhigh, cmp.insert_append hlow hhigh,
    List.append_assoc]

/-- An element goes before every suffix that compares greater. -/
theorem insert_append_left {before after : List E} {e : E} (hbefore : cmp.Sorted before)
    (ha : ∀ a ∈ after, cmp.le a e = false) :
    cmp.insert (before ++ after) e = cmp.insert before e ++ after := by
  obtain ⟨low, high, rfl, hlow, hhigh⟩ := hbefore.split e
  have hall : ∀ a ∈ high ++ after, cmp.le a e = false := by
    intro a h
    exact (List.mem_append.mp h).elim (hhigh a) (ha a)
  rw [List.append_assoc, cmp.insert_append hlow hall, cmp.insert_append hlow hhigh,
    List.append_assoc, List.cons_append]

omit [Std.TransCmp cmp] in
private theorem forall_insert {es : List E} {e : E} {p : E → Prop} (he : p e)
    (hes : ∀ b ∈ es, p b) : ∀ b ∈ cmp.insert es e, p b := by
  intro b hb
  rcases List.mem_cons.mp ((cmp.insert_perm es e).mem_iff.mp hb) with rfl | hb
  · exact he
  · exact hes b hb

/-- A list splits in one way only into elements that satisfy a condition and elements that do
not. -/
private theorem split_unique {p : E → Bool} {before after before' after' : List E}
    (h : before ++ after = before' ++ after')
    (hb : ∀ a ∈ before, p a) (ha : ∀ a ∈ after, p a = false)
    (hb' : ∀ a ∈ before', p a) (ha' : ∀ a ∈ after', p a = false) :
    before = before' ∧ after = after' := by
  have htake (xs ys : List E) (hx : ∀ a ∈ xs, p a) (hy : ∀ a ∈ ys, p a = false) :
      (xs ++ ys).takeWhile p = xs := by
    rw [List.takeWhile_append_of_pos hx]
    cases ys with
    | nil => simp
    | cons y ys => simp [hy y]
  have hbefore : before = before' := by
    rw [← htake before after hb ha, h, htake before' after' hb' ha']
  subst hbefore
  exact ⟨rfl, List.append_cancel_left h⟩

/-- The place of the first element of a list once the list is sorted: behind all that may not
stand behind it. -/
private theorem sort_cons (cmp : Comparator E) [Std.TransCmp cmp] (a : E) (es : List E) :
    ∃ before after,
    cmp.sort (a :: es) = before ++ a :: after ∧ cmp.sort es = before ++ after ∧
      (∀ b ∈ before, !cmp.le a b) ∧ ∀ b ∈ after, (!cmp.le a b) = false := by
  obtain ⟨before, after, hcons, hes, hbefore⟩ :=
    List.mergeSort_cons (cmp.le_trans) (cmp.le_total) a es
  refine ⟨before, after, hcons, hes, hbefore, ?_⟩
  have hsorted : cmp.Sorted (before ++ a :: after) := hcons ▸ cmp.sorted_sort (a :: es)
  have hafter := (List.pairwise_cons.mp (List.pairwise_append.mp hsorted).2.1).1
  intro b hb
  simp [hafter b hb]

variable (cmp)

/-- Sorting a list with one more element at its end inserts that element. -/
theorem sort_concat (es : List E) (e : E) :
    cmp.sort (es ++ [e]) = cmp.insert (cmp.sort es) e := by
  induction es with
  | nil => simp [sort, insert, partitionPoint]
  | cons a es ih =>
    obtain ⟨low, high, hcons, hes, hlow, hhigh⟩ := sort_cons cmp a es
    obtain ⟨low', high', hcons', hes', hlow', hhigh'⟩ := sort_cons cmp a (es ++ [e])
    have hsorted : cmp.Sorted (low ++ high) := hes ▸ cmp.sorted_sort es
    have hsortedLow := hsorted.sublist (List.sublist_append_left low high)
    have hsortedHigh := hsorted.sublist (List.sublist_append_right low high)
    rw [List.cons_append, hcons', hcons]
    rw [ih, hes] at hes'
    cases hae : cmp.le a e with
    | true =>
      -- Everything before `a` may stand before `e`, so `e` goes behind `a`.
      have hlowe : ∀ b ∈ low, cmp.le b e := fun b hb =>
        cmp.le_trans b a e (cmp.le_of_not_le (by simpa using hlow b hb)) hae
      rw [insert_append_right hsortedHigh hlowe] at hes'
      have hhighe : ∀ b ∈ cmp.insert high e, (!cmp.le a b) = false :=
        forall_insert (by simp [hae]) hhigh
      obtain ⟨rfl, rfl⟩ := split_unique hes' hlow hhighe hlow' hhigh'
      have hsortedTail : cmp.Sorted (a :: high) :=
        List.pairwise_cons.mpr ⟨fun b hb => by simpa using hhigh b hb, hsortedHigh⟩
      have hone : ∀ b ∈ [a], cmp.le b e := by simp [hae]
      rw [insert_append_right hsortedTail hlowe,
        show a :: high = [a] ++ high from rfl, insert_append_right hsortedHigh hone]
      rfl
    | false =>
      -- Nothing from `a` on may stand before `e`, so `e` goes before `a`.
      have hhighe : ∀ b ∈ high, cmp.le b e = false := by
        intro b hb
        apply Bool.eq_false_iff.mpr
        intro hbe
        have hab : cmp.le a b := by simpa using hhigh b hb
        simp [cmp.le_trans a b e hab hbe] at hae
      rw [insert_append_left hsortedLow hhighe] at hes'
      have hlowe : ∀ b ∈ cmp.insert low e, !cmp.le a b := forall_insert (by simp [hae]) hlow
      obtain ⟨rfl, rfl⟩ := split_unique hes' hlowe hhigh hlow' hhigh'
      have htail : ∀ b ∈ a :: high, cmp.le b e = false := List.forall_mem_cons.mpr ⟨hae, hhighe⟩
      rw [insert_append_left hsortedLow htail]

/-- Sorting a list with new elements at its end inserts them one by one. -/
theorem sort_append (es new : List E) :
    cmp.sort (es ++ new) = cmp.insertAll (cmp.sort es) new := by
  induction new generalizing es with
  | nil => simp [insertAll]
  | cons e new ih => rw [List.append_cons, ih, sort_concat]; rfl

/-- An element that is inserted into a sorted list finds the place that it has once it is added at
the end and the list is sorted again. -/
theorem Sorted.insert_eq_sort {cmp : Comparator E} [Std.TransCmp cmp] {es : List E}
    (h : cmp.Sorted es) (e : E) : cmp.insert es e = cmp.sort (es ++ [e]) := by
  rw [cmp.sort_concat, cmp.sort_of_sorted h]

/-- Elements that are inserted into a sorted list one by one find the places that they have once
they are all added at the end and the list is sorted again. -/
theorem Sorted.insertAll_eq_sort {cmp : Comparator E} [Std.TransCmp cmp] {es : List E}
    (h : cmp.Sorted es) (new : List E) : cmp.insertAll es new = cmp.sort (es ++ new) := by
  rw [cmp.sort_append, cmp.sort_of_sorted h]

/-- Inserting several elements keeps a list sorted. -/
theorem Sorted.insertAll {cmp : Comparator E} [Std.TransCmp cmp] {es : List E}
    (h : cmp.Sorted es) (new : List E) :
    cmp.Sorted (cmp.insertAll es new) := by
  induction new generalizing es with
  | nil => exact h
  | cons e new ih => exact ih (h.insert e)

/-- Building a list by insertion sorts it. -/
theorem insertAll_nil (new : List E) : cmp.insertAll [] new = cmp.sort new := by
  have h := cmp.sort_append [] new
  rw [List.nil_append, cmp.sort_of_sorted .nil] at h
  exact h.symm

/-! ### Removal -/

/-- Inserting into a sorted list adds an element that satisfies a condition to the elements that
satisfy it. -/
theorem Sorted.filter_insert {cmp : Comparator E} [Std.TransCmp cmp] {es : List E}
    (h : cmp.Sorted es) (p : E → Bool) (e : E) :
    (cmp.insert es e).filter p =
      if p e then cmp.insert (es.filter p) e else es.filter p := by
  obtain ⟨before, after, rfl, hb, ha⟩ := h.split e
  rw [cmp.insert_append hb ha, List.filter_append, List.filter_append]
  split
  · next hpe =>
    have hb' : ∀ a ∈ before.filter p, cmp.le a e := fun a h => hb a (List.mem_filter.mp h).1
    have ha' : ∀ a ∈ after.filter p, cmp.le a e = false :=
      fun a h => ha a (List.mem_filter.mp h).1
    rw [cmp.insert_append hb' ha', List.filter_cons_of_pos hpe]
  · next hpe => rw [List.filter_cons_of_neg hpe]

/-- It does not matter whether a list is sorted before or after elements are taken out of it. -/
theorem sort_filter (p : E → Bool) (es : List E) :
    cmp.sort (es.filter p) = (cmp.sort es).filter p := by
  induction es using List.reverseRecOn with
  | nil => rw [List.filter_nil, cmp.sort_of_sorted .nil, List.filter_nil]
  | append_singleton es e ih =>
    rw [cmp.sort_concat, (cmp.sorted_sort es).filter_insert p e, List.filter_append, ← ih]
    cases hpe : p e with
    | true => rw [List.filter_cons_of_pos hpe, List.filter_nil, cmp.sort_concat, if_pos rfl]
    | false =>
      rw [List.filter_cons_of_neg (by rw [hpe]; exact Bool.false_ne_true), List.filter_nil,
        List.append_nil, if_neg Bool.false_ne_true]

/-- Inserting into a sorted list and removing one occurrence of an element that is there already may
be done in any order. -/
theorem Sorted.erase_insert [DecidableEq E] {cmp : Comparator E} [Std.TransCmp cmp] {es : List E}
    (h : cmp.Sorted es) {a : E} (ha : a ∈ es) (e : E) :
    (cmp.insert es e).erase a = cmp.insert (es.erase a) e := by
  obtain ⟨before, after, rfl, hbefore, hafter⟩ := h.split e
  rw [cmp.insert_append hbefore hafter]
  by_cases hmem : a ∈ before
  · have hbefore' : ∀ b ∈ before.erase a, cmp.le b e :=
      fun b hb => hbefore b (List.mem_of_mem_erase hb)
    rw [List.erase_append_left _ hmem, List.erase_append_left _ hmem,
      cmp.insert_append hbefore' hafter]
  · -- The element stands among those that compare greater than the new one.
    have hgreater : cmp.le a e = false :=
      hafter a ((List.mem_append.mp ha).resolve_left hmem)
    have hne : e ≠ a := by
      rintro rfl
      rw [cmp.le_refl e] at hgreater
      cases hgreater
    have hafter' : ∀ b ∈ after.erase a, cmp.le b e = false :=
      fun b hb => hafter b (List.mem_of_mem_erase hb)
    rw [List.erase_append_right _ hmem, List.erase_append_right _ hmem,
      List.erase_cons_tail (by simpa using hne), cmp.insert_append hbefore hafter']

/-- It does not matter whether a list is sorted before or after one occurrence of an element is
removed. -/
theorem sort_erase [DecidableEq E] (e : E) (es : List E) :
    cmp.sort (es.erase e) = (cmp.sort es).erase e := by
  induction es using List.reverseRecOn with
  | nil => rw [List.erase_nil, cmp.sort_of_sorted .nil, List.erase_nil]
  | append_singleton es a ih =>
    have hsorted := cmp.sorted_sort es
    rw [cmp.sort_concat]
    by_cases hmem : e ∈ es
    · rw [List.erase_append_left _ hmem, cmp.sort_concat, ih,
        hsorted.erase_insert ((cmp.mem_sort es e).mpr hmem)]
    · -- If the element is there at all, it is the last one, and goes where it was inserted.
      have hmem' : e ∉ cmp.sort es := fun h => hmem ((cmp.mem_sort es e).mp h)
      obtain ⟨before, after, hsort, hbefore, hafter⟩ := hsorted.split a
      rw [hsort, List.mem_append, not_or] at hmem'
      rw [List.erase_append_right _ hmem, hsort, cmp.insert_append hbefore hafter,
        List.erase_append_right _ hmem'.1]
      by_cases hae : a = e
      · subst hae
        rw [List.erase_cons_head, List.erase_cons_head, List.append_nil, hsort]
      · have hne : (a == e) = false := by simpa using hae
        rw [List.erase_cons_tail (by simp [hne]), List.erase_cons_tail (by simp [hne]),
          List.erase_of_not_mem hmem'.2, List.erase_nil, cmp.sort_concat, hsort,
          cmp.insert_append hbefore hafter]

/-- Elements that satisfy a condition may be picked before or after several elements are inserted
into a sorted list. -/
theorem Sorted.filter_insertAll {cmp : Comparator E} [Std.TransCmp cmp] {es : List E}
    (h : cmp.Sorted es) (p : E → Bool) (new : List E) :
    (cmp.insertAll es new).filter p = cmp.insertAll (es.filter p) (new.filter p) := by
  rw [h.insertAll_eq_sort, ← cmp.sort_filter, List.filter_append,
    (h.sublist List.filter_sublist).insertAll_eq_sort]

/-- One occurrence of an element may be removed before or after several elements are inserted into a
sorted list. -/
theorem Sorted.erase_insertAll [DecidableEq E] {cmp : Comparator E} [Std.TransCmp cmp]
    {es : List E} (h : cmp.Sorted es) (e : E) (new : List E) :
    (cmp.insertAll es new).erase e =
      cmp.insertAll (es.erase e) (if e ∈ es then new else new.erase e) := by
  rw [h.insertAll_eq_sort, ← cmp.sort_erase, List.erase_append,
    (h.sublist List.erase_sublist).insertAll_eq_sort]
  by_cases hmem : e ∈ es
  · rw [if_pos hmem, if_pos hmem]
  · rw [if_neg hmem, if_neg hmem, List.erase_of_not_mem hmem]

/-- Taking an element out of a sorted list, wherever it stands, takes it out of its place in the
unsorted one. -/
theorem exists_sort_eraseIdx {es : List E} {index : Nat} (h : index < es.length) :
    ∃ place, es[place]? = (cmp.sort es)[index]? ∧
      cmp.sort (es.eraseIdx place) = (cmp.sort es).eraseIdx index := by
  induction es using List.reverseRecOn generalizing index with
  | nil => exact absurd h (Nat.not_lt_zero index)
  | append_singleton es e ih =>
    obtain ⟨before, after, hsort, hbefore, hafter⟩ := (cmp.sorted_sort es).split e
    have hlength : es.length = before.length + after.length := by
      rw [← List.length_append, ← hsort, cmp.length_sort]
    rw [List.length_append, List.length_singleton] at h
    rw [cmp.sort_concat, hsort, cmp.insert_append hbefore hafter]
    -- An element other than the last one stands somewhere in the sorted list of the others.
    have hother (inner : Nat) (hinner : inner < es.length)
        (hsame : (before ++ after)[inner]? = (before ++ e :: after)[index]?)
        (hplace : cmp.insert ((before ++ after).eraseIdx inner) e =
          (before ++ e :: after).eraseIdx index) :
        ∃ place, (es ++ [e])[place]? = (before ++ e :: after)[index]? ∧
          cmp.sort ((es ++ [e]).eraseIdx place) = (before ++ e :: after).eraseIdx index := by
      obtain ⟨place, hfound, herase⟩ := ih hinner
      have hbound : place < es.length := by
        by_contra hout
        have hnone := List.getElem?_eq_none (Nat.not_lt.mp hout)
        rw [hfound, List.getElem?_eq_none_iff, cmp.length_sort] at hnone
        omega
      rw [hsort] at hfound herase
      refine ⟨place, ?_, ?_⟩
      · rw [List.getElem?_append_left hbound, hfound, hsame]
      · rw [List.eraseIdx_append_of_lt_length hbound, cmp.sort_concat, herase, hplace]
    -- The last element stands behind the place in question, at it, or before it.
    rcases Nat.lt_trichotomy index before.length with hlow | hlast | hhigh
    · apply hother index (by omega)
      · rw [List.getElem?_append_left hlow, List.getElem?_append_left hlow]
      · rw [List.eraseIdx_append_of_lt_length hlow, List.eraseIdx_append_of_lt_length hlow]
        exact cmp.insert_append (fun a ha => hbefore a (List.mem_of_mem_eraseIdx ha)) hafter
    · subst hlast
      refine ⟨es.length, by simp, ?_⟩
      simp [List.eraseIdx_append_of_length_le, hsort]
    · obtain ⟨offset, rfl⟩ : ∃ offset, index = before.length + (offset + 1) :=
        ⟨index - before.length - 1, by omega⟩
      apply hother (before.length + offset) (by omega)
      · simp [List.getElem?_append_right]
      · simp only [List.eraseIdx_append_of_length_le (Nat.le_add_right before.length _),
          Nat.add_sub_cancel_left, List.eraseIdx_cons_succ]
        exact cmp.insert_append hbefore fun a ha => hafter a (List.mem_of_mem_eraseIdx ha)

/-! ### Stability -/

/-- Whether an element compares equal to another one. -/
def ties (cmp : Comparator E) (e a : E) : Bool := cmp a e == .eq

omit [Std.TransCmp cmp] in
/-- Elements tie if the order ranks them equal. -/
theorem ties_iff {a e : E} : cmp.ties e a = true ↔ cmp a e = .eq := beq_iff_eq

/-- An element ties with itself. -/
theorem ties_self (e : E) : cmp.ties e e = true := (ties_iff cmp).mpr Std.ReflCmp.compare_self

/-- Elements that may stand before one another compare equal. -/
theorem ties_of_le {a e : E} (h : cmp.le a e) (h' : cmp.le e a) : cmp.ties e a = true :=
  (ties_iff cmp).mpr (Std.OrientedCmp.isLE_antisymm h h')

/-- Sorting leaves elements that compare equal in order. -/
theorem filter_ties_sort (e : E) (es : List E) :
    (cmp.sort es).filter (cmp.ties e) = es.filter (cmp.ties e) := by
  rw [← cmp.sort_filter]
  apply cmp.sort_of_sorted
  apply List.pairwise_of_forall_mem_list
  intro a ha b hb
  have hae := (ties_iff cmp).mp (List.mem_filter.mp ha).2
  have hbe := (ties_iff cmp).mp (List.mem_filter.mp hb).2
  have hab : cmp a b = .eq := Std.TransCmp.eq_trans hae (Std.OrientedCmp.eq_symm hbe)
  rw [le, hab]
  rfl

private theorem subset_of_filter_ties {es others : List E}
    (hties : ∀ e, es.filter (cmp.ties e) = others.filter (cmp.ties e)) : es ⊆ others := by
  intro a ha
  have hkind : a ∈ es.filter (cmp.ties a) := List.mem_filter.mpr ⟨ha, cmp.ties_self a⟩
  rw [hties] at hkind
  exact (List.mem_filter.mp hkind).1

/-- Two sorted lists are the same if they have the same elements of each kind in the same order. -/
theorem Sorted.eq_of_filter_ties {cmp : Comparator E} [Std.TransCmp cmp] {es others : List E}
    (h : cmp.Sorted es) (h' : cmp.Sorted others)
    (hties : ∀ e, es.filter (cmp.ties e) = others.filter (cmp.ties e)) : es = others := by
  induction es generalizing others with
  | nil => exact (List.subset_nil.mp (cmp.subset_of_filter_ties fun e => (hties e).symm)).symm
  | cons a es ih =>
    have hfirst : a ∈ others := cmp.subset_of_filter_ties hties List.mem_cons_self
    cases others with
    | nil => exact absurd hfirst List.not_mem_nil
    | cons b others =>
      obtain ⟨ha, hes⟩ := List.pairwise_cons.mp h
      obtain ⟨hb, hothers⟩ := List.pairwise_cons.mp h'
      have hfirst' : b ∈ a :: es :=
        cmp.subset_of_filter_ties (fun e => (hties e).symm) List.mem_cons_self
      -- Both heads may stand before each other, so they are the first ones of the same kind.
      have hba : cmp.le b a := by
        rcases List.mem_cons.mp hfirst with rfl | hmem
        · exact cmp.le_refl a
        · exact hb a hmem
      have hab : cmp.le a b := by
        rcases List.mem_cons.mp hfirst' with rfl | hmem
        · exact cmp.le_refl b
        · exact ha b hmem
      have hkind := hties a
      rw [List.filter_cons_of_pos (cmp.ties_self a),
        List.filter_cons_of_pos (cmp.ties_of_le hba hab)] at hkind
      obtain ⟨rfl, -⟩ := List.cons.inj hkind
      rw [ih hes hothers fun e => ?_]
      have hkinds := hties e
      rw [List.filter_cons, List.filter_cons] at hkinds
      split at hkinds
      · exact (List.cons.inj hkinds).2
      · exact hkinds

/-- The stable sort is the one sorted list that has the same elements of each kind in the same
order. -/
theorem eq_sort_iff {es out : List E} :
    out = cmp.sort es ↔
      cmp.Sorted out ∧ ∀ e, out.filter (cmp.ties e) = es.filter (cmp.ties e) := by
  constructor
  · rintro rfl
    exact ⟨cmp.sorted_sort es, fun e => cmp.filter_ties_sort e es⟩
  · rintro ⟨hsorted, hties⟩
    apply hsorted.eq_of_filter_ties (cmp.sorted_sort es)
    intro e
    rw [hties, cmp.filter_ties_sort]

/-! ### The head -/

/-- The first of the elements of a list that may stand before all of them. -/
def earliest (cmp : Comparator E) (es : List E) : Option E := es.find? fun e => es.all (cmp.le e)

/-- The earliest element compares less than all before it, and may stand before all behind it. -/
theorem earliest_eq_some_iff {es : List E} {e : E} :
    cmp.earliest es = some e ↔ ∃ before after, es = before ++ e :: after ∧
      (∀ a ∈ before, cmp.le a e = false) ∧ ∀ a ∈ after, cmp.le e a := by
  unfold earliest
  rw [List.find?_eq_some_iff_append, List.all_eq_true]
  constructor
  · rintro ⟨hleast, before, after, rfl, hbefore⟩
    refine ⟨before, after, rfl, fun a ha => ?_, fun a ha => hleast a (by simp [ha])⟩
    -- An element before it that may stand before it might stand before all, like it does.
    by_contra hle
    have hall : (before ++ e :: after).all (cmp.le a) = true := List.all_eq_true.mpr fun b hb =>
      cmp.le_trans a e b (by simpa using hle) (hleast b hb)
    have hnot := hbefore a ha
    rw [hall] at hnot
    cases hnot
  · rintro ⟨before, after, rfl, hbefore, hafter⟩
    refine ⟨fun a ha => ?_, before, after, rfl, fun a ha => ?_⟩
    · rcases List.mem_append.mp ha with ha | ha
      · exact cmp.le_of_not_le (hbefore a ha)
      · rcases List.mem_cons.mp ha with rfl | ha
        · exact cmp.le_refl a
        · exact hafter a ha
    · rw [Bool.not_eq_true', List.all_eq_false]
      exact ⟨e, by simp, by simp [hbefore a ha]⟩

/-- Only an empty list has no earliest element. -/
theorem earliest_eq_none_iff {es : List E} : cmp.earliest es = none ↔ es = [] := by
  constructor
  · intro hnone
    cases hsort : cmp.sort es with
    | nil => exact List.length_eq_zero_iff.mp (by rw [← cmp.length_sort es, hsort]; rfl)
    | cons e rest =>
      have hsorted : cmp.Sorted (e :: rest) := hsort ▸ cmp.sorted_sort es
      have hmem (a : E) : a ∈ es ↔ a ∈ e :: rest := by rw [← hsort, cmp.mem_sort]
      have hleast : es.all (cmp.le e) = true := List.all_eq_true.mpr fun a ha => by
        rcases List.mem_cons.mp ((hmem a).mp ha) with rfl | ha
        · exact cmp.le_refl a
        · exact (List.pairwise_cons.mp hsorted).1 a ha
      exact absurd hleast (List.find?_eq_none.mp hnone e ((hmem e).mpr List.mem_cons_self))
  · rintro rfl
    rfl

/-- An element that compares less than all before it, and may stand before all behind it, comes
first once the list is sorted. -/
theorem sort_of_earliest {before after : List E} {e : E} (hb : ∀ a ∈ before, cmp.le a e = false)
    (ha : ∀ a ∈ after, cmp.le e a) :
    cmp.sort (before ++ e :: after) = e :: cmp.sort (before ++ after) := by
  induction after using List.reverseRecOn with
  | nil =>
    have hafter : ∀ a ∈ cmp.sort before, cmp.le a e = false :=
      fun a h => hb a ((cmp.mem_sort before a).mp h)
    have hinsert : cmp.insert ([] ++ cmp.sort before) e = [] ++ e :: cmp.sort before :=
      cmp.insert_append (List.forall_mem_nil _) hafter
    rw [cmp.sort_concat, List.append_nil]
    exact hinsert
  | append_singleton after a ih =>
    obtain ⟨hafter, hlast⟩ := List.forall_mem_append.mp ha
    have hfirst : ∀ b ∈ [e], cmp.le b a := by simpa using hlast
    rw [← List.cons_append, ← List.append_assoc, ← List.append_assoc, cmp.sort_concat,
      cmp.sort_concat, ih hafter]
    exact insert_append_right (cmp.sorted_sort _) hfirst

/-- Sorting a list brings its earliest element to the head, and sorts the others behind it. -/
theorem sort_eq_of_earliest [DecidableEq E] {es : List E} {e : E} (h : cmp.earliest es = some e) :
    cmp.sort es = e :: cmp.sort (es.erase e) := by
  obtain ⟨before, after, rfl, hb, ha⟩ := cmp.earliest_eq_some_iff.mp h
  have hmem : e ∉ before := by
    intro hmem
    have hbefore := hb e hmem
    rw [cmp.le_refl e] at hbefore
    cases hbefore
  rw [List.erase_append_right _ hmem, List.erase_cons_head]
  exact cmp.sort_of_earliest hb ha

/-- The head of a sorted list is the earliest element. -/
theorem head?_sort [DecidableEq E] (es : List E) : (cmp.sort es).head? = cmp.earliest es := by
  cases h : cmp.earliest es with
  | none => rw [cmp.earliest_eq_none_iff.mp h, cmp.sort_of_sorted .nil, List.head?_nil]
  | some e => rw [cmp.sort_eq_of_earliest h, List.head?_cons]

/-- Behind the head of a sorted list, the others are sorted. -/
theorem tail_sort [DecidableEq E] (es : List E) :
    (cmp.sort es).tail = cmp.sort ((cmp.earliest es).elim es es.erase) := by
  cases h : cmp.earliest es with
  | none =>
    rw [Option.elim_none, cmp.earliest_eq_none_iff.mp h, cmp.sort_of_sorted .nil, List.tail_nil]
  | some e => rw [Option.elim_some, cmp.sort_eq_of_earliest h, List.tail_cons]

end TrackedFields.Comparator
