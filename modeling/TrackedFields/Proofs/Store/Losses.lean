import TrackedFields.Proofs.Session.Harmless
import TrackedFields.Proofs.Store.Shelf

/-!
# What operations lose

A store of dependent elements deletes an element with the operation that lets its last occurrence
go. Operations carried out one after the other delete one after the other, each by what it makes of
the container that those before it left. For single operations and for removals by value, this
comes to the same: deleted is what the container held before them and no longer holds after them.
-/

namespace TrackedFields

open Store (Rules)

/-- Of some elements that leave a container, those that it lost for good, if losing is allowed: it
held them before and does not hold them afterwards. -/
def LostForGood {E : Type} (allowed : Bool) (es next lost : List E) : Prop :=
  ∀ e, e ∈ lost ↔ allowed = true ∧ e ∈ es ∧ e ∉ next

namespace LostForGood

variable {E : Type} {allowed : Bool} {es next lost : List E}

/-- Nothing is lost as long as everything is kept. -/
theorem nil (h : allowed = true → ∀ e ∈ es, e ∈ next) : LostForGood allowed es next [] := by
  intro e
  constructor
  · intro hmem
    cases hmem
  · rintro ⟨hallowed, hes, hnext⟩
    exact absurd (h hallowed e hes) hnext

/-- What is lost does not depend on the order of elements. -/
theorem congr {es' next' : List E} (h : LostForGood allowed es next lost)
    (hes : ∀ e, e ∈ es' ↔ e ∈ es) (hnext : ∀ e, e ∈ next' ↔ e ∈ next) :
    LostForGood allowed es' next' lost := by
  intro e
  rw [h e, hes, hnext]

/-- What has been deleted stays the same in two places that lose the same. -/
theorem mem_append_iff {lost' before before' : List E} (h : LostForGood allowed es next lost)
    (h' : LostForGood allowed es next lost') (hbefore : ∀ e, e ∈ before ↔ e ∈ before') (e : E) :
    e ∈ before ++ lost ↔ e ∈ before' ++ lost' := by
  rw [List.mem_append, List.mem_append, hbefore e, h e, h' e]

variable {mid first rest : List E}

/-- What is lost in two steps, of which the second one lets nothing in, is lost in all. -/
theorem trans (h : LostForGood allowed es mid first) (h' : LostForGood allowed mid next rest)
    (hmid : mid ⊆ es) (hnext : next ⊆ mid) : LostForGood allowed es next (first ++ rest) := by
  intro e
  rw [List.mem_append, h e, h' e]
  -- What is not there in the end left in the first step, or is still there and leaves later.
  constructor
  · rintro (⟨hallowed, hes, hout⟩ | ⟨hallowed, hkept, hout⟩)
    · exact ⟨hallowed, hes, fun hin => hout (hnext hin)⟩
    · exact ⟨hallowed, hmid hkept, hout⟩
  · rintro ⟨hallowed, hes, hout⟩
    by_cases hkept : e ∈ mid
    · exact .inr ⟨hallowed, hkept, hout⟩
    · exact .inl ⟨hallowed, hes, hkept⟩

/-- What is lost first is not there any more to be lost again. -/
theorem nodup_append (h : LostForGood allowed es mid first) (h' : LostForGood allowed mid next rest)
    (hfirst : first.Nodup) (hrest : rest.Nodup) : (first ++ rest).Nodup := by
  refine List.nodup_append.mpr ⟨hfirst, hrest, ?_⟩
  rintro e he _ hlater rfl
  exact ((h e).mp he).2.2 ((h' e).mp hlater).2.1

/-- Of what leaves a container, lost is what it holds no more. -/
theorem of_gone [DecidableEq E] {gone : List E} (hgone : gone ⊆ es)
    (hleft : ∀ e ∈ es, e ∈ gone ∨ e ∈ next) :
    LostForGood true es next (gone.filter fun e => !next.contains e) := by
  intro e
  rw [List.mem_filter, Bool.not_eq_true', List.contains_eq_mem, decide_eq_false_iff_not]
  constructor
  · rintro ⟨he, hout⟩
    exact ⟨rfl, hgone he, hout⟩
  · rintro ⟨-, hes, hout⟩
    exact ⟨(hleft e hes).resolve_right hout, hout⟩

end LostForGood

section SinglePlaces

variable {E : Type} {es : List E} {index : Nat} {a previous : E}

/-- Only the element at a position leaves with it. -/
theorem eq_or_mem_eraseIdx (h : es[index]? = some previous) (ha : a ∈ es) :
    a = previous ∨ a ∈ es.eraseIdx index := by
  obtain ⟨place, hplace⟩ := List.mem_iff_getElem?.mp ha
  by_cases hindex : place = index
  · rw [hindex, h] at hplace
    exact .inl (Option.some.inj hplace).symm
  · exact .inr (List.mem_eraseIdx_iff_getElem?.mpr ⟨place, hindex, hplace⟩)

/-- Only the element at a position leaves where it is replaced. -/
theorem eq_or_mem_set (h : es[index]? = some previous) (e : E) (ha : a ∈ es) :
    a = previous ∨ a ∈ es.set index e := by
  obtain ⟨place, hplace⟩ := List.mem_iff_getElem?.mp ha
  by_cases hindex : index = place
  · rw [← hindex, h] at hplace
    exact .inl (Option.some.inj hplace).symm
  · refine .inr (List.mem_iff_getElem?.mpr ⟨place, ?_⟩)
    rw [List.getElem?_set_ne hindex, hplace]

end SinglePlaces

namespace OperationKind

variable {E : Type} [DecidableEq E] {rules : Rules E} {es mid next gone : List E}
  {kind : OperationKind E} {kinds more : List (OperationKind E)}

/-- The elements that operations delete, carried out one after the other on a container that is kept
by the rules, as far as they can be carried out. -/
def losses (rules : Rules E) : List E → List (OperationKind E) → List E
  | _, [] => []
  | es, kind :: kinds =>
    match kind.change es with
    | none => []
    | some (next, gone) =>
      (if rules.dependent then gone.filter fun e => !(rules.arrange next).contains e else []) ++
        losses rules (rules.arrange next) kinds

/-- What the first operation deletes comes first. -/
theorem losses_cons (hchange : kind.change es = some (next, gone)) :
    losses rules es (kind :: kinds) =
      (if rules.dependent then gone.filter fun e => !(rules.arrange next).contains e else []) ++
        losses rules (rules.arrange next) kinds := by
  rw [losses, hchange]

/-- Operations make of a shelf what they make of its elements, and delete what they lose. -/
theorem stockAll_eq (rules : Rules E) (shelf : Shelf E) (kinds : List (OperationKind E)) :
    stockAll rules shelf kinds =
      (carryOutAll rules shelf.elements kinds).map
        (⟨·, shelf.deleted ++ losses rules shelf.elements kinds⟩) := by
  induction kinds generalizing shelf with
  | nil =>
    rw [losses, List.append_nil]
    rfl
  | cons kind kinds ih =>
    rw [stockAll_cons, carryOutAll_cons, stock, carryOut]
    cases hchange : kind.change shelf.elements with
    | none => rfl
    | some result =>
      rw [losses_cons hchange, Option.map_some, Option.bind_some, ih, ← List.append_assoc]
      rfl

/-- Operations lose one after the other. -/
theorem losses_append (h : carryOutAll rules es kinds = some mid) :
    losses rules es (kinds ++ more) = losses rules es kinds ++ losses rules mid more := by
  induction kinds generalizing es with
  | nil =>
    cases h
    rfl
  | cons kind kinds ih =>
    rw [carryOutAll_cons, carryOut] at h
    cases hchange : kind.change es with
    | none =>
      rw [hchange] at h
      cases h
    | some result =>
      rw [hchange] at h
      rw [List.cons_append, losses_cons hchange, losses_cons hchange, ih h, List.append_assoc]

/-- A gentle operation lets nothing go for good. -/
theorem Gentle.gone_eq_nil (h : kind.Gentle) (hchange : kind.change es = some (next, gone)) :
    gone = [] := by
  cases kind with
  | collectionAdd e =>
    cases hchange
    rfl
  | collectionRemove e cascade =>
    obtain rfl : cascade = false := h
    cases hchange
    rfl
  | collectionClear => exact h.elim
  | listAddAt i e =>
    simp only [change] at hchange
    split at hchange
    · cases hchange
    · cases hchange
      rfl
  | listRemoveAt i => exact h.elim
  | listSet i e cascade =>
    obtain rfl : cascade = false := h
    obtain ⟨previous, -, hresult⟩ := Option.map_eq_some_iff.mp hchange
    cases hresult
    rfl

/-- Gentle operations lose nothing. -/
theorem losses_of_gentle (h : ∀ kind ∈ kinds, kind.Gentle) : losses rules es kinds = [] := by
  induction kinds generalizing es with
  | nil => rfl
  | cons kind kinds ih =>
    cases hchange : kind.change es with
    | none => rw [losses, hchange]
    | some result =>
      have hgone : result.2 = [] := (h kind List.mem_cons_self).gone_eq_nil hchange
      rw [losses_cons hchange, hgone, ih fun kind hmem => h kind (List.mem_cons_of_mem _ hmem),
        List.filter_nil, ite_self, List.append_nil]

/-- A single operation loses those of the elements leaving for good that the container holds no
more. -/
theorem mem_losses_single (hdependent : rules.dependent = true)
    (hchange : kind.change es = some (next, gone)) (e : E) :
    e ∈ losses rules es [kind] ↔ e ∈ gone ∧ e ∉ next := by
  have harrange : e ∈ rules.arrange next ↔ e ∈ next := (rules.arrange_perm next).mem_iff
  rw [losses_cons hchange, if_pos hdependent, losses, List.append_nil, List.mem_filter,
    Bool.not_eq_true', List.contains_eq_mem, decide_eq_false_iff_not, harrange]

/-- Taking out one occurrence loses the element if it was the last one. -/
theorem lostForGood_erase (es : List E) (a : E) :
    LostForGood true es (es.erase a)
      ((if es.contains a then [a] else []).filter fun e => !(es.erase a).contains e) := by
  by_cases ha : a ∈ es
  · rw [if_pos (List.contains_iff_mem.mpr ha)]
    refine .of_gone (List.cons_subset.mpr ⟨ha, List.nil_subset es⟩) fun e he => ?_
    by_cases hne : e = a
    · exact .inl (List.mem_singleton.mpr hne)
    · exact .inr ((List.mem_erase_of_ne hne).mpr he)
  · rw [List.erase_of_not_mem ha, List.contains_eq_mem, decide_eq_false ha]
    exact .nil fun _ e he => he

/-- Removals by value lose what the container held before them and no longer holds after them. -/
theorem lostForGood_removed (hdependent : rules.dependent = true) (hfits : rules.Fits es)
    (gone : List E) (cascade : Bool) :
    LostForGood cascade es (gone.foldl List.erase es)
      (losses rules es (gone.map (collectionRemove · cascade))) := by
  cases cascade with
  | false =>
    rw [losses_of_gentle (by simp [Gentle])]
    exact .nil fun hallowed => by cases hallowed
  | true =>
    induction gone generalizing es with
    | nil => exact .nil fun _ e he => he
    | cons a gone ih =>
      have hpart : (es.erase a).Sublist es := List.erase_sublist
      rw [List.map_cons, losses_cons rfl, hfits.arrange_sublist hpart, if_pos hdependent,
        if_pos rfl, List.foldl_cons]
      exact (lostForGood_erase es a).trans (ih (hfits.sublist hpart)) hpart.subset
        (foldl_erase_sublist gone (es.erase a)).subset

/-- Where elements are not dependent, nothing is deleted. -/
theorem losses_of_independent (h : rules.dependent = false) : losses rules es kinds = [] := by
  induction kinds generalizing es with
  | nil => rfl
  | cons kind kinds ih =>
    cases hchange : kind.change es with
    | none => rw [losses, hchange]
    | some result =>
      rw [losses_cons hchange, h, ih]
      rfl

/-- Removals by value delete each element once at most. -/
theorem nodup_losses_removed (hfits : rules.Fits es) (gone : List E) (cascade : Bool) :
    (losses rules es (gone.map (collectionRemove · cascade))).Nodup := by
  cases hdependent : rules.dependent with
  | false =>
    rw [losses_of_independent hdependent]
    exact .nil
  | true =>
    cases cascade with
    | false =>
      rw [losses_of_gentle (by simp [Gentle])]
      exact .nil
    | true =>
      induction gone generalizing es with
      | nil => exact .nil
      | cons a gone ih =>
        have hpart : (es.erase a).Sublist es := List.erase_sublist
        have hsingle : (if es.contains a then [a] else []).Nodup := by
          split
          · exact List.pairwise_singleton _ a
          · exact .nil
        rw [List.map_cons, losses_cons rfl, hfits.arrange_sublist hpart, if_pos hdependent,
          if_pos rfl]
        exact (lostForGood_erase es a).nodup_append
          (lostForGood_removed hdependent (hfits.sublist hpart) gone true)
          (hsingle.sublist List.filter_sublist) (ih (hfits.sublist hpart))

/-- Removals by value that leave the same delete the same, in some order. -/
theorem perm_losses_removed (hfits : rules.Fits es) {gone' : List E} (cascade : Bool)
    (hsame : gone.foldl List.erase es = gone'.foldl List.erase es) :
    (losses rules es (gone.map (collectionRemove · cascade))).Perm
      (losses rules es (gone'.map (collectionRemove · cascade))) := by
  rw [List.perm_ext_iff_of_nodup (nodup_losses_removed hfits gone cascade)
    (nodup_losses_removed hfits gone' cascade)]
  intro e
  cases hdependent : rules.dependent with
  | false => rw [losses_of_independent hdependent, losses_of_independent hdependent]
  | true =>
    rw [lostForGood_removed hdependent hfits gone cascade e, hsame,
      lostForGood_removed hdependent hfits gone' cascade e]

end OperationKind

end TrackedFields
