import Mathlib.Data.List.Perm.Basic
import TrackedFields.Proofs.Tracked.Balance
import TrackedFields.Proofs.TrackedList.Convergence
import TrackedFields.Proofs.TrackedList.Trim

/-!
# What lists tell their relations

Every change of a list reports the elements that join and leave it, copy by copy; a replacement by
an equal element and a rearrangement report nothing, and change no count. Attaching removes and
inserts members until list and target hold equally many of every kind, and what is left to overlay
then replaces members by members of their own kind only. Kinds are counted right throughout,
although the overlay does not report that one form of a member took the place of another.
-/

namespace TrackedFields

open RelationChange (AccountFor)
open Tracked (Accounts Balances)

variable {E : Type} [DecidableEq E]

namespace TrackedList

section Plans

variable {p : E → Bool} {o : Owner} {start : Scene (TrackedList E) E}

/-- Removing by value tells which element left. -/
theorem accounts_removeWith (e : E) (cascade : Bool) :
    Keeps (Accounts p id o start) (removeWith e cascade) := by
  apply Tracked.accounts_mutate
  intro tracker es answer next report hplan
  obtain ⟨hmem, rfl, rfl⟩ := made_of_removeWith hplan
  have hleft : ([e] ++ es.erase e).Perm es := (List.perm_cons_erase hmem).symm
  exact .removed hleft

/-- Removing by position tells which element left. -/
theorem accounts_removeAtWith (index : Nat) (cascade : Bool) :
    Keeps (Accounts p id o start) (removeAtWith index cascade) := by
  apply Tracked.accounts_mutate
  intro tracker es answer next report hplan
  obtain ⟨he, rfl, rfl⟩ := made_of_removeAt hplan
  obtain ⟨hindex, rfl⟩ := List.getElem?_eq_some_iff.mp he
  have hleft : ([es[index]] ++ es.eraseIdx index).Perm es :=
    List.getElem_cons_eraseIdx_perm hindex
  exact .removed hleft

/-- Removing what satisfies a condition tells all of it. -/
theorem accounts_removeWhere (doomed : E → Bool) :
    Keeps (Accounts p id o start) (removeWhere doomed) := by
  apply Tracked.accounts_mutate
  intro tracker es answer next report hplan
  obtain ⟨rfl, rfl⟩ := made_of_removeWhere hplan
  exact .removed (List.filter_append_perm doomed es)

/-- Removing everything tells all of it. -/
theorem accounts_clear : Keeps (Accounts p id o start) clear := by
  apply Tracked.accounts_mutate
  intro tracker es answer next report hplan
  cases hplan
  cases es with
  | nil => exact .nil rfl
  | cons e es =>
    have hleft : (e :: es ++ []).Perm (e :: es) := by rw [List.append_nil]
    exact .removed hleft

/-- A rearrangement tells nothing, which is right as long as it changes no count. -/
theorem accounts_reorder {scene : Scene (TrackedList E) E} {arrange : List E → List E}
    (h : Accounts p id o start scene)
    (hcount : (arrange scene.value.content).countP p = scene.value.content.countP p) :
    Accounts p id o start (stateAfter (reorder arrange) scene) := by
  apply h.mutate
  intro answer next report hplan
  obtain ⟨rfl, rfl⟩ := made_of_reorder hplan
  exact .nil hcount

variable [Element E]

/-- Appending tells which element joined. -/
theorem accounts_add (e : E) : Keeps (Accounts p id o start) (add e) := by
  apply Tracked.accounts_mutate
  intro tracker es answer next report hplan
  obtain ⟨-, rfl, rfl⟩ := made_of_add hplan
  exact .added List.perm_append_comm

/-- Appending several elements tells which ones joined. -/
theorem accounts_addAll (new : List E) : Keeps (Accounts p id o start) (addAll new) := by
  apply Tracked.accounts_mutate
  intro tracker es answer next report hplan
  obtain ⟨-, rfl, rfl⟩ := made_of_addAll hplan
  exact .added List.perm_append_comm

/-- Inserting tells which element joined. -/
theorem accounts_insert (index : Nat) (e : E) :
    Keeps (Accounts p id o start) (insert index e) := by
  apply Tracked.accounts_mutate
  intro tracker es answer next report hplan
  obtain ⟨hindex, -, rfl, rfl⟩ := made_of_insert hplan
  have hjoined : (es.insertIdx index e).Perm ([e] ++ es) := List.perm_insertIdx e es hindex
  exact .added hjoined

/-- Inserting several elements tells which ones joined. -/
theorem accounts_insertAll (index : Nat) (new : List E) :
    Keeps (Accounts p id o start) (insertAll index new) := by
  apply Tracked.accounts_mutate
  intro tracker es answer next report hplan
  obtain ⟨-, -, rfl, rfl⟩ := made_of_insertAll hplan
  have hfront : (es.take index ++ new ++ es.drop index).Perm
      (new ++ es.take index ++ es.drop index) := List.perm_append_comm.append_right _
  rw [List.append_assoc new, List.take_append_drop] at hfront
  exact .added hfront

/-- Replacing tells which element left and which one joined, unless they are equal. -/
theorem accounts_setWith (index : Nat) (e : E) (cascade : Bool) :
    Keeps (Accounts p id o start) (setWith index e cascade) := by
  apply Tracked.accounts_mutate
  intro tracker es answer next report hplan
  obtain ⟨hanswer, -, rfl, rfl⟩ := made_of_setWith hplan
  obtain ⟨hindex, rfl⟩ := List.getElem?_eq_some_iff.mp hanswer
  change AccountFor p es (es.set index e) (if es[index] = e then [] else _)
  split
  · next hsame => exact .nil (by rw [← hsame, List.set_getElem_self])
  · have hout := (List.set_perm_cons_eraseIdx hindex e).cons es[index]
    have hin := (List.getElem_cons_eraseIdx_perm hindex).cons e
    exact .of_perm (hout.trans ((List.Perm.swap _ _ _).trans hin))

/-- Every change but an attachment tells what it does to the list, whatever is counted. -/
theorem Mutator.accounts (m : Mutator E) (hm : ∀ target, m ≠ .attachCopy target) :
    Keeps (Accounts p id o start) m.run := by
  cases m with
  | add e => exact (accounts_add e).discard
  | addAll new => exact (accounts_addAll new).discard
  | insert index e => exact accounts_insert index e
  | insertAll index new => exact (accounts_insertAll index new).discard
  | remove e => exact (accounts_removeWith e true).discard
  | removeWith e cascade => exact (accounts_removeWith e cascade).discard
  | removeAt index => exact (accounts_removeAtWith index true).discard
  | set index e => exact (accounts_setWith index e true).discard
  | setWith index e cascade => exact (accounts_setWith index e cascade).discard
  | removeAll es => exact (accounts_removeWhere es.contains).discard
  | retainAll keep => exact (accounts_removeWhere fun e => !keep.contains e).discard
  | clear => exact accounts_clear
  | sortBy cmp =>
    exact fun scene h => accounts_reorder h ((cmp.sort_perm scene.value.content).countP_eq p)
  | attachCopy target => exact absurd rfl (hm target)

end Plans

/-! ### Attaching -/

section Attaching

variable [Element E]

private theorem content_of_insert {index : Nat} {e : E} {scene after : Scene (TrackedList E) E}
    (h : insert index e scene = .ok () after) :
    after.value.content.Perm (e :: scene.value.content) := by
  unfold insert at h
  rcases Tracked.mutate_ok_cases h with ⟨hplan, -⟩ | ⟨report, hplan⟩
  · by_cases hindex : scene.value.content.length < index
    · rw [if_pos hindex] at hplan
      cases hplan
    · rw [if_neg hindex] at hplan
      obtain ⟨-, hplan⟩ := accepted_of_bind hplan
      cases hplan
  · obtain ⟨hindex, -, hcontent, -⟩ := made_of_insert hplan
    rw [hcontent]
    exact List.perm_insertIdx e _ hindex

/-- Inserting adds one member of a kind. -/
theorem countSame_of_insert {index : Nat} {e : E} {scene after : Scene (TrackedList E) E}
    (h : insert index e scene = .ok () after) (x : E) :
    countSame after.value.content x =
      countSame scene.value.content x + if Element.same e x then 1 else 0 := by
  unfold countSame
  rw [(content_of_insert h).countP_eq, List.countP_cons]

/-- Filling goes beyond the target in no kind, wherever it stops. -/
theorem countSame_fill_le {target : List E} (index : Nat) (rest : List E)
    {scene : Scene (TrackedList E) E}
    (hupper : ∀ x, countSame scene.value.content x ≤ countSame target x) (x : E) :
    countSame (stateAfter (fill target index rest) scene).value.content x ≤ countSame target x := by
  induction rest generalizing index scene with
  | nil => exact hupper x
  | cons e rest ih =>
    have hstep := fill_cons target index e rest scene
    by_cases hmissing : countSame scene.value.content e < countSame target e
    · rw [if_pos hmissing] at hstep
      rw [stateAfter, hstep, ← stateAfter, stateAfter_bind]
      cases hinsert : insert (min index scene.value.content.length) e scene with
      | error failure mid =>
        rw [Tracked.eq_of_mutate_error hinsert]
        exact hupper x
      | ok answer mid =>
        refine ih (index + 1) fun y => ?_
        have hy := hupper y
        rw [countSame_of_insert hinsert y]
        split
        · next hsame =>
          rw [countSame_congr hsame, countSame_congr hsame] at hmissing
          omega
        · exact hy
    · rw [if_neg hmissing] at hstep
      rw [stateAfter, hstep, ← stateAfter]
      exact ih (index + 1) hupper

/-- Filling a list that holds, of every kind, at least as many members as a first part of the
target, makes it hold at least as many as the target. -/
theorem le_countSame_fill {target : List E} (front rest : List E) (index : Nat)
    {scene after : Scene (TrackedList E) E} (htarget : front ++ rest = target)
    (hlower : ∀ x, countSame front x ≤ countSame scene.value.content x)
    (h : fill target index rest scene = .ok () after) (x : E) :
    countSame target x ≤ countSame after.value.content x := by
  induction rest generalizing front index scene with
  | nil =>
    cases h
    rw [List.append_nil] at htarget
    exact htarget ▸ hlower x
  | cons e rest ih =>
    have htarget' : front ++ [e] ++ rest = target := by
      rw [List.append_assoc, List.singleton_append, htarget]
    rw [fill_cons] at h
    by_cases hmissing : countSame scene.value.content e < countSame target e
    · rw [if_pos hmissing, bind_apply] at h
      cases hinsert : insert (min index scene.value.content.length) e scene with
      | error failure mid =>
        rw [hinsert] at h
        cases h
      | ok answer mid =>
        rw [hinsert] at h
        refine ih (front ++ [e]) (index + 1) htarget' (fun y => ?_) h
        rw [countSame_append_singleton, countSame_of_insert hinsert y]
        exact Nat.add_le_add_right (hlower y) _
    · rw [if_neg hmissing] at h
      refine ih (front ++ [e]) (index + 1) htarget' (fun y => ?_) h
      rw [countSame_append_singleton]
      split
      · next hsame =>
        -- The list holds as many of this kind as the whole target, so more than the first part.
        have hpart : countSame (front ++ [e]) y ≤ countSame target y := by
          rw [← htarget', countSame_append _ rest]
          exact Nat.le_add_right _ _
        rw [countSame_append_singleton, if_pos hsame] at hpart
        rw [countSame_congr hsame, countSame_congr hsame] at hmissing
        omega
      · exact hlower y

/-- Filling a list that goes beyond the target in no kind makes it hold as many of every kind. -/
theorem countSame_fill {target : List E} {scene after : Scene (TrackedList E) E}
    (hupper : ∀ x, countSame scene.value.content x ≤ countSame target x)
    (h : fill target 0 target scene = .ok () after) (x : E) :
    countSame after.value.content x = countSame target x := by
  apply Nat.le_antisymm
  · rw [← stateAfter_of_ok h]
    exact countSame_fill_le 0 target hupper x
  · exact le_countSame_fill [] target 0 rfl (fun _ => Nat.zero_le _) h x

/-- Lists that hold equally many members of every kind have equally many members. -/
theorem length_eq_of_countSame {es target : List E}
    (h : ∀ x, countSame es x = countSame target x) : es.length = target.length := by
  induction es generalizing target with
  | nil =>
    cases target with
    | nil => rfl
    | cons t target =>
      have ht := h t
      rw [countSame, countSame, List.countP_cons, if_pos (Element.same_refl t)] at ht
      cases ht
  | cons e es ih =>
    have hpos : 0 < countSame target e := by
      rw [← h e, countSame, List.countP_cons, if_pos (Element.same_refl e)]
      exact Nat.succ_pos _
    obtain ⟨t, ht, hsame⟩ := List.countP_pos_iff.mp hpos
    have hperm := List.perm_cons_erase ht
    have hrest : es.length = (target.erase t).length := by
      apply ih
      intro x
      have hx := h x
      unfold countSame at hx ⊢
      rw [hperm.countP_eq, List.countP_cons, List.countP_cons, Element.same_comm e x,
        Element.same_comm t x, Element.same_congr hsame x] at hx
      omega
    rw [hperm.length_eq, List.length_cons, List.length_cons, hrest]

/-- An overlay holds as many members of a kind as the target, if the lengths agree. -/
theorem countSame_overlay {es target : List E} (hlength : es.length = target.length) (x : E) :
    countSame (overlay es target) x = countSame target x := by
  induction es generalizing target with
  | nil =>
    obtain rfl : target = [] := List.length_eq_zero_iff.mp hlength.symm
    rfl
  | cons e es ih =>
    cases target with
    | nil => cases hlength
    | cons t target =>
      have hrest := ih (Nat.succ.inj hlength)
      have hhead : Element.same (if Element.same e t then e else t) x = Element.same t x := by
        split
        · next hsame =>
          rw [Element.same_comm e x, Element.same_comm t x, Element.same_congr hsame x]
        · rfl
      unfold countSame at hrest ⊢
      rw [overlay, List.countP_cons, List.countP_cons, hhead, hrest]

/-- Attaching tells how many members of a kind join and leave. -/
theorem accounts_attachCopy {o : Owner} {start : Scene (TrackedList E) E} (target : List E)
    (x : E) : Keeps (Accounts (Element.same · x) id o start) (attachCopy target) := by
  intro scene h
  let attached : Scene (TrackedList E) E :=
    { scene with session := scene.value.tracker.attach target scene.session }
  have hattached : Accounts (Element.same · x) id o start attached :=
    Tracked.accounts_attach target scene h
  have hpasses : stateAfter (attachCopy target) scene =
      stateAfter (trim target scene.value.content.length >>= fun _ =>
        fill target 0 target >>= fun _ => reorder fun es => overlay es target) attached := rfl
  have htrimmed := trim_keeps (fun index => accounts_removeAtWith index false) target
    scene.value.content.length attached hattached
  have hupper := countSame_trim_le target scene.value.content [] attached
    (List.append_nil scene.value.content).symm fun _ => Nat.zero_le _
  rw [hpasses, stateAfter_bind]
  cases htrim : trim target scene.value.content.length attached with
  | error failure trimmed => rwa [stateAfter_of_error htrim] at htrimmed
  | ok answer trimmed =>
    rw [stateAfter_of_ok htrim] at htrimmed hupper
    have hfilled := fill_keeps accounts_insert target 0 target trimmed htrimmed
    dsimp only
    rw [stateAfter_bind]
    cases hfill : fill target 0 target trimmed with
    | error failure filled => rwa [stateAfter_of_error hfill] at hfilled
    | ok answer filled =>
      rw [stateAfter_of_ok hfill] at hfilled
      -- Now the list holds as many members of every kind as the target, and overlaying keeps that.
      have hcount (y : E) : countSame filled.value.content y = countSame target y :=
        countSame_fill hupper hfill y
      refine accounts_reorder hfilled ?_
      exact (countSame_overlay (length_eq_of_countSame hcount) x).trans (hcount x).symm

end Attaching

/-- Every change tells how many members of a kind join and leave. -/
theorem Mutator.accounts_same [Element E] {o : Owner} {start : Scene (TrackedList E) E}
    (m : Mutator E) (x : E) : Keeps (Accounts (Element.same · x) id o start) m.run := by
  by_cases hm : ∃ target, m = .attachCopy target
  · obtain ⟨target, rfl⟩ := hm
    exact accounts_attachCopy target x
  · exact m.accounts (not_exists.mp hm)

end TrackedList

end TrackedFields
