import TrackedFields.Proofs.Notices
import TrackedFields.Proofs.Tracked.Relates
import TrackedFields.Proofs.TrackedList.RefusedAttach

/-!
# What attaching a list reaches

The three passes of attaching divide the work. Trimming only removes, and of every kind only what
is surplus; filling only inserts, and of every kind only what is missing then; so both together
record as few changes as there can be. After them the list and the attached value hold equally many
members of every kind, hence equally many members, and overlaying puts a member of the right kind at
every position. Attached to once more, the list finds nothing to do.
-/

namespace TrackedFields.TrackedList

open RelationChange (added removed joining leaving)
open Tracked (Managed Relates TookIn attached changedTo)

variable {E : Type} [DecidableEq E] [Element E]

/-- The members of two lists denote the same, position by position. -/
def Matches (es target : List E) : Prop := List.Forall₂ (fun e t => Element.same e t) es target

/-! ### Members that leave, and members that join -/

variable {start scene after : Scene (TrackedList E) E} {gone new target : List E}

/-- Since a start, some members have left a list and others have joined it, and the relation of the
field was told exactly that. -/
structure Exchanged (start : Scene (TrackedList E) E) (gone new : List E)
    (scene : Scene (TrackedList E) E) : Prop where
  tracker : scene.value.tracker = start.value.tracker
  members : (gone ++ scene.value.content).Perm (new ++ start.value.content)
  told : ∀ o, Managed o start → Relates o (gone.map removed ++ new.map added) start scene

omit [DecidableEq E] in
/-- Taking in elements exchanges nothing. -/
theorem exchanged_attached (target : List E) (scene : Scene (TrackedList E) E) :
    Exchanged scene [] [] (attached target scene) :=
  ⟨rfl, .refl _, fun _ h => (Relates.refl h).attached target⟩

/-- Of every kind, there are as many members as at the start, less those that left, with those that
joined. -/
theorem Exchanged.countSame_eq (h : Exchanged start gone new scene) (x : E) :
    countSame gone x + countSame scene.value.content x =
      countSame new x + countSame start.value.content x := by
  rw [← countSame_append, ← countSame_append]
  exact h.members.countP_eq _

omit [Element E] in
/-- Removing the member at a position makes the list lose it, and tells so. -/
theorem Exchanged.removeAtWith {index : Nat} {e : E} (h : Exchanged start gone [] scene)
    (he : scene.value.content[index]? = some e) :
    ∃ after, TrackedList.removeAtWith index false scene = .ok e after ∧
      after.value.content = scene.value.content.eraseIdx index ∧
      Exchanged start (gone ++ [e]) [] after := by
  let rest := scene.value.content.eraseIdx index
  have hremove : TrackedList.removeAtWith index false scene = .ok e
      (changedTo rest (departure e (.listRemoveAt index) rest false) scene) := by
    unfold TrackedList.removeAtWith
    apply Tracked.mutate_of_made
    dsimp only
    rw [he]
  refine ⟨_, hremove, rfl, h.tracker, ?_, fun o ho => ?_⟩
  · obtain ⟨hindex, rfl⟩ := List.getElem?_eq_some_iff.mp he
    have hleft : (scene.value.content[index] :: rest).Perm scene.value.content :=
      List.getElem_cons_eraseIdx_perm hindex
    rw [List.append_assoc, List.singleton_append]
    exact (hleft.append_left gone).trans h.members
  · have htold := (h.told o ho).changedTo rest (departure e (.listRemoveAt index) rest false)
    rw [List.map_nil, List.append_nil] at htold ⊢
    rwa [List.map_append]

/-- Inserting a member that is accepted makes it join, and tells so. -/
theorem Exchanged.insert {index : Nat} {e : E} (h : Exchanged start gone new scene)
    (hindex : index ≤ scene.value.content.length) (hcheck : start.value.tracker.check e = .ok ()) :
    ∃ after, TrackedList.insert index e scene = .ok () after ∧
      after.value.content = scene.value.content.insertIdx index e ∧
      Exchanged start gone (new ++ [e]) after := by
  let longer := scene.value.content.insertIdx index e
  have hinsert : TrackedList.insert index e scene = .ok ()
      (changedTo longer (arrival index [e]) scene) := by
    unfold TrackedList.insert
    apply Tracked.mutate_of_made
    dsimp only
    rw [if_neg (Nat.not_lt.mpr hindex), h.tracker, hcheck]
    rfl
  refine ⟨_, hinsert, rfl, h.tracker, ?_, fun o ho => ?_⟩
  · have hjoined : longer.Perm (e :: scene.value.content) := List.perm_insertIdx e _ hindex
    have hfront : (gone ++ longer).Perm (e :: (gone ++ scene.value.content)) :=
      (hjoined.append_left gone).trans List.perm_middle
    rw [List.append_assoc, List.singleton_append]
    exact (hfront.trans (h.members.cons e)).trans List.perm_middle.symm
  · have htold := (h.told o ho).changedTo longer (arrival index [e])
    rw [List.append_assoc] at htold
    rwa [List.map_append]

/-! ### The passes -/

variable (target) in
/-- Trimming goes through. Members only leave, and a kind of which members leave keeps as many as
the attached value has. -/
theorem Exchanged.trim (h : Exchanged start gone [] scene)
    (hlower : ∀ x, min (countSame start.value.content x) (countSame target x) ≤
      countSame scene.value.content x) (n : Nat) :
    ∃ trimmed gone', TrackedList.trim target n scene = .ok () trimmed ∧
      Exchanged start gone' [] trimmed ∧
      ∀ x, min (countSame start.value.content x) (countSame target x) ≤
        countSame trimmed.value.content x := by
  induction n generalizing scene gone with
  | zero => exact ⟨scene, gone, rfl, h, hlower⟩
  | succ n ih =>
    rw [trim_succ]
    cases he : scene.value.content[n]? with
    | none => exact ih h hlower
    | some e =>
      rw [Option.any_some]
      by_cases hsurplus : countSame target e < countSame scene.value.content e
      · obtain ⟨mid, hremove, -, hmid⟩ := h.removeAtWith he
        rw [if_pos (decide_eq_true hsurplus), bind_apply, discard_apply, hremove]
        refine ih hmid fun x => ?_
        have hbefore := h.countSame_eq x
        have hafter := hmid.countSame_eq x
        have hx := hlower x
        rw [countSame_append_singleton] at hafter
        split at hafter
        · next hsame =>
          rw [countSame_congr hsame, countSame_congr hsame] at hsurplus
          omega
        · omega
      · rw [if_neg (by simpa using hsurplus)]
        exact ih h hlower

variable (target) in
/-- Filling goes through if what is to be filled in is accepted. Members only join. -/
theorem Exchanged.fill (h : Exchanged start gone new scene) (rest : List E)
    (hcheck : ∀ e ∈ rest, start.value.tracker.check e = .ok ()) (index : Nat) :
    ∃ filled new', TrackedList.fill target index rest scene = .ok () filled ∧
      Exchanged start gone new' filled := by
  induction rest generalizing scene new index with
  | nil => exact ⟨scene, new, rfl, h⟩
  | cons e rest ih =>
    have hrest : ∀ a ∈ rest, start.value.tracker.check a = .ok () :=
      fun a ha => hcheck a (List.mem_cons_of_mem e ha)
    rw [fill_cons]
    by_cases hmissing : countSame scene.value.content e < countSame target e
    · obtain ⟨mid, hinsert, -, hmid⟩ :=
        h.insert (Nat.min_le_right index _) (hcheck e List.mem_cons_self)
      rw [if_pos hmissing, bind_apply, hinsert]
      exact ih hmid hrest (index + 1)
    · rw [if_neg hmissing]
      exact ih h hrest (index + 1)

omit [Element E] in
/-- A rearrangement that leaves the list as it is does nothing. -/
theorem reorder_of_eq {arrange : List E → List E}
    (h : arrange scene.value.content = scene.value.content) :
    reorder arrange scene = .ok () scene := by
  apply Tracked.mutate_of_nothing
  dsimp only
  rw [h, if_pos ((isEmpty_moves_iff rfl).mpr rfl)]

variable (start) in
omit [Element E] in
/-- A rearrangement that keeps the length goes through, and tells the relation nothing. -/
theorem exists_reordered {arrange : List E → List E}
    (hlength : ∀ es, (arrange es).length = es.length) (scene : Scene (TrackedList E) E) :
    ∃ after, reorder arrange scene = .ok () after ∧
      after.value.content = arrange scene.value.content ∧
      ∀ o changes, Relates o changes start scene → Relates o changes start after := by
  let es := scene.value.content
  by_cases hsame : arrange es = es
  · exact ⟨scene, reorder_of_eq hsame, hsame.symm, fun _ _ h => h⟩
  · let report : Report E :=
      { operations := (moves es (arrange es)).map fun move => .listSet move.1 move.2 false }
    have hmoved : ¬ (moves es (arrange es)).isEmpty = true :=
      fun hnone => hsame ((isEmpty_moves_iff (hlength es).symm).mp hnone).symm
    refine ⟨changedTo (arrange es) report scene, Tracked.mutate_of_made (if_neg hmoved), rfl, ?_⟩
    intro o changes h
    have htold := h.changedTo (arrange es) report
    rwa [List.append_nil] at htold

/-! ### The attached list -/

/-- An overlay matches the attached value, if the lengths agree. -/
theorem matches_overlay {es : List E} (hlength : es.length = target.length) :
    Matches (overlay es target) target := by
  induction es generalizing target with
  | nil =>
    obtain rfl : target = [] := List.length_eq_zero_iff.mp hlength.symm
    exact .nil
  | cons e es ih =>
    cases target with
    | nil => cases hlength
    | cons t target =>
      refine .cons ?_ (ih (Nat.succ.inj hlength))
      split
      · assumption
      · exact Element.same_refl t

/-- Overlaying changes nothing if the list matches. -/
theorem Matches.overlay_eq {es : List E} (h : Matches es target) : overlay es target = es := by
  induction h with
  | nil => rfl
  | cons hsame _ ih => rw [overlay, if_pos hsame, ih]

/-- Lists that match hold equally many members of every kind. -/
theorem Matches.countSame_eq {es : List E} (h : Matches es target) (x : E) :
    countSame es x = countSame target x := by
  have hcount := countSame_overlay h.length_eq x
  rwa [h.overlay_eq] at hcount

/-- A list matches itself. -/
theorem Matches.refl (es : List E) : Matches es es :=
  List.forall₂_same.mpr fun e _ => Element.same_refl e

/-- Attaching a value that the list matches does nothing but to take in its members. -/
theorem attachCopy_of_matches (h : Matches scene.value.content target) :
    attachCopy target scene = .ok () (attached target scene) := by
  have hcount := h.countSame_eq
  have htrim : trim target scene.value.content.length (attached target scene) =
      .ok () (attached target scene) :=
    trim_of_no_surplus (attached target scene) (fun e _ => Nat.le_of_eq (hcount e)) _
  have hfull (e : E) : ¬ countSame scene.value.content e < countSame target e :=
    Nat.not_lt.mpr (Nat.le_of_eq (hcount e).symm)
  have hfill : fill target 0 target (attached target scene) = .ok () (attached target scene) :=
    fill_of_none_missing (attached target scene)
      (List.find?_eq_none.mpr fun e _ hmissing => hfull e (of_decide_eq_true hmissing)) 0
  change (trim target scene.value.content.length >>= fun _ => fill target 0 target >>= fun _ =>
    reorder fun es => overlay es target) (attached target scene) = _
  rw [bind_apply, htrim]
  dsimp only
  rw [bind_apply, hfill]
  exact reorder_of_eq h.overlay_eq

/-- Attaching goes through if the attached value is accepted. Of every kind, the surplus leaves and
what is missing joins, and then the list matches the value. -/
theorem exists_attached (scene : Scene (TrackedList E) E)
    (hnulls : scene.value.tracker.Accepts target) :
    ∃ after gone new, attachCopy target scene = .ok () after ∧
      Matches after.value.content target ∧
      (∀ x, countSame gone x = countSame scene.value.content x - countSame target x) ∧
      (∀ x, countSame new x = countSame target x - countSame scene.value.content x) ∧
      ∀ o, Managed o scene → Relates o (gone.map removed ++ new.map added) scene after := by
  obtain ⟨trimmed, gone, htrim, hleft, hlower⟩ :=
    (exchanged_attached target scene).trim target (fun x => Nat.min_le_left _ _)
      scene.value.content.length
  have hupper := countSame_trim_le target scene.value.content [] (attached target scene)
    (List.append_nil _).symm fun _ => Nat.zero_le _
  rw [stateAfter_of_ok htrim] at hupper
  obtain ⟨filled, new, hfill, hjoined⟩ :=
    hleft.fill target target (fun e he => hnulls.check he) 0
  have hcount := countSame_fill hupper hfill
  obtain ⟨after, hreorder, hcontent, htold⟩ :=
    exists_reordered scene (fun es => length_overlay es target) filled
  -- Trimming leaves the smaller one of both numbers, from which filling gets to the target.
  have hgone (x : E) :
      countSame gone x = countSame scene.value.content x - countSame target x := by
    have hbalance := hleft.countSame_eq x
    have hleast := hlower x
    have hmost := hupper x
    change _ = 0 + countSame scene.value.content x at hbalance
    omega
  refine ⟨after, gone, new, ?_, ?_, hgone, fun x => ?_, fun o ho => htold o _ (hjoined.told o ho)⟩
  · change (trim target scene.value.content.length >>= fun _ => fill target 0 target >>= fun _ =>
      reorder fun es => overlay es target) (attached target scene) = _
    rw [bind_apply, htrim]
    dsimp only
    rw [bind_apply, hfill]
    exact hreorder
  · rw [hcontent]
    exact matches_overlay (length_eq_of_countSame hcount)
  · have hbalance := hjoined.countSame_eq x
    rw [hgone x, hcount x] at hbalance
    omega

/-- Attaching with the fewest changes. Let a list be asked to take over a value, and let its field
allow null elements unless there are none among the members of the value. That goes well, and then
the members of the list and of the value denote the same, position by position. If relations are
managed, the owner is told that members were removed and added: of every kind, as many were removed
as the list had more than the value, and as many were added as the value has more than the list had.
When the same value is attached once more, or when the list is attached to what was detached from
it, no more happens than that the members are taken in. -/
theorem attached_with_fewest_changes (scene : Scene (TrackedList E) E) (target : List E)
    (hnulls : scene.value.tracker.Accepts target) :
    (∃ after, attachCopy target scene = .ok () after ∧
      Matches after.value.content target ∧
      (∀ o, Managed o scene → ∃ changes,
        after.session.changesOf o = scene.session.changesOf o ++ changes ∧
        ∀ x, countSame (leaving changes) x =
            countSame scene.value.content x - countSame target x ∧
          countSame (joining changes) x =
            countSame target x - countSame scene.value.content x) ∧
      ∃ again, attachCopy target after = .ok () again ∧ TookIn after again) ∧
    ∀ seen, ∃ es seen' detached, detachCopy seen scene = .ok (es, seen') detached ∧
      ∃ again, attachCopy es detached = .ok () again ∧ TookIn detached again := by
  constructor
  · obtain ⟨after, gone, new, hattach, hmatches, hgone, hnew, htold⟩ := exists_attached scene hnulls
    refine ⟨after, hattach, hmatches, fun o ho => ⟨_, (htold o ho).told, fun x => ?_⟩, _,
      attachCopy_of_matches hmatches, Tracked.tookIn_attached target after⟩
    simp only [RelationChange.leaving_append, RelationChange.joining_append,
      RelationChange.leaving_map_removed, RelationChange.joining_map_removed,
      RelationChange.leaving_map_added, RelationChange.joining_map_added, List.append_nil,
      List.nil_append]
    exact ⟨hgone x, hnew x⟩
  · intro seen
    refine ⟨scene.value.content, _, _, rfl, _, attachCopy_of_matches (.refl _),
      Tracked.tookIn_attached _ _⟩

/-- A list of objects in two forms each, which queues its changes, takes over a value with one more
object and one surplus copy less. The objects that stay at their positions keep their forms. -/
theorem attached_with_fewest_changes_of_forms :
    letI : Element (ObjectId × Bool) := { isNull := fun _ => false, objectId? := fun e => some e.1 }
    let o : Owner := { id := .ofNat 7, descriptor := { name := "books", ordinal := ⟨3⟩ } }
    let scene : Scene (TrackedList (ObjectId × Bool)) (ObjectId × Bool) :=
      ⟨⟨.unbacked o .queued, [(.ofNat 1, false), (.ofNat 2, false), (.ofNat 1, true)]⟩, {}⟩
    let target : List (ObjectId × Bool) := [(.ofNat 1, true), (.ofNat 3, false), (.ofNat 2, true)]
    let after := stateAfter (attachCopy target) scene
    after.value.content = [(.ofNat 1, false), (.ofNat 3, false), (.ofNat 2, false)] ∧
      after.session.changesOf o = [.removed (.ofNat 1, true), .added (.ofNat 3, false)] ∧
      after.session.pending.map (·.kind) =
        [.listRemoveAt 2, .listAddAt 1 (.ofNat 3, false)] ∧
      scene.value.tracker.Accepts target ∧ Managed o scene ∧
      Matches after.value.content target ∧
      ∃ again, attachCopy target after = .ok () again ∧ TookIn after again := by
  let : Element (ObjectId × Bool) := { isNull := fun _ => false, objectId? := fun e => some e.1 }
  intro o scene target after
  have hnulls : scene.value.tracker.Accepts target := .inr fun _ _ => rfl
  obtain ⟨⟨reached, hattach, hmatches, -, hagain⟩, -⟩ := attached_with_fewest_changes scene target
    hnulls
  obtain rfl : after = reached := stateAfter_of_ok hattach
  exact ⟨by decide, by decide, by decide, hnulls, ⟨rfl, rfl⟩, hmatches, hagain⟩

end TrackedFields.TrackedList
