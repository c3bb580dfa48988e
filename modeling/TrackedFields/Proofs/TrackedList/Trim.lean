import Mathlib.Data.List.Basic
import Mathlib.Data.List.Induction
import TrackedFields.Proofs.Session.Replay
import TrackedFields.Proofs.Tracked.HarmlessAttach
import TrackedFields.Proofs.TrackedList.Attach

/-!
# What trimming a list deletes

Attaching a list first removes surplus members, from the back. In memory these removals do not
cascade, but what they queue are removals by position, which a store of dependent elements always
lets cascade. A member whose first occurrence is surplus is gone from the store for good when the
queue is replayed, and its record is deleted there; no other record is.
-/

namespace TrackedFields

open Store (Rules View)

variable {E : Type} [DecidableEq E] [Element E]

namespace TrackedList

/-- Elements that denote the same member are counted alike. -/
theorem countSame_congr {a b : E} (h : Element.same a b) (es : List E) :
    countSame es a = countSame es b := by
  unfold countSame
  congr 1
  funext c
  exact Element.same_congr h c

/-- Counting goes on behind a first part. -/
theorem countSame_append (es more : List E) (x : E) :
    countSame (es ++ more) x = countSame es x + countSame more x := List.countP_append

/-- Counting in a list that ends with an element. -/
theorem countSame_append_singleton (es : List E) (e x : E) :
    countSame (es ++ [e]) x = countSame es x + if Element.same e x then 1 else 0 := by
  rw [countSame_append, countSame, countSame, List.countP_singleton]

/-- A list that ends with an element holds one more of its kind. -/
theorem countSame_append_self (es : List E) (e : E) :
    countSame (es ++ [e]) e = countSame es e + 1 := by
  rw [countSame_append_singleton, if_pos (Element.same_refl e)]

/-- An element whose first occurrence in a list is surplus. -/
def Doomed (target es : List E) (e : E) : Prop :=
  e ∈ es ∧ countSame target e ≤ countSame (es.take (es.idxOf e)) e

/-- The first occurrences in a longer list are those in the list, and perhaps one more. -/
theorem doomed_append_singleton (target es : List E) (e x : E) :
    Doomed target (es ++ [e]) x ↔
      Doomed target es x ∨ (x = e ∧ e ∉ es ∧ countSame target e ≤ countSame es e) := by
  unfold Doomed
  by_cases hx : x ∈ es
  · have hle : es.idxOf x ≤ es.length := Nat.le_of_lt (List.idxOf_lt_length_of_mem hx)
    rw [List.idxOf_append_of_mem hx, List.take_append_of_le_length hle]
    constructor
    · rintro ⟨-, h⟩
      exact .inl ⟨hx, h⟩
    · rintro (⟨-, h⟩ | ⟨rfl, hnot, -⟩)
      · exact ⟨List.mem_append_left _ hx, h⟩
      · exact absurd hx hnot
  · by_cases hxe : x = e
    · subst hxe
      have hidx : (es ++ [x]).idxOf x = es.length := by
        rw [List.idxOf_append_of_notMem hx, List.idxOf_cons_self, Nat.add_zero]
      rw [hidx, List.take_left]
      simp [hx]
    · simp [hx, hxe]

/-! ### The members that trimming keeps -/

/-- The target has room for the kept members behind a front part: of every kind there are at most
as many as the front part leaves to the target. -/
def Room (target front kept : List E) : Prop :=
  ∀ x, countSame kept x ≤ countSame target x - countSame front x

/-- Without its last member, a front part leaves as much room. -/
theorem Room.of_removed {target front kept : List E} {e : E}
    (h : Room target (front ++ [e]) kept) : Room target front kept := by
  intro x
  have hx := h x
  rw [countSame_append_singleton] at hx
  omega

/-- A member that is surplus is so already among the members before it. -/
theorem Room.surplus {target front kept : List E} {e : E} (h : Room target (front ++ [e]) kept)
    (hsurplus : countSame target e < countSame (front ++ e :: kept) e) :
    countSame target e ≤ countSame front e := by
  have he := h e
  rw [List.append_cons, countSame_append, countSame_append_self] at hsurplus
  rw [countSame_append_self] at he
  omega

/-- A member that is surplus is not kept further behind. -/
theorem Room.not_mem {target front kept : List E} {e : E} (h : Room target (front ++ [e]) kept)
    (hsurplus : countSame target e < countSame (front ++ e :: kept) e) : e ∉ kept := by
  intro hmem
  have hfull := h.surplus hsurplus
  have hroom := h.of_removed e
  have hpos : 0 < countSame kept e :=
    List.countP_pos_iff.mpr ⟨e, hmem, Element.same_refl e⟩
  omega

/-- A member that is not surplus leaves room among the members before it. -/
theorem not_surplus {target front kept : List E} {e : E}
    (hkeep : ¬ countSame target e < countSame (front ++ e :: kept) e) :
    countSame front e + 1 + countSame kept e ≤ countSame target e := by
  rw [List.append_cons, countSame_append, countSame_append_self] at hkeep
  omega

/-- A member that is not surplus can be kept. -/
theorem Room.of_kept {target front kept : List E} {e : E} (h : Room target (front ++ [e]) kept)
    (hkeep : ¬ countSame target e < countSame (front ++ e :: kept) e) :
    Room target front (e :: kept) := by
  intro x
  have hx := h x
  rw [countSame_append_singleton] at hx
  rw [countSame, List.countP_cons]
  change countSame kept x + (if Element.same e x = true then 1 else 0) ≤ _
  by_cases hsame : Element.same e x = true
  · have hfits := not_surplus hkeep
    rw [countSame_congr hsame target, countSame_congr hsame front,
      countSame_congr hsame kept] at hfits
    rw [if_pos hsame]
    omega
  · rw [if_neg hsame] at hx ⊢
    omega

/-! ### The removals that trimming queues -/

omit [DecidableEq E] [Element E] in
private theorem eraseIdx_between (front kept : List E) (e : E) :
    (front ++ e :: kept).eraseIdx front.length = front ++ kept := by
  rw [List.eraseIdx_append_of_length_le (Nat.le_refl _), Nat.sub_self, List.eraseIdx_cons_zero]

omit [DecidableEq E] [Element E] in
private theorem getElem?_between (front kept : List E) (e : E) :
    (front ++ e :: kept)[front.length]? = some e := by
  rw [List.getElem?_append_right (Nat.le_refl _), Nat.sub_self, List.getElem?_cons_zero]

omit [Element E] in
/-- Replaying the removal of the element between two parts deletes its record, unless one of the
parts holds it too. -/
private theorem effect_removal {rules : Rules E} {owner : ObjectId} {v : View E}
    {front kept : List E} {e : E} (hcontents : v.contents owner = front ++ e :: kept)
    (hfits : rules.Fits (front ++ e :: kept)) (hdependent : rules.dependent = true) :
    ∃ w, (OperationKind.listRemoveAt front.length).effect rules owner v = some w ∧
      w.contents owner = front ++ kept ∧
      w.deleted = v.deleted ++ if e ∈ front ++ kept then [] else [e] := by
  have hpart : (front ++ kept).Sublist (front ++ e :: kept) :=
    List.Sublist.append_left (List.sublist_cons_self e kept) front
  have hchange : (OperationKind.listRemoveAt front.length).change (v.contents owner) =
      some (front ++ kept, [e]) := by
    rw [OperationKind.change, hcontents, getElem?_between, eraseIdx_between, Option.map_some]
  have harrange : rules.arrange (front ++ kept) = front ++ kept := hfits.arrange_sublist hpart
  rw [OperationKind.effect, hchange]
  refine ⟨_, rfl, ?_, ?_⟩
  · change (if owner = owner then rules.arrange (front ++ kept) else _) = _
    rw [if_pos rfl, harrange]
  · change v.deleted ++ (if rules.dependent = true then
      [e].filter fun a => !(rules.arrange (front ++ kept)).contains a else []) = _
    rw [if_pos hdependent, harrange]
    by_cases hmem : e ∈ front ++ kept
    · have hcontains : (front ++ kept).contains e = true := List.contains_iff_mem.mpr hmem
      rw [if_pos hmem, List.filter_cons, hcontains]
      rfl
    · have hcontains : (front ++ kept).contains e = false :=
        Bool.eq_false_iff.mpr fun h => hmem (List.contains_iff_mem.mp h)
      rw [if_neg hmem, List.filter_cons, hcontains]
      rfl

/-- A change of a list that queued some operations. -/
structure Queued (scene after : Scene (TrackedList E) E) (kinds : List (OperationKind E)) :
    Prop where
  tracker : after.value.tracker = scene.value.tracker
  pending : after.session.pending = scene.session.pending ++ scene.value.tracker.queued kinds

omit [DecidableEq E] [Element E] in
private theorem Queued.trans {scene mid after : Scene (TrackedList E) E}
    {kinds more : List (OperationKind E)} (h : Queued scene mid kinds)
    (h' : Queued mid after more) : Queued scene after (kinds ++ more) := by
  refine ⟨h'.tracker.trans h.tracker, ?_⟩
  rw [h'.pending, h.pending, h.tracker, Tracker.queued_append, List.append_assoc]

omit [Element E] in
private theorem removeAtWith_between {scene : Scene (TrackedList E) E} {front kept : List E}
    {e : E} (hcontent : scene.value.content = front ++ e :: kept) :
    ∃ after, removeAtWith front.length false scene = .ok e after ∧
      after.value.content = front ++ kept ∧ Queued scene after [.listRemoveAt front.length] := by
  have hafter : removeAtWith front.length false scene = .ok e {
      value := { tracker := scene.value.tracker, content := front ++ kept }
      session := scene.value.tracker.changed (scene.value.tracker.announce
        (departure e (.listRemoveAt front.length) (front ++ kept) false) scene.session) } := by
    unfold removeAtWith Tracked.mutate
    dsimp only
    rw [hcontent, getElem?_between, eraseIdx_between]
  refine ⟨_, hafter, rfl, rfl, ?_⟩
  rw [Tracker.pending_changed, Tracker.pending_announce]
  rfl

/-- Trimming looks at the last member of the front part first. -/
private theorem trim_between (target : List E) {scene : Scene (TrackedList E) E}
    {front kept : List E} {e : E} (hcontent : scene.value.content = front ++ e :: kept) :
    stateAfter (trim target (front.length + 1)) scene =
      if countSame target e < countSame (front ++ e :: kept) e then
        stateAfter (trim target front.length)
          (stateAfter (removeAtWith front.length false) scene)
      else stateAfter (trim target front.length) scene := by
  have hstep := trim_succ target front.length scene
  rw [hcontent, getElem?_between, Option.any_some] at hstep
  by_cases hsurplus : countSame target e < countSame (front ++ e :: kept) e
  · obtain ⟨after, hremove, -, -⟩ := removeAtWith_between hcontent
    rw [if_pos (by simpa using hsurplus)] at hstep
    rw [if_pos hsurplus, stateAfter, hstep, ← stateAfter, stateAfter_bind, discard_apply, hremove,
      stateAfter_of_ok hremove]
  · rw [if_neg (by simpa using hsurplus)] at hstep
    rw [if_neg hsurplus, stateAfter, hstep, ← stateAfter]

/-- Trimming the front part of a list, of which the rest was kept, leaves of every kind no more
members than the target has. -/
theorem countSame_trim_le (target front kept : List E) (scene : Scene (TrackedList E) E)
    (hcontent : scene.value.content = front ++ kept) (hroom : Room target front kept) (x : E) :
    countSame (stateAfter (trim target front.length) scene).value.content x ≤
      countSame target x := by
  induction front using List.reverseRecOn generalizing kept scene with
  | nil =>
    change countSame scene.value.content x ≤ countSame target x
    have hx := hroom x
    rw [hcontent, List.nil_append]
    exact Nat.le_trans hx (Nat.sub_le _ _)
  | append_singleton front e ih =>
    rw [List.append_assoc, List.singleton_append] at hcontent
    rw [List.length_append, List.length_singleton, trim_between target hcontent]
    by_cases hsurplus : countSame target e < countSame (front ++ e :: kept) e
    · obtain ⟨after, hremove, hafter, -⟩ := removeAtWith_between hcontent
      rw [if_pos hsurplus, stateAfter_of_ok hremove]
      exact ih kept after hafter hroom.of_removed
    · rw [if_neg hsurplus]
      exact ih (e :: kept) scene hcontent (hroom.of_kept hsurplus)

/-- Trimming the front part of a list, of which the rest was kept: what it queues, and what
replaying that makes of a store which holds the list. -/
theorem trim_front (target front kept : List E) (scene : Scene (TrackedList E) E)
    (hcontent : scene.value.content = front ++ kept)
    (hroom : Room target front kept) :
    ∃ kinds, Queued scene (stateAfter (trim target front.length) scene) kinds ∧
      ∀ (rules : Rules E) (owner : ObjectId) (v : View E), rules.Fits (front ++ kept) →
        rules.dependent = true → v.contents owner = front ++ kept →
        ∃ w lost, kinds.foldlM (fun v kind => kind.effect rules owner v) v = some w ∧
          w.deleted = v.deleted ++ lost ∧ ∀ x, x ∈ lost ↔ Doomed target front x := by
  induction front using List.reverseRecOn generalizing kept scene with
  | nil =>
    refine ⟨[], ⟨rfl, ?_⟩, fun rules owner v _ _ _ => ⟨v, [], rfl, ?_, ?_⟩⟩
    · rw [Tracker.queued_nil, List.append_nil]
      rfl
    · rw [List.append_nil]
    · simp [Doomed]
  | append_singleton front e ih =>
    rw [List.append_assoc, List.singleton_append] at hcontent
    rw [List.length_append, List.length_singleton, trim_between target hcontent]
    by_cases hsurplus : countSame target e < countSame (front ++ e :: kept) e
    · -- The member is surplus: its place is taken by the first occurrences before it.
      have hfull : countSame target e ≤ countSame front e := hroom.surplus hsurplus
      have hnotKept : e ∉ kept := hroom.not_mem hsurplus
      obtain ⟨after, hremove, hafter, hqueued⟩ := removeAtWith_between hcontent
      obtain ⟨kinds, hkinds, heffect⟩ := ih kept after hafter hroom.of_removed
      rw [if_pos hsurplus, stateAfter_of_ok hremove]
      refine ⟨_, hqueued.trans hkinds, fun rules owner v hfits hdependent hv => ?_⟩
      rw [List.append_assoc, List.singleton_append] at hfits hv
      obtain ⟨w, hw, hcontents, hdeleted⟩ := effect_removal hv hfits hdependent
      have hpart : (front ++ kept).Sublist (front ++ e :: kept) :=
        List.Sublist.append_left (List.sublist_cons_self e kept) front
      obtain ⟨last, lost, hlast, hlost, hiff⟩ :=
        heffect rules owner w (hfits.sublist hpart) hdependent hcontents
      refine ⟨last, (if e ∈ front ++ kept then [] else [e]) ++ lost, ?_, ?_, fun x => ?_⟩
      · rw [List.singleton_append, List.foldlM_cons, hw]
        exact hlast
      · rw [hlost, hdeleted, List.append_assoc]
      · rw [doomed_append_singleton, List.mem_append, hiff]
        by_cases hmem : e ∈ front
        · simp [hmem]
        · simp [hmem, hnotKept, hfull, or_comm]
    · -- The member is kept: the target has room for it.
      obtain ⟨kinds, hkinds, heffect⟩ := ih (e :: kept) scene hcontent (hroom.of_kept hsurplus)
      rw [if_neg hsurplus]
      refine ⟨kinds, hkinds, fun rules owner v hfits hdependent hv => ?_⟩
      rw [List.append_assoc, List.singleton_append] at hfits hv
      obtain ⟨last, lost, hlast, hlost, hiff⟩ := heffect rules owner v hfits hdependent hv
      refine ⟨last, lost, hlast, hlost, fun x => ?_⟩
      rw [doomed_append_singleton, hiff]
      have hfits := not_surplus hsurplus
      have hnot : ¬ countSame target e ≤ countSame front e := by omega
      simp [hnot]

end TrackedList

end TrackedFields
