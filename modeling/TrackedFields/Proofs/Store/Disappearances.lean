import Mathlib
import TrackedFields.Proofs.Store.Losses
import TrackedFields.Store.Bulk

/-!
# Deletions of a store, one per disappearance

A store of dependent elements deletes an element when a call that may delete lets its last copy go.
Every call deletes exactly the elements that it makes disappear; the single removals, replacements
and bulk removals delete each of them once. Clearing goes through the copies one by one and compares
none of them with the others, so it deletes an element once per copy. Over a run of calls, an
element is therefore deleted once per disappearance, and once more for every copy beyond the first
one that a clear meets.
-/

namespace TrackedFields.Store

variable {E : Type}

/-- A call on the container of one owner. -/
inductive Request (E : Type) where
  | size
  | contains (e : E)
  | elements
  | get (position : Nat)
  | updateEmbedded (e : E) (field : FieldOrdinal)
  | add (e : E) (hint : Option Nat)
  | addAll (es : List E) (hint : Option Nat)
  | insert (position : Nat) (e : E)
  | remove (e : E) (hint : Option Nat) (cascade : Bool)
  | removeAt (position : Nat) (hint : Option Nat)
  | set (position : Nat) (e : E) (cascade : Bool)
  | removeAll (es : List E) (hint : Option Nat)
  | clear

namespace Request

/-- Whether a call may delete what it removes. -/
def cascades : Request E → Bool
  | .remove _ _ cascade | .set _ _ cascade => cascade
  | .removeAt _ _ | .removeAll _ _ | .clear => true
  | .size | .contains _ | .elements | .get _ | .updateEmbedded _ _ | .add _ _ | .addAll _ _
  | .insert _ _ => false

variable [DecidableEq E] {owner : ObjectId} {st after : Store E}

/-- The call, its answer left out. -/
def run (owner : ObjectId) : Request E → StoreAction E Unit
  | .size => discard (Store.size owner)
  | .contains e => discard (Store.contains owner e)
  | .elements => discard (Store.elements owner)
  | .get position => discard (Store.get owner position)
  | .updateEmbedded e field => discard (Store.updateEmbedded owner e field)
  | .add e hint => discard (Store.add owner e hint)
  | .addAll es hint => discard (Store.addAll owner es hint)
  | .insert position e => Store.insert owner position e
  | .remove e hint cascade => discard (Store.remove owner e hint cascade)
  | .removeAt position hint => discard (Store.removeAt owner position hint)
  | .set position e cascade => discard (Store.set owner position e cascade)
  | .removeAll es hint => discard (Store.removeAll owner es hint)
  | .clear => Store.clear owner

/-- The store that calls leave, one after the other, whether they answer or fail. -/
def runAll (owner : ObjectId) (st : Store E) (requests : List (Request E)) : Store E :=
  requests.foldl (fun st request => stateAfter (request.run owner) st) st

/-- Whether a call may delete, and an element disappears from the container with it. -/
def Vanishes (owner : ObjectId) (e : E) (st : Store E) (request : Request E) : Prop :=
  request.cascades = true ∧ e ∈ st.contents owner ∧
    e ∉ (stateAfter (request.run owner) st).contents owner

/-- Whether a request makes an element vanish can be computed. -/
instance (e : E) (request : Request E) : Decidable (request.Vanishes owner e st) :=
  inferInstanceAs (Decidable (_ ∧ _ ∧ _))

/-- How many calls of a run may delete and make an element disappear. -/
def disappearances (owner : ObjectId) (e : E) : Store E → List (Request E) → Nat
  | _, [] => 0
  | st, request :: requests =>
    (if request.Vanishes owner e st then 1 else 0) +
      disappearances owner e (stateAfter (request.run owner) st) requests

/-- The copies of an element beyond the first one that a call clears. -/
def copies (owner : ObjectId) (e : E) (st : Store E) : Request E → Nat
  | .clear => if st.writes.now then 0 else (st.contents owner).count e - 1
  | _ => 0

/-- The copies of an element beyond the first one that the clears of a run meet. -/
def surplus (owner : ObjectId) (e : E) : Store E → List (Request E) → Nat
  | _, [] => 0
  | st, request :: requests =>
    request.copies owner e st + surplus owner e (stateAfter (request.run owner) st) requests

/-- No clear of a run that is carried out meets two copies of an element. -/
def ClearsSingles (owner : ObjectId) : Store E → List (Request E) → Prop
  | _, [] => True
  | st, request :: requests =>
    (request = .clear → st.writes.now = false → (st.contents owner).Nodup) ∧
      ClearsSingles owner (stateAfter (request.run owner) st) requests

/-- Between two states of a store, nothing leaves the container of an owner, and nothing is
deleted. -/
structure Grows (owner : ObjectId) (st after : Store E) : Prop where
  dependent : after.dependent = st.dependent
  deleted : after.deleted = st.deleted
  kept : st.contents owner ⊆ after.contents owner

/-- What leaves the container of an owner between two states of a store is deleted, if deleting is
allowed, and nothing else is. -/
structure Deletes (owner : ObjectId) (allowed : Bool) (st after : Store E) (lost : List E) :
    Prop where
  dependent : after.dependent = st.dependent
  deleted : after.deleted = st.deleted ++ lost
  exact : LostForGood allowed (st.contents owner) (after.contents owner) lost

section

omit [DecidableEq E]

/-- A container that stays as it is grows. -/
theorem Grows.refl (owner : ObjectId) (st : Store E) : Grows owner st st :=
  ⟨rfl, rfl, List.Subset.refl _⟩

/-- A rejected write leaves the container as it was. -/
theorem Grows.noted {first : Store E} (h : Grows owner first st) (call : StoreCall E) :
    Grows owner first (st.noted call) :=
  ⟨h.dependent, h.deleted, h.kept⟩

/-- A refused write leaves the container as it was. -/
theorem Grows.refused {first : Store E} (h : Grows owner first st) (call : StoreCall E) :
    Grows owner first (st.refused call owner) := by
  refine ⟨h.dependent, h.deleted, ?_⟩
  rw [contents_refused]
  exact h.kept

/-- A read leaves the container as it was. -/
theorem keeps_grows_reading {α : Type} (first : Store E) (call : StoreCall E)
    (answer : Store E → α) : Keeps (Grows owner first) (reading call answer) := by
  intro st h
  unfold stateAfter
  rw [reading_eq]
  cases st.reads.now with
  | true => exact ⟨h.dependent, h.deleted, h.kept⟩
  | false => exact ⟨h.dependent, h.deleted, h.kept⟩

/-- Where the container only grows, nothing is deleted. -/
theorem Grows.deletes {allowed : Bool} (h : Grows owner st after) :
    Deletes owner allowed st after [] :=
  ⟨h.dependent, by rw [h.deleted, List.append_nil], .nil fun _ _ he => h.kept he⟩

end

/-- A write that takes nothing out lets the container grow. -/
theorem Grows.written {first : Store E} (h : Grows owner first st) (call : StoreCall E)
    {es : List E} (hes : st.contents owner ⊆ es) :
    Grows owner first (st.written call owner es []) := by
  refine ⟨h.dependent, ?_, ?_⟩
  · rw [written_nil]
    exact h.deleted
  · rw [contents_written_self]
    exact fun e he => (st.arrange_perm es).mem_iff.mpr (hes (h.kept he))

/-- A write that is carried out deletes those of the leaving elements that the container does not
hold any more. -/
theorem Deletes.written {allowed : Bool} {es gone : List E} (hdependent : st.dependent = true)
    (call : StoreCall E)
    (hgone : LostForGood allowed (st.contents owner) es (gone.filter fun e => !es.contains e)) :
    Deletes owner allowed st (st.written call owner es gone)
      (gone.filter fun e => !es.contains e) := by
  have harrange (e : E) : e ∈ st.arrange es ↔ e ∈ es := (st.arrange_perm es).mem_iff
  refine ⟨rfl, ?_, ?_⟩
  · change st.deleted ++ (if st.dependent then _ else _) = _
    simp only [hdependent, if_true, List.contains_eq_mem, harrange]
  · rw [contents_written_self]
    exact hgone.congr (fun _ => .rfl) harrange

/-- Adding lets the container grow. -/
theorem keeps_grows_add (first : Store E) (e : E) (hint : Option Nat) :
    Keeps (Grows owner first) (Store.add owner e hint) := by
  intro st h
  unfold stateAfter
  rw [add_eq]
  cases st.writes.now with
  | true => exact h.noted _
  | false => exact h.written _ (List.subset_append_left _ _)

/-- Adding several elements lets the container grow, wherever it stops. -/
theorem keeps_grows_addFrom (first : Store E) (hint : Option Nat) (offset : Nat) (es : List E) :
    Keeps (Grows owner first) (addFrom owner hint offset es) := by
  induction es generalizing offset with
  | nil => exact Keeps.pure false
  | cons e es ih =>
    have hadvance : Keeps (Grows owner first) (advanceHint hint offset) := by
      unfold advanceHint
      split
      · exact Keeps.pure none
      · split
        · exact Keeps.pure _
        · exact Keeps.throw _
    exact hadvance.bind fun hint => (keeps_grows_add first e hint).bind fun _ =>
      (ih (offset + 1)).bind fun more => Keeps.pure _

/-- Inserting lets the container grow. -/
theorem keeps_grows_insert (first : Store E) (position : Nat) (e : E) :
    Keeps (Grows owner first) (Store.insert owner position e) := by
  intro st h
  unfold stateAfter
  rw [insert_eq]
  cases st.writes.now with
  | true => exact h.noted _
  | false =>
    by_cases hposition : (st.contents owner).length < position
    · rw [if_neg Bool.false_ne_true, if_pos hposition]
      exact h.refused _
    · rw [if_neg Bool.false_ne_true, if_neg hposition]
      exact h.written _ fun a ha => List.mem_insertIdx (Nat.le_of_not_lt hposition) |>.mpr (.inr ha)

variable (owner)

/-- Removing one occurrence deletes the element once, if it was the last one. -/
theorem deletes_remove (hdependent : st.dependent = true) (e : E) (hint : Option Nat)
    (cascade : Bool) :
    ∃ lost, lost.Nodup ∧
      Deletes owner cascade st (stateAfter (Store.remove owner e hint cascade) st) lost := by
  unfold stateAfter
  rw [remove_eq]
  cases st.writes.now with
  | true => exact ⟨[], .nil, ((Grows.refl owner st).noted _).deletes⟩
  | false =>
    rw [if_neg Bool.false_ne_true]
    cases cascade with
    | false => exact ⟨_, .nil, .written hdependent _ (.nil fun h => by cases h)⟩
    | true =>
      refine ⟨_, ?_, .written hdependent _ (OperationKind.lostForGood_erase _ e)⟩
      refine List.Nodup.sublist List.filter_sublist ?_
      rw [if_pos rfl]
      split
      · exact List.pairwise_singleton _ e
      · exact .nil

/-- Removing at a position deletes the element there once, if it was the last one. -/
theorem deletes_removeAt (hdependent : st.dependent = true) (position : Nat) (hint : Option Nat) :
    ∃ lost, lost.Nodup ∧
      Deletes owner true st (stateAfter (Store.removeAt owner position hint) st) lost := by
  unfold stateAfter
  rw [removeAt_eq]
  cases st.writes.now with
  | true => exact ⟨[], .nil, ((Grows.refl owner st).noted _).deletes⟩
  | false =>
    rw [if_neg Bool.false_ne_true]
    cases hprevious : (st.contents owner)[position]? with
    | none =>
      refine ⟨_, .nil, .written hdependent _ (.nil fun _ e he => ?_)⟩
      rwa [List.eraseIdx_of_length_le (List.getElem?_eq_none_iff.mp hprevious)]
    | some previous =>
      refine ⟨_, ?_, .written hdependent _ (.of_gone ?_ fun e he => ?_)⟩
      · exact List.Nodup.sublist List.filter_sublist (List.pairwise_singleton _ previous)
      · exact List.cons_subset.mpr ⟨List.mem_of_getElem? hprevious, List.nil_subset _⟩
      · exact (eq_or_mem_eraseIdx hprevious he).imp_left List.mem_singleton.mpr

/-- Replacing deletes the element that was replaced once, if it was the last one. -/
theorem deletes_set (hdependent : st.dependent = true) (position : Nat) (e : E)
    (cascade : Bool) :
    ∃ lost, lost.Nodup ∧
      Deletes owner cascade st (stateAfter (Store.set owner position e cascade) st) lost := by
  unfold stateAfter
  rw [set_eq]
  cases st.writes.now with
  | true => exact ⟨[], .nil, ((Grows.refl owner st).noted _).deletes⟩
  | false =>
    rw [if_neg Bool.false_ne_true]
    cases hprevious : (st.contents owner)[position]? with
    | none => exact ⟨[], .nil, ((Grows.refl owner st).refused _).deletes⟩
    | some previous =>
      cases cascade with
      | false => exact ⟨_, .nil, .written hdependent _ (.nil fun h => by cases h)⟩
      | true =>
        refine ⟨_, ?_, .written hdependent _ (.of_gone ?_ fun a ha => ?_)⟩
        · exact List.Nodup.sublist List.filter_sublist (List.pairwise_singleton _ previous)
        · exact List.cons_subset.mpr ⟨List.mem_of_getElem? hprevious, List.nil_subset _⟩
        · exact (eq_or_mem_set hprevious e ha).imp_left List.mem_singleton.mpr

/-- Removing lets nothing in. -/
theorem contents_remove_subset (st : Store E) (e : E) (hint : Option Nat) (cascade : Bool) :
    (stateAfter (Store.remove owner e hint cascade) st).contents owner ⊆ st.contents owner := by
  unfold stateAfter
  rw [remove_eq]
  cases st.writes.now with
  | true => exact List.Subset.refl _
  | false =>
    rw [if_neg Bool.false_ne_true]
    dsimp only
    rw [contents_written_self]
    exact fun a ha => List.mem_of_mem_erase ((st.arrange_perm _).mem_iff.mp ha)

/-- Removing several elements deletes each element that leaves once, with its last occurrence, and
lets nothing in, wherever it stops. -/
theorem deletes_removeAll (hdependent : st.dependent = true) (es : List E) (hint : Option Nat) :
    (stateAfter (Store.removeAll owner es hint) st).contents owner ⊆ st.contents owner ∧
      ∃ lost, lost.Nodup ∧
        Deletes owner true st (stateAfter (Store.removeAll owner es hint) st) lost := by
  induction es generalizing st with
  | nil => exact ⟨List.Subset.refl _, [], .nil, (Grows.refl owner st).deletes⟩
  | cons e es ih =>
    have hsubset := contents_remove_subset owner st e hint true
    obtain ⟨first, hfirst, hdeletes⟩ := deletes_remove owner hdependent e hint true
    unfold Store.removeAll
    rw [stateAfter_bind]
    unfold stateAfter at hsubset hdeletes
    cases hremove : Store.remove owner e hint true st with
    | error failure mid =>
      rw [hremove] at hsubset hdeletes
      exact ⟨hsubset, first, hfirst, hdeletes⟩
    | ok removed mid =>
      rw [hremove] at hsubset hdeletes
      dsimp only at hsubset hdeletes ⊢
      have hmid : mid.dependent = true := hdeletes.dependent.trans hdependent
      obtain ⟨hrest, rest, hnodup, hlater⟩ := ih hmid
      rw [stateAfter_bind_pure]
      refine ⟨List.Subset.trans hrest hsubset, first ++ rest,
        hdeletes.exact.nodup_append hlater.exact hfirst hnodup,
        hlater.dependent.trans hdeletes.dependent, ?_,
        hdeletes.exact.trans hlater.exact hsubset hrest⟩
      rw [hlater.deleted, hdeletes.deleted, List.append_assoc]

/-- Clearing deletes all elements, once per copy. -/
theorem deletes_clear (hdependent : st.dependent = true) :
    Deletes owner true st (stateAfter (Store.clear owner) st)
      (if st.writes.now then [] else st.contents owner) := by
  unfold stateAfter
  rw [clear_eq]
  cases st.writes.now with
  | true => exact ((Grows.refl owner st).noted _).deletes
  | false =>
    have hall : (st.contents owner).filter (fun e => !([] : List E).contains e) =
        st.contents owner := List.filter_eq_self.mpr fun _ _ => rfl
    have hwritten : Deletes owner true st (st.written .clear owner [] (st.contents owner)) _ :=
      .written hdependent _ (.of_gone (List.Subset.refl _) fun _ he => .inl he)
    rwa [hall] at hwritten

/-- A call deletes exactly the elements that it makes disappear, if it may delete: each of them
once, and once more for every further copy that a clear takes out. -/
theorem deletes_run (hdependent : st.dependent = true) (request : Request E) :
    ∃ lost, Deletes owner request.cascades st (stateAfter (request.run owner) st) lost ∧
      ∀ e, lost.count e = (if e ∈ lost then 1 else 0) + request.copies owner e st := by
  have hgrows {action : StoreAction E Unit} (h : Keeps (Grows owner st) action) :
      ∃ lost, Deletes owner false st (stateAfter action st) lost ∧
        ∀ e, lost.count e = (if e ∈ lost then 1 else 0) + 0 :=
    ⟨[], (h st (.refl owner st)).deletes, fun _ => rfl⟩
  -- Looks and additions delete nothing; only clearing deletes an element once for each copy.
  cases request with
  | size => exact hgrows (keeps_grows_reading st _ _).discard
  | contains e => exact hgrows (keeps_grows_reading st _ _).discard
  | elements =>
    refine hgrows (Keeps.discard ?_)
    exact (keeps_grows_reading st _ _).bind fun _ =>
      (Keeps.of_modify fun _ h => ⟨h.dependent, h.deleted, h.kept⟩).bind fun _ => .pure _
  | get position => exact hgrows (keeps_grows_reading st _ _).discard
  | updateEmbedded e field => exact hgrows (keeps_grows_reading st _ _).discard
  | add e hint => exact hgrows (keeps_grows_add st e hint).discard
  | addAll es hint => exact hgrows (keeps_grows_addFrom st hint 0 es).discard
  | insert position e => exact hgrows (keeps_grows_insert st position e)
  | remove e hint cascade =>
    obtain ⟨lost, hnodup, hdeletes⟩ := deletes_remove owner hdependent e hint cascade
    exact ⟨lost, by rwa [run, stateAfter_discard], fun a => hnodup.count⟩
  | removeAt position hint =>
    obtain ⟨lost, hnodup, hdeletes⟩ := deletes_removeAt owner hdependent position hint
    exact ⟨lost, by rwa [run, stateAfter_discard], fun a => hnodup.count⟩
  | set position e cascade =>
    obtain ⟨lost, hnodup, hdeletes⟩ := deletes_set owner hdependent position e cascade
    exact ⟨lost, by rwa [run, stateAfter_discard], fun a => hnodup.count⟩
  | removeAll es hint =>
    obtain ⟨-, lost, hnodup, hdeletes⟩ := deletes_removeAll owner hdependent es hint
    exact ⟨lost, by rwa [run, stateAfter_discard], fun a => hnodup.count⟩
  | clear =>
    refine ⟨_, deletes_clear owner hdependent, fun e => ?_⟩
    rw [copies]
    cases st.writes.now with
    | true => rfl
    | false =>
      rw [if_neg Bool.false_ne_true, if_neg Bool.false_ne_true]
      by_cases he : e ∈ st.contents owner
      · have hpos := List.count_pos_iff.mpr he
        rw [if_pos he]
        omega
      · rw [if_neg he, List.count_eq_zero_of_not_mem he]

/-- How often a call deletes an element. -/
theorem count_deleted_run (hdependent : st.dependent = true) (request : Request E) (e : E) :
    (stateAfter (request.run owner) st).deleted.count e =
      st.deleted.count e + (if request.Vanishes owner e st then 1 else 0) +
        request.copies owner e st := by
  obtain ⟨lost, hdeletes, hcount⟩ := deletes_run owner hdependent request
  have hlost : e ∈ lost ↔ request.Vanishes owner e st := hdeletes.exact e
  rw [hdeletes.deleted, List.count_append, hcount e, if_congr hlost rfl rfl, Nat.add_assoc]

/-- How often the calls of a run delete an element. -/
theorem count_deleted_runAll (hdependent : st.dependent = true) (requests : List (Request E))
    (e : E) :
    (runAll owner st requests).deleted.count e =
      st.deleted.count e + disappearances owner e st requests + surplus owner e st requests := by
  induction requests generalizing st with
  | nil => rfl
  | cons request requests ih =>
    obtain ⟨lost, hdeletes, -⟩ := deletes_run owner hdependent request
    have hrest := ih (hdeletes.dependent.trans hdependent)
    have hfirst := count_deleted_run owner hdependent request e
    rw [runAll, List.foldl_cons, ← runAll, hrest, hfirst, disappearances, surplus]
    omega

/-- A run meets no surplus copies exactly if none of its clears meets two copies of an element. -/
theorem surplus_eq_zero_iff (requests : List (Request E)) :
    (∀ e, surplus owner e st requests = 0) ↔ ClearsSingles owner st requests := by
  induction requests generalizing st with
  | nil => exact ⟨fun _ => trivial, fun _ _ => rfl⟩
  | cons request requests ih =>
    have hcopies : (∀ e, request.copies owner e st = 0) ↔
        (request = .clear → st.writes.now = false → (st.contents owner).Nodup) := by
      cases request with
      | clear =>
        simp only [copies, forall_const, List.nodup_iff_count]
        cases st.writes.now with
        | true => simp
        | false => simp [Nat.sub_eq_zero_iff_le]
      | _ => exact ⟨fun _ h => (by cases h), fun _ _ => rfl⟩
    simp only [surplus, ClearsSingles, Nat.add_eq_zero_iff, forall_and, hcopies, ih]

/-- Deletions of a store of dependent elements, call by call and over runs. Every call, answered or
not, deletes exactly the elements that were in the owner's container before it and are not
afterwards, if it may delete, and none otherwise; it deletes each of them once, and once more for
every further copy that a clear takes out. Over a run, an element is deleted once per call that may
delete and makes it disappear, and once more for every surplus copy. Deletions and disappearances
agree exactly if no clear that is carried out meets two copies of an element. -/
theorem deletions_of_disappearances (hdependent : st.dependent = true) :
    (∀ request : Request E, ∃ lost,
      Deletes owner request.cascades st (stateAfter (request.run owner) st) lost ∧
        ∀ e, lost.count e = (if e ∈ lost then 1 else 0) + request.copies owner e st) ∧
    (∀ (requests : List (Request E)) (e : E),
      (runAll owner st requests).deleted.count e =
        st.deleted.count e + disappearances owner e st requests + surplus owner e st requests) ∧
    ∀ requests : List (Request E),
      (∀ e, (runAll owner st requests).deleted.count e =
        st.deleted.count e + disappearances owner e st requests) ↔
      ClearsSingles owner st requests := by
  refine ⟨deletes_run owner hdependent, count_deleted_runAll owner hdependent, fun requests => ?_⟩
  rw [← surplus_eq_zero_iff]
  refine forall_congr' fun e => ?_
  rw [count_deleted_runAll owner hdependent requests e]
  omega

/-- In a sorted container, the first two removals of an element with three copies delete nothing,
the third one deletes it once, and the elements that are left go with the clear, once each. -/
theorem deletions_of_disappearances_single_copies :
    let owner : ObjectId := .ofNat 7
    let st : Store Int32 :=
      Store.seed { order := some fun a b => compare a.toInt b.toInt, dependent := true } owner
        [3, 1, 3, 2, 3]
    let requests : List (Request Int32) :=
      [.remove 3 none true, .removeAt 3 none, .set 2 5 true, .clear]
    (runAll owner st requests).deleted = [3, 1, 2, 5] ∧ ClearsSingles owner st requests ∧
      ∀ e, (runAll owner st requests).deleted.count e =
        st.deleted.count e + disappearances owner e st requests := by
  intro owner st requests
  have hleft : (runAll owner st (requests.take 3)).contents owner = [1, 2, 5] := by cbv
  have hsingles : ClearsSingles owner st requests := by
    refine ⟨fun h => (by cases h), fun h => (by cases h), fun h => (by cases h), fun _ _ => ?_,
      trivial⟩
    change ((runAll owner st (requests.take 3)).contents owner).Nodup
    rw [hleft]
    decide
  exact ⟨by cbv, hsingles, ((deletions_of_disappearances owner rfl).2.2 requests).mpr hsingles⟩

/-- A clear goes through two copies of an element and deletes it twice, although it disappears
once. -/
theorem clear_deletes_per_copy :
    let owner : ObjectId := .ofNat 0
    let st : Store Int32 := Store.seed { dependent := true } owner [2, 2]
    let after := stateAfter (Request.run owner .clear) st
    after.contents owner = [] ∧ after.deleted = [2, 2] ∧
      disappearances owner 2 st [.clear] = 1 ∧
      ¬ (runAll owner st [.clear]).deleted.count 2 =
        st.deleted.count 2 + disappearances owner 2 st [.clear] := by
  decide

end Request

end TrackedFields.Store
