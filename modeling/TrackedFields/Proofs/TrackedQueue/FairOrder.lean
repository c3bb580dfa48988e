import TrackedFields.Proofs.TrackedQueue.TrackerIndependence
import TrackedFields.Proofs.TrackedQueue.WriteThrough

/-!
# Priority with fair ties

A priority queue without a store keeps its elements in the stable sort of the order in which they
arrived: insertion puts an element behind all that compare equal, and taking elements out of a
stable sort leaves the stable sort of the others. So of the elements that compare least, the head is
the one that arrived first, and polling a queue until it is empty gives a stable sort. The order of
arrival is followed alongside, by what each turn makes of it.
-/

namespace TrackedFields

/-- A turn in the use of a priority queue. Offering an element is the same as adding it. -/
inductive Turn (E : Type) where
  | initialiseFrom (es : List E)
  | add (e : E)
  | addAll (new : List E)
  | poll
  | remove (e : E)
  | removeAll (doomed : List E)
  | retainAll (keep : List E)
  | clear

namespace Turn

variable {E : Type} [DecidableEq E] [Element E]

/-- Take a turn. -/
def run : Turn E → TrackedQueue.Action E Unit
  | initialiseFrom es => TrackedQueue.initialiseFrom es
  | add e => discard (TrackedQueue.add e)
  | addAll new => discard (TrackedQueue.addAll new)
  | poll => discard TrackedQueue.poll
  | remove e => discard (TrackedQueue.remove e)
  | removeAll doomed => discard (TrackedQueue.removeAll doomed)
  | retainAll keep => discard (TrackedQueue.retainAll keep)
  | clear => TrackedQueue.clear

/-- What a turn makes of the elements of a queue, listed in order of arrival. Elements that are
refused do not arrive. Polling takes the first one of those that compare least. -/
def arrivals (cmp : Comparator E) (tracker : Tracker) (held : List E) : Turn E → List E
  | initialiseFrom es => es
  | add e => if (tracker.check e).isOk then held ++ [e] else held
  | addAll new => if (tracker.checkAll new).isOk then held ++ new else held
  | poll => (cmp.earliest held).elim held held.erase
  | remove e => held.erase e
  | removeAll doomed => held.filter fun e => !doomed.contains e
  | retainAll keep => held.filter keep.contains
  | clear => []

end Turn

namespace TrackedQueue

variable {E α : Type} [DecidableEq E] [Element E]

/-! ### Queues without a store -/

section Storeless

variable {t : Tracker} (hchannel : t.channel = none) (content : QueueContent E) (s : Session E)
include hchannel

omit [DecidableEq E] [Element E] in
/-- Without a store, the memory holds all elements. -/
theorem isAuthoritative_of_no_channel : isAuthoritative ⟨t, content⟩ = true := by
  unfold isAuthoritative hasStore
  rw [hchannel]
  rfl

omit [DecidableEq E] [Element E] in
/-- Without a store, nothing is forwarded. -/
theorem forward_of_no_channel (operation : String) (action : ObjectId → StoreAction E α) :
    t.forward operation action s = (.skipped, s) := by
  unfold Tracker.forward Tracker.call
  rw [hchannel]
  cases t.dispatch <;> rfl

omit [Element E] in
/-- Without a store, polling takes the head of the elements in memory. -/
theorem poll_of_no_channel : ∃ session, poll ⟨⟨t, content⟩, s⟩ = .ok content.elements.head?
    ⟨⟨t, { content with elements := content.elements.tail }⟩, session⟩ := by
  let scene : Scene (TrackedQueue E) E := ⟨⟨t, content⟩, s⟩
  have hscene : scene.value.isAuthoritative = true := isAuthoritative_of_no_channel hchannel content
  have hload : ensureLoaded ⟨⟨t, content⟩, s⟩ = .ok () ⟨⟨t, content⟩, s⟩ :=
    ensureLoaded_of_whole hscene
  simp only [poll, bind_apply, hload, current_apply, setElements_apply,
    forward_apply (forward_of_no_channel hchannel _ _ _), announce_apply, changed_apply, pure_apply]
  exact ⟨_, rfl⟩

end Storeless

/-! ### Turns -/

/-- A queue without a store keeps its elements, of which the order of arrival is given, in the
stable sort of that order. -/
structure Fair (cmp : Comparator E) (t : Tracker) (held : List E)
    (scene : Scene (TrackedQueue E) E) : Prop where
  storeless : scene.value.tracker.channel = none
  tracker : scene.value.tracker = t
  order : scene.value.content.order = cmp
  elements : scene.value.content.elements = cmp.sort held

namespace Fair

variable {cmp : Comparator E} {t : Tracker} {held next es : List E} {loaded : Bool} {answer : α}
  {scene : Scene (TrackedQueue E) E} {session : Session E} {action : Action E α}

omit [DecidableEq E] [Element E] in
/-- The memory of a fair queue holds all elements. -/
theorem whole (h : Fair cmp t held scene) : scene.value.isAuthoritative = true :=
  isAuthoritative_of_no_channel h.storeless scene.value.content

omit [DecidableEq E] [Element E] in
/-- An action that changes no more than the elements in memory leaves a fair queue, if it leaves the
stable sort of the new order of arrival. -/
theorem leaves (h : Fair cmp t held scene) (haction : action scene = .ok answer ⟨{ scene.value with
      content := { scene.value.content with elements := es, loaded } }, session⟩)
    (hes : es = cmp.sort next) : Fair cmp t next (stateAfter action scene) := by
  rw [stateAfter_of_ok haction]
  exact ⟨h.storeless, h.tracker, h.order, hes⟩

variable [Std.TransCmp cmp]

omit [Element E] in
/-- New elements arrive behind those that are there. -/
theorem addUnchecked (h : Fair cmp t held scene) (operation : String)
    (store : ObjectId → Option Nat → StoreAction E Bool) (new : List E) :
    Fair cmp t (held ++ new)
      (stateAfter (TrackedQueue.addUnchecked operation store new) scene) := by
  obtain ⟨answer, session, hadd⟩ := addUnchecked_of_whole h.whole scene.session operation
    store new
  refine h.leaves hadd ?_
  rw [h.order, h.elements, cmp.sort_append]

omit [Element E] in
/-- Elements leave a fair queue all together. -/
theorem removeListed (h : Fair cmp t held scene) (doomed : List E) :
    Fair cmp t (held.filter fun e => !doomed.contains e)
      (stateAfter (TrackedQueue.removeListed doomed) scene) := by
  obtain ⟨answer, session, hremove⟩ := removeListed_of_whole h.whole scene.session doomed
  refine h.leaves hremove ?_
  rw [h.elements, cmp.sort_filter]

/-- Polling gives the first one of those elements that compare least, and takes it. -/
theorem poll (h : Fair cmp t held scene) : ∃ after,
    TrackedQueue.poll scene = .ok (cmp.earliest held) after ∧
      Fair cmp t (Turn.poll.arrivals cmp t held) after := by
  obtain ⟨session, hpoll⟩ :=
    poll_of_no_channel h.storeless scene.value.content scene.session
  have hhead : (cmp.sort held).head? = cmp.earliest held := cmp.head?_sort held
  rw [h.elements, hhead] at hpoll
  refine ⟨_, hpoll, ?_⟩
  rw [← stateAfter_of_ok hpoll]
  exact h.leaves hpoll (cmp.tail_sort held)

/-- Every turn goes by the order of arrival, also where elements are refused. -/
theorem turn (h : Fair cmp t held scene) (turn : Turn E) :
    Fair cmp t (turn.arrivals cmp t held) (stateAfter turn.run scene) := by
  -- What arrives is sorted in behind its ties; removing and sorting commute.
  cases turn with
  | initialiseFrom es =>
    exact ⟨h.storeless, h.tracker, h.order, congrArg (Comparator.sort · es) h.order⟩
  | add e =>
    rw [Turn.run, stateAfter_discard, Turn.arrivals]
    change Fair cmp t _ (stateAfter (Tracked.require (scene.value.tracker.check e) >>= fun _ =>
      TrackedQueue.addUnchecked "add" (Store.add · e ·) [e]) scene)
    rw [h.tracker]
    cases t.check e with
    | error failure => exact h
    | ok answer => exact h.addUnchecked "add" (Store.add · e ·) [e]
  | addAll new =>
    rw [Turn.run, stateAfter_discard, Turn.arrivals]
    change Fair cmp t _ (stateAfter (Tracked.require (scene.value.tracker.checkAll new) >>= fun _ =>
      if new.isEmpty then pure false
      else TrackedQueue.addUnchecked "add-all" (Store.addAll · new ·) new) scene)
    rw [h.tracker]
    cases t.checkAll new with
    | error failure => exact h
    | ok answer =>
      cases new with
      | nil =>
        change Fair cmp t (held ++ []) scene
        rwa [List.append_nil]
      | cons e new => exact h.addUnchecked "add-all" (Store.addAll · (e :: new) ·) (e :: new)
  | poll =>
    obtain ⟨after, hpoll, hafter⟩ := h.poll
    rwa [Turn.run, stateAfter_discard, stateAfter_of_ok hpoll]
  | remove e =>
    obtain ⟨answer, session, hremove⟩ :=
      removeWith_of_whole h.whole scene.session e true
    rw [Turn.run, stateAfter_discard]
    refine h.leaves hremove ?_
    rw [h.elements, Turn.arrivals, cmp.sort_erase]
  | removeAll doomed =>
    rw [Turn.run, stateAfter_discard]
    cases doomed with
    | nil =>
      have hall : held.filter (fun e => !List.contains [] e) = held :=
        List.filter_eq_self.mpr fun _ _ => rfl
      change Fair cmp t (held.filter fun e => !List.contains [] e) scene
      rwa [hall]
    | cons e doomed => exact h.removeListed (e :: doomed)
  | retainAll keep =>
    obtain ⟨answer, session, hretain⟩ :=
      retainAll_of_whole h.whole scene.session keep
    rw [Turn.run, stateAfter_discard]
    refine h.leaves hretain ?_
    rw [h.elements, Turn.arrivals, cmp.sort_filter]
  | clear =>
    obtain ⟨loaded, session, hclear⟩ := exists_clear scene.session
    exact h.leaves hclear (cmp.sort_of_sorted .nil).symm

/-- A run of turns goes by the order of arrival. -/
theorem run (h : Fair cmp t held scene) (turns : List (Turn E)) :
    Fair cmp t (turns.foldl (fun held turn => turn.arrivals cmp t held) held)
      (turns.foldl (fun scene turn => stateAfter turn.run scene) scene) := by
  induction turns generalizing held scene with
  | nil => exact h
  | cons turn turns ih => exact ih (h.turn turn)

end Fair

/-! ### Polling until nothing is left -/

/-- Polling a queue until it gives nothing: the elements that it gives, and the scene then. -/
inductive Drains : Scene (TrackedQueue E) E → List E → Scene (TrackedQueue E) E → Prop where
  | nothing {scene after : Scene (TrackedQueue E) E} (h : poll scene = .ok none after) :
      Drains scene [] after
  | next {scene mid after : Scene (TrackedQueue E) E} {e : E} {es : List E}
      (h : poll scene = .ok (some e) mid) (rest : Drains mid es after) :
      Drains scene (e :: es) after

omit [Element E] in
/-- There is one way only to poll a queue until it gives nothing. -/
theorem Drains.unique {scene after after' : Scene (TrackedQueue E) E} {es es' : List E}
    (h : Drains scene es after) (h' : Drains scene es' after') : es = es' ∧ after = after' := by
  induction h generalizing es' with
  | nothing hpoll =>
    cases h' with
    | nothing hpoll' =>
      rw [hpoll] at hpoll'
      cases hpoll'
      exact ⟨rfl, rfl⟩
    | next hpoll' rest' =>
      rw [hpoll] at hpoll'
      cases hpoll'
  | next hpoll _ ih =>
    cases h' with
    | nothing hpoll' =>
      rw [hpoll] at hpoll'
      cases hpoll'
    | next hpoll' rest' =>
      rw [hpoll] at hpoll'
      cases hpoll'
      obtain ⟨rfl, rfl⟩ := ih rest'
      exact ⟨rfl, rfl⟩

/-- Polling a fair queue until it gives nothing gives the stable sort of the order of arrival, and
nothing is left. -/
theorem Fair.drains {cmp : Comparator E} [Std.TransCmp cmp] {t : Tracker} {held : List E}
    {scene : Scene (TrackedQueue E) E} (h : Fair cmp t held scene) :
    ∃ after, Drains scene (cmp.sort held) after ∧ after.value.content.elements = [] := by
  induction hlength : held.length generalizing held scene with
  | zero =>
    obtain rfl := List.length_eq_zero_iff.mp hlength
    obtain ⟨after, hpoll, hafter⟩ := h.poll
    rw [cmp.sort_of_sorted .nil]
    exact ⟨after, .nothing hpoll, hafter.elements.trans (cmp.sort_of_sorted .nil)⟩
  | succ n ih =>
    obtain ⟨mid, hpoll, hmid⟩ := h.poll
    cases hearliest : cmp.earliest held with
    | none =>
      rw [cmp.earliest_eq_none_iff.mp hearliest] at hlength
      cases hlength
    | some e =>
      rw [Turn.arrivals, hearliest, Option.elim_some] at hmid
      rw [hearliest] at hpoll
      have hmem : e ∈ held := List.mem_of_find?_eq_some hearliest
      obtain ⟨after, hrest, hempty⟩ := ih hmid (by rw [List.length_erase_of_mem hmem]; omega)
      rw [cmp.sort_eq_of_earliest hearliest]
      exact ⟨after, .next hpoll hrest, hempty⟩

/-- Priority order with fair ties. Let a priority queue without a store keep the stable sort of some
elements in memory, as a fresh queue does of none, and let any turns follow, each of which adds
elements, takes some away or exchanges all of them. Then the queue keeps the stable sort of the
elements that it holds, listed in the order in which they arrived. Looking at the head and removing
it give the same: nothing if nothing is held, and else the element that compares less than all that
arrived before it, and not greater than any that arrived after it. Polling the queue until it gives
nothing gives exactly the stable sort, and leaves the queue empty. -/
theorem priority_order_with_fair_ties (cmp : Comparator E) [Std.TransCmp cmp]
    (start : Scene (TrackedQueue E) E) (held : List E) (hstore : start.value.hasStore = false)
    (horder : start.value.content.order = cmp)
    (hheld : start.value.content.elements = cmp.sort held) (turns : List (Turn E)) :
    let scene := turns.foldl (fun scene turn => stateAfter turn.run scene) start
    let arrived := turns.foldl (fun held turn => turn.arrivals cmp start.value.tracker held) held
    scene.value.content.elements = cmp.sort arrived ∧
      (∃ head after, peek scene = .ok head scene ∧ poll scene = .ok head after ∧
        (head = none ↔ arrived = []) ∧
        ∀ e, head = some e ↔ ∃ before rest, arrived = before ++ e :: rest ∧
          (∀ a ∈ before, cmp.le a e = false) ∧ ∀ a ∈ rest, cmp.le e a) ∧
      (∃ after, Drains scene (cmp.sort arrived) after) ∧
      ∀ es after, Drains scene es after →
        es = cmp.sort arrived ∧ after.value.content.elements = [] := by
  intro scene arrived
  have hchannel : start.value.tracker.channel = none := by
    unfold hasStore at hstore
    simpa using hstore
  have hfair : Fair cmp start.value.tracker arrived scene :=
    Fair.run ⟨hchannel, rfl, horder, hheld⟩ turns
  obtain ⟨last, hdrains, hempty⟩ := hfair.drains
  obtain ⟨after, hpoll, -⟩ := hfair.poll
  have hpeek := peek_of_whole hfair.whole scene.session
  rw [hfair.elements, cmp.head?_sort] at hpeek
  refine ⟨hfair.elements, ⟨cmp.earliest arrived, after, hpeek, hpoll, cmp.earliest_eq_none_iff,
    fun e => cmp.earliest_eq_some_iff⟩, ⟨last, hdrains⟩, fun es other hother => ?_⟩
  obtain ⟨rfl, rfl⟩ := hdrains.unique hother
  exact ⟨rfl, hempty⟩

/-- A fresh queue of numbers that compare by their tens. Of the elements that are there at the end,
two compare equal, and the smaller one of them arrived later. -/
theorem priority_order_among_tens :
    let cmp : Comparator Int32 := compareOn fun e => e.toInt / 10
    let o : Owner := { id := .ofNat 7, descriptor := { name := "scores", ordinal := ⟨2⟩ } }
    let start : Scene (TrackedQueue Int32) Int32 := ⟨.owned o cmp {}, {}⟩
    let turns : List (Turn Int32) :=
      [.initialiseFrom [25, 11], .addAll [27, 21], .poll, .add 13, .remove 25, .poll]
    let scene := turns.foldl (fun scene turn => stateAfter turn.run scene) start
    let arrived := turns.foldl (fun held turn => turn.arrivals cmp start.value.tracker held) []
    start.value.hasStore = false ∧ start.value.content.order = cmp ∧
      start.value.content.elements = cmp.sort [] ∧ arrived = [27, 21] ∧
      scene.value.content.elements = cmp.sort arrived ∧
      ∃ after, Drains scene (cmp.sort arrived) after := by
  intro cmp o start turns scene arrived
  have hheld : start.value.content.elements = cmp.sort [] := (cmp.sort_of_sorted .nil).symm
  obtain ⟨hsorted, -, hdrains, -⟩ := priority_order_with_fair_ties cmp start [] rfl rfl hheld turns
  exact ⟨rfl, rfl, hheld, by decide, hsorted, hdrains⟩

end TrackedQueue

end TrackedFields
