import TrackedFields.Proofs.Tracked.HarmlessAttach
import TrackedFields.Proofs.Tracked.Told
import TrackedFields.Proofs.TrackedQueue.Requests

/-!
# What changes of a queue tell

A queue that holds all its elements in memory, and makes no changes in a store right away, serves
every request from memory. What it looks up leaves it alone; what it changes it tells once, and the
report is exact.
-/

namespace TrackedFields.TrackedQueue

open Tracked (Told)

variable {E α : Type} [DecidableEq E] {t : Tracker} {content : QueueContent E} {s : Session E}

/-- A queue that holds all its elements in memory and makes no changes in a store right away. -/
structure Apart (q : TrackedQueue E) : Prop where
  whole : q.isAuthoritative = true
  later : ∀ name, q.tracker.dispatch ≠ .immediate name

omit [DecidableEq E] in
private theorem Apart.ensureLoaded_eq (h : Apart ⟨t, content⟩) (s : Session E) :
    ensureLoaded ⟨⟨t, content⟩, s⟩ = .ok () ⟨⟨t, content⟩, s⟩ :=
  Prepared.ensureLoaded_eq fun _ => h.whole

omit [DecidableEq E] in
private theorem Apart.useCache (h : Apart ⟨t, content⟩) (hstore : hasStore ⟨t, content⟩ = true) :
    (!content.useCache) = false := by
  have hwhole := h.whole
  unfold isAuthoritative at hwhole
  rw [hstore] at hwhole
  rw [(Bool.and_eq_true_iff.mp hwhole).1]
  rfl

omit [DecidableEq E] in
private theorem Apart.read_eq (h : Apart ⟨t, content⟩) (action : ObjectId → StoreAction E α)
    (fromMemory : QueueContent E → α) (s : Session E) :
    (do
      ensureLoaded
      readEither (!(← Tracked.content?).useCache) action fromMemory : Action E α)
        ⟨⟨t, content⟩, s⟩ = .ok (fromMemory content) ⟨⟨t, content⟩, s⟩ := by
  rw [bind_apply, h.ensureLoaded_eq s]
  exact readEither_of_memory h.useCache action fromMemory

omit [DecidableEq E] in
private theorem Apart.look_eq (h : Apart ⟨t, content⟩) (action : ObjectId → StoreAction E α)
    (fromMemory : QueueContent E → α) (s : Session E) :
    (do readEither (!(← current).isAuthoritative) action fromMemory : Action E α)
        ⟨⟨t, content⟩, s⟩ = .ok (fromMemory content) ⟨⟨t, content⟩, s⟩ := by
  refine readEither_of_memory (fun _ => ?_) action fromMemory
  rw [h.whole]
  rfl

omit [DecidableEq E] in
private theorem Apart.toList_eq (h : Apart ⟨t, content⟩) (s : Session E) :
    toList ⟨⟨t, content⟩, s⟩ = .ok content.elements ⟨⟨t, content⟩, s⟩ :=
  h.read_eq Store.elements _ s

omit [DecidableEq E] in
private theorem Apart.length_eq (h : Apart ⟨t, content⟩) (s : Session E) :
    length ⟨⟨t, content⟩, s⟩ = .ok content.elements.length ⟨⟨t, content⟩, s⟩ :=
  h.look_eq Store.size _ s

omit [DecidableEq E] in
private theorem Apart.forward_eq (h : Apart ⟨t, content⟩) (operation : String)
    (action : ObjectId → StoreAction E α) (s : Session E) :
    t.forward operation action s = (.skipped, s) := by
  rcases t.forward_cases s operation action with hskipped | ⟨name, o, hname, -⟩
  · exact hskipped
  · exact absurd hname (h.later name)

/-! ### Changing -/

private theorem Apart.told_poll (h : Apart ⟨t, content⟩) (s : Session E) :
    Told QueueContent.elements true ⟨⟨t, content⟩, s⟩ (stateAfter poll ⟨⟨t, content⟩, s⟩) := by
  have hforward := h.forward_eq "poll" (Store.removeAt · 0 (hint ⟨t, content⟩)) s
  unfold stateAfter poll
  simp only [bind_apply, h.ensureLoaded_eq s, current_apply, setElements_apply,
    forward_apply hforward, announce_apply, changed_apply, pure_apply, h.whole]
  apply Told.change
  cases hheld : content.elements with
  | nil => exact Report.exact_of_gentle (fun _ _ he => he) rfl (by simp)
  | cons e es =>
    have hothers : ∀ a ∈ e :: es, a = e ∨ a ∈ es := fun a => List.mem_cons.mp
    have hchange : (OperationKind.listRemoveAt 0).change (e :: es) =
        some (es, if true then [e] else []) := rfl
    refine Report.exact_of_departure List.mem_cons_self hothers hchange ?_ rfl
    change [e].filter (fun a => !es.contains a) = if !es.contains e then [e] else []
    by_cases hkept : e ∈ es <;> simp [hkept]

private theorem Apart.told_removeWith (h : Apart ⟨t, content⟩) (e : E) (cascade : Bool)
    (s : Session E) :
    Told QueueContent.elements cascade ⟨⟨t, content⟩, s⟩
      (stateAfter (removeWith e cascade) ⟨⟨t, content⟩, s⟩) := by
  have hforward := h.forward_eq "remove" (Store.remove · e (hint ⟨t, content⟩) cascade) s
  unfold stateAfter removeWith
  simp only [bind_apply, h.ensureLoaded_eq s, current_apply, h.whole, Bool.or_true, Bool.true_or,
    if_true, setElements_apply, forward_apply hforward, announce_apply, changed_apply, pure_apply]
  apply Told.change
  by_cases hmem : content.elements.contains e = true
  · have hothers : ∀ a ∈ content.elements, a = e ∨ a ∈ content.elements.erase e := fun a ha =>
      (Decidable.em (a = e)).imp_right fun hne => (List.mem_erase_of_ne hne).mpr ha
    have hchange : (OperationKind.collectionRemove e cascade).change content.elements =
        some (content.elements.erase e, if cascade then [e] else []) := by
      rw [OperationKind.change, if_pos hmem]
    rw [hmem]
    exact Report.exact_of_departure (List.contains_iff_mem.mp hmem) hothers hchange rfl rfl
  · have hsame : content.elements.erase e = content.elements :=
      List.erase_of_not_mem (by simpa using hmem)
    rw [Bool.eq_false_iff.mpr hmem, hsame]
    exact Report.exact_of_gentle (fun _ _ he => he) rfl (by simp)

private theorem Apart.told_removeListed (h : Apart ⟨t, content⟩) (doomed : List E)
    (s : Session E) :
    Told QueueContent.elements true ⟨⟨t, content⟩, s⟩
      (stateAfter (removeListed doomed) ⟨⟨t, content⟩, s⟩) := by
  have hforward := h.forward_eq "remove-all"
    (Store.removeAll · (content.elements.filter doomed.contains) (hint ⟨t, content⟩))
  unfold stateAfter removeListed
  cases hdispatch : t.dispatch with
  | immediate name => exact absurd hdispatch (h.later name)
  | _ =>
    simp only [bind_apply, h.ensureLoaded_eq s, current_apply, h.whole, if_true, pure_apply,
      setElements_apply, hdispatch, List.filter_nil, List.nil_append, announce_apply,
      forward_apply (hforward _), changed_apply]
    exact .change (Report.exact_filtered doomed.contains content.elements)

private theorem Apart.told_retainAll (h : Apart ⟨t, content⟩) (keep : List E) (s : Session E) :
    Told QueueContent.elements true ⟨⟨t, content⟩, s⟩
      (stateAfter (retainAll keep) ⟨⟨t, content⟩, s⟩) := by
  unfold retainAll
  simp only [stateAfter_bind, h.toList_eq s, current_apply, h.whole, Bool.not_true, Bool.and_false,
    Bool.false_eq_true, if_false, List.append_nil]
  split
  · exact .nothing
  · exact h.told_removeListed _ s

private theorem Apart.told_clear (h : Apart ⟨t, content⟩) (s : Session E) :
    Told QueueContent.elements true ⟨⟨t, content⟩, s⟩ (stateAfter clear ⟨⟨t, content⟩, s⟩) := by
  have hforward := h.forward_eq "clear" Store.clear (t.announce (.cleared content.elements) s)
  have hclear : clear ⟨⟨t, content⟩, s⟩ = .ok () {
      value := { tracker := t, content := { content with
        elements := []
        loaded := content.loaded || content.useCache } }
      session := t.changed (t.announce (.cleared content.elements) s) } := by
    change (discard (TrackedQueue.forward "clear" Store.clear) >>= fun _ => changed)
      (⟨⟨t, _⟩, _⟩ : Scene _ E) = _
    rw [bind_apply, discard_apply, forward_apply hforward]
    rfl
  rw [stateAfter_of_ok hclear]
  exact .change (Report.exact_cleared fun _ => .rfl)

private theorem Apart.told_addUnchecked (h : Apart ⟨t, content⟩) (operation : String)
    (store : ObjectId → Option Nat → StoreAction E Bool) (new : List E) (s : Session E) :
    Told QueueContent.elements true ⟨⟨t, content⟩, s⟩
      (stateAfter (addUnchecked operation store new) ⟨⟨t, content⟩, s⟩) := by
  have hforward := h.forward_eq operation (store · (hint ⟨t, content⟩)) s
  unfold stateAfter addUnchecked
  simp only [bind_apply, h.ensureLoaded_eq s, current_apply, forward_apply hforward,
    setElements_apply, announce_apply, changed_apply, pure_apply]
  apply Told.change
  apply Report.exact_of_gentle _ rfl (Report.gentle_added new)
  intro _ e he
  exact (content.order.insertAll_perm _ new).mem_iff.mpr (List.mem_append_left _ he)

private theorem told_require {checked : Except Failure Unit} {next : Unit → Action E α}
    {scene : Scene (TrackedQueue E) E}
    (h : Told QueueContent.elements true scene (stateAfter (next ()) scene)) :
    Told QueueContent.elements true scene
      (stateAfter (Tracked.require checked >>= next) scene) := by
  cases checked with
  | ok answer => exact h
  | error failure => exact .nothing

end TrackedFields.TrackedQueue

namespace TrackedFields.QueueRequest

open Tracked (Told)
open TrackedQueue (Apart)

variable {E α : Type}

/-- Whether a request may delete records. -/
def cascades : QueueRequest E α → Bool
  | removeWith _ cascade => cascade
  | attachCopy _ => false
  | _ => true

/-- Whether a request takes over a value from outside the session. -/
def attaches : QueueRequest E α → Bool
  | attachCopy _ => true
  | _ => false

/-- Whether a request only looks at a queue. -/
def looks : QueueRequest E α → Bool
  | peek | length | isEmpty | contains _ | containsAll _ | toList | snapshot => true
  | _ => false

variable [DecidableEq E] [Element E]

/-- A queue that holds all its elements in memory and makes no changes in a store right away is left
alone by requests that only look at it. -/
theorem quiet {scene : Scene (TrackedQueue E) E} (h : Apart scene.value)
    (request : QueueRequest E α) (hlooks : request.looks = true) :
    stateAfter request.run scene = scene := by
  obtain ⟨⟨t, content⟩, s⟩ := scene
  cases request with
  | peek => exact stateAfter_of_ok (h.read_eq (Store.get · 0) _ s)
  | length => exact stateAfter_of_ok (h.length_eq s)
  | isEmpty =>
    have hempty : TrackedQueue.isEmpty ⟨⟨t, content⟩, s⟩ =
        .ok (content.elements.length == 0) ⟨⟨t, content⟩, s⟩ := by
      rw [TrackedQueue.isEmpty, bind_apply, h.length_eq s]
      rfl
    exact stateAfter_of_ok hempty
  | contains e => exact stateAfter_of_ok (h.look_eq (Store.contains · e) _ s)
  | containsAll wanted =>
    have hall : TrackedQueue.containsAll wanted ⟨⟨t, content⟩, s⟩ =
        .ok (wanted.all content.elements.contains) ⟨⟨t, content⟩, s⟩ := by
      rw [TrackedQueue.containsAll, bind_apply, h.toList_eq s]
      rfl
    exact stateAfter_of_ok hall
  | toList => exact stateAfter_of_ok (h.toList_eq s)
  | snapshot =>
    have hsorted : TrackedQueue.snapshot ⟨⟨t, content⟩, s⟩ =
        .ok (content.order.sort content.elements) ⟨⟨t, content⟩, s⟩ := by
      rw [TrackedQueue.snapshot, bind_apply, h.toList_eq s]
      rfl
    exact stateAfter_of_ok hsorted
  | _ => cases hlooks

/-- Of a queue that holds all its elements in memory and makes no changes in a store right away,
every request but an attachment tells exactly what it loses. -/
theorem told {scene : Scene (TrackedQueue E) E} (h : Apart scene.value)
    (request : QueueRequest E α) (hattaches : request.attaches = false) :
    Told QueueContent.elements request.cascades scene (stateAfter request.run scene) := by
  by_cases hlooks : request.looks = true
  · rw [request.quiet h hlooks]
    exact .nothing
  obtain ⟨⟨t, content⟩, s⟩ := scene
  cases request with
  | add e => exact TrackedQueue.told_require (h.told_addUnchecked "add" (Store.add · e ·) [e] s)
  | addAll new =>
    apply TrackedQueue.told_require
    change Told _ _ _ (stateAfter (if new.isEmpty then pure false else _) _)
    split
    · exact .nothing
    · exact h.told_addUnchecked "add-all" (Store.addAll · new ·) new s
  | poll => exact h.told_poll s
  | remove e => exact h.told_removeWith e true s
  | removeWith e cascade => exact h.told_removeWith e cascade s
  | removeAll doomed =>
    change Told _ _ _ (stateAfter (if doomed.isEmpty then pure false else _) _)
    split
    · exact .nothing
    · exact h.told_removeListed doomed s
  | retainAll keep => exact h.told_retainAll keep s
  | clear => exact h.told_clear s
  | attachCopy target => cases hattaches
  | _ => exact absurd rfl hlooks

end TrackedFields.QueueRequest
