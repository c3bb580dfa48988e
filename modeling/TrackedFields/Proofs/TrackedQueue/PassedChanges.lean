import TrackedFields.Proofs.TrackedQueue.Replacement
import TrackedFields.Proofs.TrackedQueue.SilentLoading

/-!
# What the calls of a supplied queue pass on

A call that removes or adds elements tells the owner what it takes out of memory or store, or puts
there, and passes the changes on to the store. Each call is looked at on a prepared queue first, and
from there carries over to any queue, since all of them but the removal of everything load first.
-/

namespace TrackedFields.TrackedQueue

variable {E : Type}

/-- A queue loads before it lists its elements. -/
theorem loadsFirst_toList : LoadsFirst (toList (E := E)) := loadsFirst_bind _

variable [DecidableEq E]

/-- A queue loads before it removes its head. -/
theorem loadsFirst_poll : LoadsFirst (poll (E := E)) := loadsFirst_bind _

/-- A queue loads before it looks for an element to remove. -/
theorem loadsFirst_removeWith (e : E) (cascade : Bool) : LoadsFirst (removeWith e cascade) :=
  loadsFirst_bind _

/-- A queue loads before it looks for listed elements to remove. -/
theorem loadsFirst_removeListed (doomed : List E) : LoadsFirst (removeListed doomed) :=
  loadsFirst_bind _

/-- A queue loads before it looks for elements not to keep. -/
theorem loadsFirst_retainAll (keep : List E) : LoadsFirst (retainAll keep) :=
  loadsFirst_toList.bind _

/-- A queue loads before it adds elements. -/
theorem loadsFirst_addUnchecked (operation : String)
    (store : ObjectId → Option Nat → StoreAction E Bool) (new : List E) :
    LoadsFirst (addUnchecked operation store new) := loadsFirst_bind _

variable {cmp : Comparator E} {o : Owner} {name : StoreName}
  {scene mid : Scene (TrackedQueue E) E}

/-! ### The head -/

/-- The head that a queue reports when it is removed: that in memory if changes are queued, and else
that of the store. -/
def headReported (o : Owner) (name : StoreName) (scene : Scene (TrackedQueue E) E) : Option E :=
  if scene.value.tracker.isQueued then (onceLoaded o name scene).head?
  else (held o name scene).head?

/-- What removing the head passes on to the store. A queue that queues its changes and knows that it
is empty passes nothing on. -/
def headRemoval (o : Owner) (name : StoreName) (scene : Scene (TrackedQueue E) E) :
    List (OperationKind E) :=
  if (headReported o name scene).isSome ||
      (scene.value.tracker.isQueued && !scene.value.content.useCache) then [.listRemoveAt 0]
  else []

omit [DecidableEq E] in
/-- The removal of the head removes nothing else by position. -/
theorem fromHead_headRemoval (o : Owner) (name : StoreName) (scene : Scene (TrackedQueue E) E) :
    ∀ kind ∈ headRemoval o name scene, kind.FromHead := by
  intro kind hkind
  unfold headRemoval at hkind
  split at hkind
  · exact .inr (List.mem_singleton.mp hkind)
  · cases hkind

/-- Loading does not change which head is reported. -/
theorem Loaded.headReported_eq (hmid : Loaded cmp o name scene mid)
    (h : Supplied cmp o name scene) : headReported o name mid = headReported o name scene := by
  unfold headReported
  rw [hmid.passes.tracker, hmid.onceLoaded_eq, hmid.held_eq h]

/-- Loading does not change what the removal of the head passes on to the store. -/
theorem Loaded.headRemoval_eq (hmid : Loaded cmp o name scene mid)
    (h : Supplied cmp o name scene) : headRemoval o name mid = headRemoval o name scene := by
  unfold headRemoval
  rw [hmid.passes.tracker, hmid.passes.useCache, hmid.headReported_eq h]

private theorem passes_poll_prepared (h : Supplied cmp o name scene)
    (hprepared : Prepared scene.value) :
    Passes o name ((headReported o name scene).toList.map .removed) (headRemoval o name scene)
      scene.value.content.elements.tail scene (stateAfter poll scene) := by
  have hload := hprepared.ensureLoaded_eq
  have hpart := h.isAuthoritative_eq hprepared
  have honce := h.onceLoaded_eq hprepared
  have hloaded := h.loaded hprepared
  have hfeeds := h.feeds
  have howner := h.owner
  have hcarries := Store.carries_removeAt_zero h.reliable o.id (hint scene.value)
  obtain ⟨⟨t, content⟩, s⟩ := scene
  dsimp only at hpart honce hloaded hfeeds howner ⊢
  obtain ⟨mid, hforward, hsends⟩ := Session.exists_forwarded howner hfeeds "poll"
    (Store.removeAt · 0 (hint ⟨t, content⟩)) hcarries
  unfold poll
  simp only [stateAfter, bind_apply, hload, current_apply, setElements_apply,
    forward_apply hforward, announce_apply, changed_apply, pure_apply, hpart]
  cases hqueued : t.isQueued with
  | true =>
    refine .reported hloaded hsends howner ?_ ?_
    · simp [headReported, hqueued, honce]
    · simp [headRemoval, headReported, hqueued, honce]
  | false =>
    refine .reported hloaded hsends howner ?_ ?_
    · simp [headReported, hqueued, held]
    · simp [headRemoval, headReported, hqueued, held]

/-- Removing the head reports what the queue takes for it. -/
theorem Supplied.passes_poll [Std.TransCmp cmp] (h : Supplied cmp o name scene) :
    Passes o name ((headReported o name scene).toList.map .removed) (headRemoval o name scene)
      (onceLoaded o name scene).tail scene (stateAfter poll scene) := by
  obtain ⟨mid, hmid⟩ := h.exists_loaded
  have hpasses := passes_poll_prepared hmid.supplied hmid.prepared
  rw [hmid.headReported_eq h, hmid.headRemoval_eq h, hmid.passes.elements] at hpasses
  exact hmid.lift loadsFirst_poll hpasses

/-! ### Elements by value -/

/-- The elements that a queue looks through for those to remove: what it has in memory, if it keeps
its content there, and else what the store holds, with what is in memory if changes wait there. -/
def candidates (o : Owner) (name : StoreName) (scene : Scene (TrackedQueue E) E) : List E :=
  if scene.value.content.useCache then onceLoaded o name scene
  else if scene.value.tracker.isQueued then held o name scene ++ onceLoaded o name scene
  else held o name scene

/-- Whether a queue finds an element that is to be removed by value: among the candidates if changes
are queued, and else in the store. -/
def finds (o : Owner) (name : StoreName) (scene : Scene (TrackedQueue E) E) (e : E) : Bool :=
  if scene.value.tracker.isQueued then (candidates o name scene).contains e
  else (held o name scene).contains e

/-- Loading does not change the candidates. -/
theorem Loaded.candidates_eq (hmid : Loaded cmp o name scene mid)
    (h : Supplied cmp o name scene) : candidates o name mid = candidates o name scene := by
  unfold candidates
  rw [hmid.passes.tracker, hmid.passes.useCache, hmid.onceLoaded_eq, hmid.held_eq h]

/-- Loading does not change whether an element is found. -/
theorem Loaded.finds_eq (hmid : Loaded cmp o name scene mid) (h : Supplied cmp o name scene)
    (e : E) : finds o name mid e = finds o name scene e := by
  unfold finds
  rw [hmid.passes.tracker, hmid.candidates_eq h, hmid.held_eq h]

omit [DecidableEq E] in
/-- The removal of an element by value, if it is not skipped, removes nothing by position. -/
theorem fromHead_removal (skipped : Bool) (e : E) (cascade : Bool) :
    ∀ kind ∈ if skipped then [] else [OperationKind.collectionRemove e cascade],
      kind.FromHead := by
  intro kind hkind
  split at hkind
  · cases hkind
  · rw [List.mem_singleton.mp hkind]
    exact .inl trivial

private theorem passes_removeWith_prepared (h : Supplied cmp o name scene)
    (hprepared : Prepared scene.value) (e : E) (cascade : Bool) :
    Passes o name (if finds o name scene e then [.removed e] else [])
      (if scene.value.tracker.isQueued && !finds o name scene e then []
        else [.collectionRemove e cascade])
      (scene.value.content.elements.erase e) scene (stateAfter (removeWith e cascade) scene) := by
  have hload := hprepared.ensureLoaded_eq
  have hpart := h.isAuthoritative_eq hprepared
  have honce := h.onceLoaded_eq hprepared
  have hloaded := h.loaded hprepared
  have hfeeds := h.feeds
  have howner := h.owner
  have hcarries := Store.carries_remove h.reliable o.id e (hint scene.value) cascade
  have hcontains := h.read_contains e
  obtain ⟨⟨t, content⟩, s⟩ := scene
  dsimp only at hpart honce hloaded hfeeds howner hcontains ⊢
  unfold removeWith
  simp only [stateAfter, bind_apply, hload, current_apply, hpart]
  cases hqueued : t.isQueued with
  | false =>
    have hfound : finds o name ⟨⟨t, content⟩, s⟩ e =
        ((s.store name).contents o.id).contains e := by
      rw [finds, hqueued]
      rfl
    obtain ⟨mid, hforward, hsends⟩ := Session.exists_forwarded howner hfeeds "remove"
      (Store.remove · e (hint ⟨t, content⟩) cascade) hcarries
    simp only [Bool.not_false, Bool.or_true, if_true, bind_apply, pure_apply, setElements_apply,
      forward_apply hforward, announce_apply, changed_apply, hfound]
    exact .reported hloaded hsends howner (by simp [hqueued]) (by simp [hqueued])
  | true =>
    have hname := hfeeds.queued hqueued
    by_cases hknown : (content.elements.contains e || content.useCache) = true
    · -- The memory tells whether the element is there.
      have hfound : finds o name ⟨⟨t, content⟩, s⟩ e = content.elements.contains e := by
        unfold finds candidates
        rw [honce]
        cases huse : content.useCache with
        | true => simp [hqueued]
        | false =>
          rw [huse, Bool.or_false] at hknown
          simp [hqueued, List.contains_iff_mem.mp hknown]
      simp only [hknown, Bool.true_or, if_true, bind_apply, pure_apply, setElements_apply,
        forward_queued hname, announce_apply, changed_apply, hfound]
      refine .reported hloaded (.refl t o name s) howner rfl ?_
      cases content.elements.contains e <;> simp [hqueued]
    · obtain ⟨hmem, huse⟩ := Bool.or_eq_false_iff.mp (Bool.eq_false_iff.mpr hknown)
      obtain ⟨s', hread, hsends⟩ := hcontains huse
      have hfound : finds o name ⟨⟨t, content⟩, s⟩ e =
          (held o name ⟨⟨t, content⟩, s⟩).contains e := by
        have habsent : e ∉ content.elements := by simpa using hmem
        simp [finds, candidates, huse, hqueued, honce, habsent]
      simp only [hknown, Bool.or_false, Bool.not_true, Bool.false_eq_true, if_false, bind_apply,
        hread, pure_apply, setElements_apply, forward_queued hname, announce_apply, changed_apply,
        hfound]
      refine .reported hloaded hsends howner rfl ?_
      cases (held o name ⟨⟨t, content⟩, s⟩).contains e <;> simp [hqueued]

/-- Removing an element by value reports it if the queue finds it. -/
theorem Supplied.passes_removeWith [Std.TransCmp cmp] (h : Supplied cmp o name scene) (e : E)
    (cascade : Bool) :
    Passes o name (if finds o name scene e then [.removed e] else [])
      (if scene.value.tracker.isQueued && !finds o name scene e then []
        else [.collectionRemove e cascade])
      ((onceLoaded o name scene).erase e) scene (stateAfter (removeWith e cascade) scene) := by
  obtain ⟨mid, hmid⟩ := h.exists_loaded
  have hpasses := passes_removeWith_prepared hmid.supplied hmid.prepared e cascade
  rw [hmid.finds_eq h, hmid.passes.tracker, hmid.passes.elements] at hpasses
  exact hmid.lift (loadsFirst_removeWith e cascade) hpasses

private theorem passes_removeListed_prepared (h : Supplied cmp o name scene)
    (hprepared : Prepared scene.value) (doomed : List E) :
    let copies := (candidates o name scene).filter doomed.contains
    Passes o name (copies.map .removed) (copies.map (.collectionRemove · true))
      (scene.value.content.elements.filter fun e => !doomed.contains e) scene
      (stateAfter (removeListed doomed) scene) := by
  have hload := hprepared.ensureLoaded_eq
  have hpart := h.isAuthoritative_eq hprepared
  have honce := h.onceLoaded_eq hprepared
  have hloaded := h.loaded hprepared
  have hfeeds := h.feeds
  have howner := h.owner
  have hreliable := h.reliable
  have hread := h.read_elements fun _ => []
  obtain ⟨⟨t, content⟩, s⟩ := scene
  dsimp only at hpart honce hloaded hfeeds howner hreliable ⊢
  unfold candidates
  rw [honce]
  dsimp only
  have hreported (copies : List E) (looked : Session E)
      (hlooked : Session.Sends t o name [] [] s looked) :
      ∃ forwarded mid, t.forward "remove-all" (Store.removeAll · copies (hint ⟨t, content⟩))
          (t.announce (.removed copies true) looked) = (forwarded, mid) ∧
        Session.Sends t o name (copies.map .removed) (copies.map (.collectionRemove · true)) s
          (t.changed mid) := by
    obtain ⟨forwarded, mid, hforward, hsends⟩ := Session.exists_reported looked
      (.removed copies true) howner hfeeds "remove-all"
      (Store.removeAll · copies (hint ⟨t, content⟩)) rfl
      (Store.carries_removeAll (hlooked.continues.reliable hreliable) o.id copies _)
    exact ⟨forwarded, mid, hforward, hlooked.trans hsends⟩
  unfold removeListed
  cases huse : content.useCache with
  | true =>
    rw [huse] at hpart
    rw [if_pos rfl]
    obtain ⟨forwarded, mid, hforward, hsends⟩ :=
      hreported (content.elements.filter doomed.contains) s (.refl t o name s)
    rcases hfeeds with hname | hname
    all_goals
      simp only [stateAfter, bind_apply, hload, current_apply, hpart, if_true, pure_apply,
        setElements_apply, hname, List.filter_nil, List.nil_append, announce_apply,
        forward_apply hforward, changed_apply]
      exact ⟨rfl, rfl, rfl, hloaded, rfl, hsends⟩
  | false =>
    rw [huse] at hpart
    obtain ⟨looked, hlook, hlooked⟩ := hread
    obtain ⟨forwarded, mid, hforward, hsends⟩ := hreported
      ((if t.isQueued then held o name ⟨⟨t, content⟩, s⟩ ++ content.elements
        else held o name ⟨⟨t, content⟩, s⟩).filter doomed.contains) looked hlooked
    rcases hfeeds with hname | hname
    all_goals
      simp only [Tracker.isQueued, hname, Bool.false_eq_true, if_false, if_true,
        List.filter_append] at hforward
      simp only [stateAfter, bind_apply, hload, current_apply, hpart, Bool.false_eq_true, if_false,
        hlook, setElements_apply, hname, announce_apply, forward_apply hforward, changed_apply,
        pure_apply]
      exact ⟨rfl, rfl, rfl, hloaded, rfl, hsends⟩

/-- Removing listed elements reports all copies of them among the candidates. -/
theorem Supplied.passes_removeListed [Std.TransCmp cmp] (h : Supplied cmp o name scene)
    (doomed : List E) :
    let copies := (candidates o name scene).filter doomed.contains
    Passes o name (copies.map .removed) (copies.map (.collectionRemove · true))
      ((onceLoaded o name scene).filter fun e => !doomed.contains e) scene
      (stateAfter (removeListed doomed) scene) := by
  obtain ⟨mid, hmid⟩ := h.exists_loaded
  have hpasses := passes_removeListed_prepared hmid.supplied hmid.prepared doomed
  rw [hmid.candidates_eq h, hmid.passes.elements] at hpasses
  exact hmid.lift (loadsFirst_removeListed doomed) hpasses

private theorem toList_prepared (h : Supplied cmp o name scene)
    (hprepared : Prepared scene.value) :
    ∃ s, toList scene =
        .ok (if scene.value.content.useCache then scene.value.content.elements
          else held o name scene) { scene with session := s } ∧
      Session.Sends scene.value.tracker o name [] [] scene.session s := by
  have hlist : toList scene = readEither (!scene.value.content.useCache) Store.elements
      QueueContent.elements scene := by
    unfold toList
    rw [bind_apply, hprepared.ensureLoaded_eq]
    rfl
  rw [hlist]
  cases huse : scene.value.content.useCache with
  | true =>
    refine ⟨scene.session, ?_, .refl _ o name scene.session⟩
    rw [readEither_of_channel h.channel]
    rfl
  | false => exact h.read_elements QueueContent.elements

private theorem passes_retainAll_prepared [Std.TransCmp cmp] (h : Supplied cmp o name scene)
    (hprepared : Prepared scene.value) (keep : List E) :
    let copies := (candidates o name scene).filter fun e => !keep.contains e
    Passes o name (copies.map .removed) (copies.map (.collectionRemove · true))
      (scene.value.content.elements.filter fun e => !copies.contains e) scene
      (stateAfter (retainAll keep) scene) := by
  obtain ⟨looked, hlist, hsends⟩ := toList_prepared h hprepared
  have hpart := h.isAuthoritative_eq hprepared
  let mid : Scene (TrackedQueue E) E := { scene with session := looked }
  have hlooked : Passes o name [] [] scene.value.content.elements scene mid :=
    ⟨rfl, rfl, rfl, h.loaded hprepared, rfl, hsends⟩
  have hmid : Supplied cmp o name mid := hlooked.supplied h nofun
  have hheld : held o name mid = held o name scene := hsends.contents_eq h.feeds
  have hcandidates : candidates o name mid = candidates o name scene := by
    unfold candidates onceLoaded
    rw [hheld]
  have hall : (if scene.value.content.useCache then scene.value.content.elements
      else held o name scene) ++ (if scene.value.tracker.isQueued && !scene.value.isAuthoritative
        then scene.value.content.elements else []) = candidates o name scene := by
    rw [hpart]
    unfold candidates
    rw [h.onceLoaded_eq hprepared]
    cases scene.value.content.useCache <;> cases scene.value.tracker.isQueued <;> simp
  have hremoved := passes_removeListed_prepared hmid hprepared
    ((candidates o name scene).filter fun e => !keep.contains e)
  rw [hcandidates, filter_contains_filter] at hremoved
  unfold retainAll
  simp only [stateAfter, bind_apply, hlist, current_apply, hall]
  by_cases hempty : ((candidates o name scene).filter fun e => !keep.contains e).isEmpty = true
  · rw [if_pos hempty, List.isEmpty_iff.mp hempty]
    refine ⟨rfl, rfl, rfl, h.loaded hprepared, (List.filter_eq_self.mpr fun e _ => ?_).symm, hsends⟩
    rfl
  · rw [if_neg hempty]
    exact hlooked.trans hremoved

/-- Keeping listed elements reports all copies of the others among the candidates. -/
theorem Supplied.passes_retainAll [Std.TransCmp cmp] (h : Supplied cmp o name scene)
    (keep : List E) :
    let copies := (candidates o name scene).filter fun e => !keep.contains e
    Passes o name (copies.map .removed) (copies.map (.collectionRemove · true))
      ((onceLoaded o name scene).filter fun e => !copies.contains e) scene
      (stateAfter (retainAll keep) scene) := by
  obtain ⟨mid, hmid⟩ := h.exists_loaded
  have hpasses := passes_retainAll_prepared hmid.supplied hmid.prepared keep
  rw [hmid.candidates_eq h, hmid.passes.elements] at hpasses
  exact hmid.lift (loadsFirst_retainAll keep) hpasses

/-! ### Everything -/

/-- Removing everything reports the elements in memory, whether they were loaded or not. -/
theorem Supplied.passes_clear (h : Supplied cmp o name scene) :
    Passes o name (scene.value.content.elements.map .removed) [.collectionClear] [] scene
      (stateAfter clear scene) := by
  have hfeeds := h.feeds
  have howner := h.owner
  have hreliable := h.reliable
  obtain ⟨⟨t, content⟩, s⟩ := scene
  let report : Report E := .cleared content.elements
  let content' : QueueContent E := { content with
    elements := []
    loaded := content.loaded || content.useCache }
  obtain ⟨forwarded, mid, hforward, hsends⟩ := Session.exists_reported s report howner hfeeds
    "clear" Store.clear rfl (Store.carries_clear hreliable o.id)
  have hrun : clear ⟨⟨t, content⟩, s⟩ = .ok () ⟨⟨t, content'⟩, t.changed mid⟩ := by
    change (discard (forward "clear" Store.clear) >>= fun _ => changed)
      (⟨⟨t, content'⟩, t.announce report s⟩ : Scene _ E) = _
    rw [bind_apply, discard_apply, forward_apply hforward]
    rfl
  rw [stateAfter_of_ok hrun]
  refine ⟨rfl, rfl, rfl, fun huse => ?_, rfl, hsends⟩
  change (content.loaded || content.useCache) = true
  rw [huse, Bool.or_true]

/-! ### Adding -/

/-- What adding elements without a check makes of a prepared queue, whatever becomes of the
store. -/
theorem stateAfter_addUnchecked {t : Tracker} {content : QueueContent E}
    (hprepared : Prepared ⟨t, content⟩) (operation : String)
    (store : ObjectId → Option Nat → StoreAction E Bool) (new : List E) (s : Session E) :
    stateAfter (addUnchecked operation store new) ⟨⟨t, content⟩, s⟩ =
      ⟨⟨t, { content with elements := content.order.insertAll content.elements new }⟩,
        t.changed (t.announce (.added new)
          (t.forward operation (store · (hint ⟨t, content⟩)) s).2)⟩ := by
  have hload : ensureLoaded ⟨⟨t, content⟩, s⟩ = .ok () ⟨⟨t, content⟩, s⟩ :=
    Prepared.ensureLoaded_eq hprepared
  rcases hforward : t.forward operation (store · (hint ⟨t, content⟩)) s with ⟨forwarded, called⟩
  unfold addUnchecked
  simp only [stateAfter, bind_apply, hload, current_apply, forward_apply hforward,
    setElements_apply, announce_apply, changed_apply, pure_apply]

private theorem passes_addUnchecked_prepared (h : Supplied cmp o name scene)
    (hprepared : Prepared scene.value) (operation : String)
    {store : ObjectId → Option Nat → StoreAction E Bool} {new : List E} {answer : Bool}
    (hstore : (scene.session.store name).Carries o.id (store o.id (hint scene.value)) answer
      (new.map .collectionAdd)) :
    Passes o name (new.map .added) (new.map .collectionAdd)
      (cmp.insertAll scene.value.content.elements new) scene
      (stateAfter (addUnchecked operation store new) scene) := by
  have hloaded := h.loaded hprepared
  have hfeeds := h.feeds
  have howner := h.owner
  have horder := h.order
  obtain ⟨⟨t, content⟩, s⟩ := scene
  dsimp only at hloaded hfeeds howner horder ⊢
  subst horder
  obtain ⟨mid, hforward, hsends⟩ := Session.exists_forwarded howner hfeeds operation
    (store · (hint ⟨t, content⟩)) hstore
  rw [stateAfter_addUnchecked hprepared, hforward]
  refine .reported hloaded hsends howner rfl ?_
  cases hqueued : t.isQueued with
  | true => simp [Report.added]
  | false => simp

/-- Adding elements without a check reports them, if the store of the loaded queue carries the
additions out. -/
theorem Supplied.passes_addUnchecked [Std.TransCmp cmp] (h : Supplied cmp o name scene)
    (operation : String) (store : ObjectId → Option Nat → StoreAction E Bool) (new : List E)
    {answer : Bool}
    (hstore : ∀ mid, Loaded cmp o name scene mid → (mid.session.store name).Carries o.id
      (store o.id (hint mid.value)) answer (new.map .collectionAdd)) :
    Passes o name (new.map .added) (new.map .collectionAdd)
      (cmp.insertAll (onceLoaded o name scene) new) scene
      (stateAfter (addUnchecked operation store new) scene) := by
  obtain ⟨mid, hmid⟩ := h.exists_loaded
  have hpasses := passes_addUnchecked_prepared hmid.supplied hmid.prepared operation
    (hstore mid hmid)
  rw [hmid.passes.elements] at hpasses
  exact hmid.lift (loadsFirst_addUnchecked _ _ _) hpasses

/-- Additions that are made on a loaded queue are carried out by its store, as long as the queue
stays countable. -/
theorem Loaded.carries_addAll (hmid : Loaded cmp o name scene mid) {new : List E}
    {operation : String} (hcount : (stateAfter
      (addUnchecked operation (Store.addAll · new ·) new) scene).value.content.elements.length ≤
        Word.sizeLimit) :
    (mid.session.store name).Carries o.id (Store.addAll o.id new (hint mid.value)) (!new.isEmpty)
      (new.map .collectionAdd) := by
  refine Store.carries_addAll hmid.supplied.reliable o.id new _ fun size hsize => ?_
  have hprepared := hmid.prepared
  rw [hmid.same (loadsFirst_addUnchecked _ _ _)] at hcount
  clear hmid
  obtain ⟨⟨t, content⟩, s⟩ := mid
  rw [stateAfter_addUnchecked hprepared, (Comparator.insertAll_perm _ _ _).length_eq,
    List.length_append] at hcount
  unfold hint at hsize
  split at hsize
  · rw [← Option.some.inj hsize]
    exact hcount
  · cases hsize

/-! ### Replacing -/

omit [DecidableEq E] in
/-- A replacement removes nothing by position. -/
theorem fromHead_replacing (new : List E) : ∀ kind ∈ replacing new, kind.FromHead := by
  intro kind hkind
  rcases List.mem_cons.mp hkind with rfl | hkind
  · exact .inl trivial
  · exact OperationKind.fromHead_map .collectionAdd (fun _ => trivial) new kind hkind

/-- A replacement passes on that the store is cleared and the new elements are added. -/
theorem sends_replaced {q : TrackedQueue E} {s : Session E} {new : List E}
    (howner : q.tracker.owner = some o) (hfeeds : q.tracker.Feeds name)
    (hreliable : (s.store name).Reliable) (hcount : new.length ≤ Word.sizeLimit) :
    Session.Sends q.tracker o name [] (replacing new) s (replaced q new s) := by
  have hqueue := Session.Sends.enqueue q.tracker o name (replacing new) s
  obtain ⟨mid, hclear, hcleared⟩ := Session.exists_forwarded howner hfeeds "clear" Store.clear
    (Store.carries_clear (hqueue.continues.reliable hreliable) o.id)
  have hboth := hqueue.trans hcleared
  obtain ⟨after, hadd, hadded⟩ := Session.exists_forwarded howner hfeeds "add-all"
    (Store.addAll · new (if q.content.useCache then some 0 else none))
    (Store.carries_addAll (hboth.continues.reliable hreliable) o.id new _ fun size hsize => by
      split at hsize
      · rwa [← Option.some.inj hsize, Nat.zero_add]
      · cases hsize)
  have hafter : replaced q new s = after := by
    unfold replaced
    dsimp only
    rw [hclear]
    dsimp only
    rw [hadd]
  have hall := hboth.trans hadded
  rw [hafter]
  cases hqueued : q.tracker.isQueued with
  | true => simpa [hqueued] using hall
  | false => simpa [hqueued, replacing] using hall

/-- Replacing the value passes the replacement on, if it is written to the store, and tells
nothing. -/
theorem Supplied.passes_initialiseWith (h : Supplied cmp o name scene) {new : List E}
    (hcount : new.length ≤ Word.sizeLimit)
    (hreaches : replacementReachesStore scene.value scene.session = true) :
    Passes o name [] (replacing new) (cmp.sort new) scene
      (stateAfter (initialiseWith new) scene) := by
  have hsends := (sends_replaced h.owner h.feeds h.reliable hcount).trans
    (.markDirty scene.value.tracker o name _)
  rw [List.append_nil, List.append_nil] at hsends
  rw [stateAfter_of_ok (initialiseWith_apply new scene), if_pos hreaches]
  exact ⟨rfl, rfl, rfl, fun _ => rfl, congrArg (Comparator.sort · new) h.order, hsends⟩

end TrackedFields.TrackedQueue
