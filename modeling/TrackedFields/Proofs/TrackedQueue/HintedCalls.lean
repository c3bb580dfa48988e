import TrackedFields.Proofs.Store.SizeHints
import TrackedFields.Proofs.Tracked.Reconcile
import TrackedFields.Proofs.Tracked.Unaltered
import TrackedFields.Proofs.TrackedQueue.ExactRelations
import TrackedFields.Proofs.TrackedQueue.Snapshots

/-!
# The calls that a queue makes of its store

A loaded priority queue that keeps its content in memory and makes its changes right away tells its
store, with each single addition and removal, how many elements it has in memory. Here it is said of
each of its calls which single calls of the store come of it, with which sizes, and what the queue
has in memory afterwards. The store is left as these single calls make it.
-/

namespace TrackedFields

/-- The calls of a store between two moments. -/
def Session.callsSince {E : Type} (s : Session E) (name : StoreName) (after : Session E) :
    List (StoreCall E) := (after.store name).calls.drop (s.store name).calls.length

namespace TrackedQueue

variable {E : Type} [DecidableEq E] {o : Owner} {name : StoreName} {t : Tracker}
  {content : QueueContent E} {s session : Session E} {calls more : List (StoreCall E)}
  {es next : List E} {scene mid after : Scene (TrackedQueue E) E}

/-- A queue that makes its changes right away in a reliable store, and that has loaded the content
that it keeps in memory. -/
structure Hinting (o : Owner) (name : StoreName) (scene : Scene (TrackedQueue E) E) : Prop where
  owner : scene.value.tracker.owner = some o
  dispatch : scene.value.tracker.dispatch = .immediate name
  useCache : scene.value.content.useCache = true
  loaded : scene.value.content.loaded = true
  reliable : (scene.session.store name).Reliable

/-- Between two moments, a queue made some calls of its store, and then has some elements in
memory. -/
structure Sent (o : Owner) (name : StoreName) (calls : List (StoreCall E)) (es : List E)
    (scene after : Scene (TrackedQueue E) E) : Prop where
  tracker : after.value.tracker = scene.value.tracker
  content : after.value.content = { scene.value.content with elements := es }
  store : after.session.store name = (scene.session.store name).remade o.id calls

namespace Sent

/-- A queue that is left alone makes no calls. -/
theorem refl (o : Owner) (name : StoreName) (scene : Scene (TrackedQueue E) E) :
    Sent o name [] scene.value.content.elements scene scene := ⟨rfl, rfl, rfl⟩

/-- A queue makes its calls one after the other. -/
theorem trans (h : Sent o name calls es scene mid) (h' : Sent o name more next mid after) :
    Sent o name (calls ++ more) next scene after := by
  refine ⟨h'.tracker.trans h.tracker, ?_, ?_⟩
  · rw [h'.content, h.content]
  · rw [h'.store, h.store, Store.remade_append]

/-- What is reported of a change makes no calls. -/
theorem reported (report : Report E)
    (hstore : session.store name = (s.store name).remade o.id calls) :
    Sent o name calls es ⟨⟨t, content⟩, s⟩
      ⟨⟨t, { content with elements := es }⟩, t.changed (t.announce report session)⟩ := by
  refine ⟨rfl, rfl, Eq.trans ?_ hstore⟩
  exact Session.store_of_stores_eq
    ((Tracker.stores_changed _ _).trans (Tracker.stores_announce _ _ report)) name

/-- The elements that a queue has in memory after some calls. -/
theorem elements (h : Sent o name calls es scene after) : after.value.content.elements = es := by
  rw [h.content]

/-- Whatever calls a queue makes, it goes on to tell its size. -/
theorem hinting (h : Sent o name calls es scene after) (hscene : Hinting o name scene) :
    Hinting o name after := by
  obtain ⟨htracker, hcontent, hstore⟩ := h
  refine ⟨?_, ?_, ?_, ?_, ?_⟩
  · rw [htracker, hscene.owner]
  · rw [htracker, hscene.dispatch]
  · rw [hcontent, ← hscene.useCache]
  · rw [hcontent, ← hscene.loaded]
  · rw [hstore]
    exact (Store.continues_remade _ _ _).reliable hscene.reliable

end Sent

/-! ### Calls of the store -/

omit [DecidableEq E] in
private theorem exists_called {α : Type} (howner : t.owner = some o)
    (hdispatch : t.dispatch = .immediate name) (operation : String)
    (action : ObjectId → StoreAction E α) (s : Session E) :
    ∃ forwarded mid, t.forward operation action s = (forwarded, mid) ∧
      mid.store name = stateAfter (action o.id) (s.store name) := by
  have hchannel : t.channel = some (name, o.id) := by rw [Tracker.channel, hdispatch, howner]
  simp only [Tracker.forward, hdispatch, Tracker.call, hchannel]
  cases hcall : action o.id (s.store name) with
  | ok answer store =>
    refine ⟨.applied answer, s.afterCalls name store, by rw [Session.access_ok hcall], ?_⟩
    rw [Session.store_afterCalls, if_pos rfl, stateAfter_of_ok hcall]
  | error error store =>
    refine ⟨.failed, _, by rw [Session.access_error hcall], ?_⟩
    change (s.afterCalls name store).store name = _
    rw [Session.store_afterCalls, if_pos rfl, stateAfter_of_error hcall]

/-- Whether an element passes the check of a field. -/
def accepted [Element E] (t : Tracker) (e : E) : Bool := !Element.isNull e || t.allowNulls

omit [DecidableEq E] in
/-- A single element passes the check of a field or not. -/
theorem admitted_singleton [Element E] (t : Tracker) (e : E) :
    admitted t [e] = if accepted t e then [e] else [] := by
  unfold admitted accepted
  cases hnull : Element.isNull e <;> cases t.allowNulls <;> simp [hnull]

/-- The elements that a value from outside takes out of what a queue shows. -/
def leaving [Element E] (target shown : List E) : List E :=
  shown.filter fun e => !target.any (Element.same e)

/-- The elements that a value from outside adds to what a queue shows, up to the first one that is
refused. -/
def joining [Element E] (t : Tracker) (target shown : List E) : List E :=
  (target.filter fun e => !shown.any (Element.same · e)).takeWhile (accepted t)

namespace Hinting

section Calls

variable (h : Hinting o name scene)

include h

omit [DecidableEq E] in
/-- A queue of this kind answers from memory. -/
theorem isAuthoritative : scene.value.isAuthoritative = true := by
  rw [TrackedQueue.isAuthoritative, h.useCache, h.loaded]
  exact Bool.or_true _

omit [DecidableEq E] in
/-- A queue of this kind queues nothing. -/
theorem isQueued : scene.value.tracker.isQueued = false := by rw [Tracker.isQueued, h.dispatch]

omit [DecidableEq E] in
/-- The store is told how many elements are in memory. -/
theorem hint_eq : hint scene.value = some scene.value.content.elements.length := by
  rw [hint, h.useCache]
  rfl

omit [DecidableEq E] in
/-- Listing the elements reads the memory, and changes nothing. -/
theorem toList_eq : toList scene = .ok scene.value.content.elements scene :=
  toList_of_whole (t := scene.value.tracker) h.isAuthoritative scene.session

/-- Adding elements without a check. -/
theorem addUnchecked [Element E] (operation : String)
    (store : ObjectId → Option Nat → StoreAction E Bool) (new : List E)
    (hstore : stateAfter (store o.id (some scene.value.content.elements.length))
      (scene.session.store name) = (scene.session.store name).remade o.id calls) :
    ∃ answer after, TrackedQueue.addUnchecked operation store new scene = .ok answer after ∧
      Sent o name calls (scene.value.content.order.insertAll scene.value.content.elements new)
        scene after := by
  have hload : ensureLoaded scene = .ok () scene := ensureLoaded_of_whole h.isAuthoritative
  have hhint := h.hint_eq
  obtain ⟨⟨t, content⟩, s⟩ := scene
  obtain ⟨forwarded, mid, hforward, hmid⟩ := exists_called h.owner h.dispatch operation
    (store · (hint ⟨t, content⟩)) s
  rw [hhint] at hmid
  simp only [TrackedQueue.addUnchecked, bind_apply, hload, current_apply, forward_apply hforward,
    setElements_apply, announce_apply, changed_apply, pure_apply]
  exact ⟨_, _, rfl, .reported _ (hmid.trans hstore)⟩

/-- Removing the head. -/
theorem poll : ∃ answer after, TrackedQueue.poll scene = .ok answer after ∧
    Sent o name [.removeAt 0 (some scene.value.content.elements.length)]
      scene.value.content.elements.tail scene after := by
  have hload : ensureLoaded scene = .ok () scene := ensureLoaded_of_whole h.isAuthoritative
  have hhint := h.hint_eq
  obtain ⟨⟨t, content⟩, s⟩ := scene
  obtain ⟨forwarded, mid, hforward, hmid⟩ := exists_called h.owner h.dispatch "poll"
    (Store.removeAt · 0 (hint ⟨t, content⟩)) s
  rw [hhint] at hmid
  simp only [TrackedQueue.poll, bind_apply, hload, current_apply, setElements_apply,
    forward_apply hforward, announce_apply, changed_apply, pure_apply]
  exact ⟨_, _, rfl, .reported _ (hmid.trans (stateAfter_discard _ _).symm)⟩

/-- Removing one occurrence of an element. -/
theorem removeWith (e : E) (cascade : Bool) :
    ∃ answer after, TrackedQueue.removeWith e cascade scene = .ok answer after ∧
      Sent o name [.remove e (some scene.value.content.elements.length) cascade]
        (scene.value.content.elements.erase e) scene after := by
  have hload : ensureLoaded scene = .ok () scene := ensureLoaded_of_whole h.isAuthoritative
  have hwhole := h.isAuthoritative
  have hhint := h.hint_eq
  obtain ⟨⟨t, content⟩, s⟩ := scene
  obtain ⟨forwarded, mid, hforward, hmid⟩ := exists_called h.owner h.dispatch "remove"
    (Store.remove · e (hint ⟨t, content⟩) cascade) s
  rw [hhint] at hmid
  simp only [TrackedQueue.removeWith, bind_apply, hload, current_apply, hwhole, Bool.or_true,
    Bool.true_or, if_true, setElements_apply, forward_apply hforward, announce_apply, changed_apply,
    pure_apply]
  exact ⟨_, _, rfl, .reported _ (hmid.trans (stateAfter_discard _ _).symm)⟩

/-- Removing every occurrence of some elements. -/
theorem removeListed (doomed : List E) :
    ∃ answer after, TrackedQueue.removeListed doomed scene = .ok answer after ∧
      Sent o name (Store.removals scene.value.content.elements.length
          (scene.value.content.elements.filter doomed.contains))
        (scene.value.content.elements.filter fun e => !doomed.contains e) scene after := by
  have hload : ensureLoaded scene = .ok () scene := ensureLoaded_of_whole h.isAuthoritative
  have hwhole := h.isAuthoritative
  have hhint := h.hint_eq
  have howner := h.owner
  have hdispatch := h.dispatch
  have hreliable := h.reliable
  obtain ⟨⟨t, content⟩, s⟩ := scene
  dsimp only at howner hdispatch hreliable ⊢
  let copies := content.elements.filter doomed.contains
  let told := t.announce (.removed copies true) s
  obtain ⟨forwarded, mid, hforward, hmid⟩ := exists_called howner hdispatch "remove-all"
    (Store.removeAll · copies (hint ⟨t, content⟩)) told
  have htold : told.store name = s.store name :=
    Session.store_of_stores_eq (t.stores_announce s _) name
  rw [hhint, htold, Store.stateAfter_removeAll hreliable] at hmid
  simp only [TrackedQueue.removeListed, bind_apply, hload, current_apply, hwhole, if_true,
    pure_apply, setElements_apply, hdispatch, announce_apply]
  change ∃ answer after, (forward "remove-all" (Store.removeAll · copies (hint ⟨t, content⟩)) >>=
    fun forwarded => changed >>= fun _ => pure (forwarded.answer (!copies.isEmpty) false))
    ⟨⟨t, _⟩, told⟩ = .ok answer after ∧ _
  simp only [bind_apply, forward_apply hforward, changed_apply, pure_apply]
  exact ⟨_, _, rfl, rfl, rfl, (Session.store_of_stores_eq (t.stores_changed mid) name).trans hmid⟩

/-- Removing every occurrence of elements that are not kept. -/
theorem retainAll (keep : List E) :
    ∃ answer after, TrackedQueue.retainAll keep scene = .ok answer after ∧
      Sent o name (Store.removals scene.value.content.elements.length
          (scene.value.content.elements.filter fun e => !keep.contains e))
        after.value.content.elements scene after := by
  let dropped := scene.value.content.elements.filter fun e => !keep.contains e
  unfold TrackedQueue.retainAll
  simp only [bind_apply, h.toList_eq, current_apply, h.isQueued, Bool.false_and,
    Bool.false_eq_true, if_false, List.append_nil]
  by_cases hnone : dropped.isEmpty = true
  · have hempty : dropped = [] := List.isEmpty_iff.mp hnone
    rw [if_pos hnone]
    change ∃ answer after, _ ∧ Sent o name (Store.removals _ dropped) _ scene after
    rw [hempty]
    exact ⟨_, _, rfl, .refl o name scene⟩
  · obtain ⟨answer, after, hremoved, hsent⟩ := h.removeListed dropped
    rw [filter_contains_filter] at hsent
    rw [if_neg hnone]
    exact ⟨answer, after, hremoved, hsent.tracker, by rw [hsent.content], hsent.store⟩

/-- Removing all elements. -/
theorem clear : ∃ after, TrackedQueue.clear scene = .ok () after ∧
    Sent o name [.clear] [] scene after := by
  have howner := h.owner
  have hdispatch := h.dispatch
  have huse := h.useCache
  have hloaded := h.loaded
  obtain ⟨⟨t, content⟩, s⟩ := scene
  dsimp only at howner hdispatch huse hloaded
  let told := t.announce (.cleared content.elements) s
  obtain ⟨forwarded, mid, hforward, hmid⟩ := exists_called howner hdispatch "clear" Store.clear told
  have htold : told.store name = s.store name :=
    Session.store_of_stores_eq (t.stores_announce s _) name
  rw [htold] at hmid
  refine ⟨⟨⟨t, { content with elements := [], loaded := content.loaded || content.useCache }⟩,
    t.changed mid⟩, ?_, rfl, ?_, ?_⟩
  · change (discard (forward "clear" Store.clear) >>= fun _ => changed)
      (⟨⟨t, { content with elements := [], loaded := content.loaded || content.useCache }⟩, told⟩ :
        Scene (TrackedQueue E) E) = _
    rw [bind_apply, discard_apply, forward_apply hforward]
    rfl
  · rw [hloaded, Bool.true_or, ← hloaded]
  · exact (Session.store_of_stores_eq (t.stores_changed mid) name).trans hmid

/-- Replacing the value. -/
theorem initialiseWith (new : List E) :
    Sent o name
      (if replacementReachesStore scene.value scene.session then
        .clear :: Store.additions 0 (new.take Word.sizeLimit) else [])
      (scene.value.content.order.sort new) scene
      (stateAfter (TrackedQueue.initialiseWith new) scene) := by
  have howner := h.owner
  have hdispatch := h.dispatch
  have huse := h.useCache
  have hreliable := h.reliable
  rw [stateAfter_of_ok (initialiseWith_apply new scene)]
  refine ⟨rfl, by rw [← h.loaded], ?_⟩
  obtain ⟨⟨t, content⟩, s⟩ := scene
  dsimp only at howner hdispatch huse hreliable ⊢
  rw [Session.store_of_stores_eq (t.stores_markDirty _) name]
  split
  · let queued := t.enqueue (replacing new) s
    have hqueued : queued.store name = s.store name :=
      Session.store_of_stores_eq (t.stores_enqueue s _) name
    obtain ⟨_, cleared, hclear, hcleared⟩ :=
      exists_called howner hdispatch "clear" Store.clear queued
    obtain ⟨_, after, hadd, hadded⟩ :=
      exists_called howner hdispatch "add-all" (Store.addAll · new (some 0)) cleared
    have hafter : replaced ⟨t, content⟩ new s = after := by
      unfold replaced
      dsimp only
      rw [hclear, huse, if_pos rfl]
      dsimp only
      rw [hadd]
    have hmid : cleared.store name = (s.store name).remade o.id [.clear] := by
      rw [hcleared, hqueued]
      rfl
    have hrest : (cleared.store name).Reliable := by
      rw [hmid]
      exact (Store.continues_remade _ _ _).reliable hreliable
    rw [hafter, hadded, Store.stateAfter_addAll hrest, hmid, ← Store.remade_append]
    rfl
  · rfl

variable [Element E]

/-- Adding an element that is accepted. -/
theorem add_of_accepted {e : E} (haccepted : accepted scene.value.tracker e = true) :
    ∃ answer after, TrackedQueue.add e scene = .ok answer after ∧
      Sent o name (Store.additions scene.value.content.elements.length [e])
        (scene.value.content.order.insertAll scene.value.content.elements [e]) scene after := by
  have hcheck : scene.value.tracker.check e = .ok () := by
    rw [Tracker.check, if_neg]
    simpa [accepted, ← Bool.not_eq_true, imp_iff_not_or] using haccepted
  change ∃ answer after, (Tracked.require (scene.value.tracker.check e) >>= fun _ =>
    TrackedQueue.addUnchecked "add" (Store.add · e ·) [e]) scene = .ok answer after ∧ _
  rw [hcheck]
  exact h.addUnchecked "add" (Store.add · e ·) [e] (stateAfter_discard _ _).symm

omit h in
/-- Adding an element that is refused. -/
theorem add_of_refused {e : E} (haccepted : accepted scene.value.tracker e = false) :
    ∃ failure, TrackedQueue.add e scene = .error failure scene := by
  have hcheck : scene.value.tracker.check e =
      .error (.nullElement (scene.value.tracker.fieldName.getD "unowned")) := by
    rw [Tracker.check, if_pos]
    simpa [accepted] using haccepted
  refine ⟨.nullElement (scene.value.tracker.fieldName.getD "unowned"), ?_⟩
  change (Tracked.require (scene.value.tracker.check e) >>= fun _ => _) scene = _
  rw [hcheck]
  rfl

end Calls

section Attaching

variable [Element E]

/-- The pass over what a value from outside lacks. -/
private theorem removeMissing (target l : List E) (h : Hinting o name scene)
    (hpart : (leaving target l).Subperm scene.value.content.elements) :
    ∃ after, Container.removeMissing target l scene = .ok () after ∧
      Sent o name (Store.withdrawals scene.value.content.elements.length (leaving target l))
        after.value.content.elements scene after ∧
      after.value.content.elements.length =
        scene.value.content.elements.length - (leaving target l).length := by
  induction l generalizing scene with
  | nil => exact ⟨scene, rfl, .refl o name scene, rfl⟩
  | cons e l ih =>
    rw [(Container.isPass_removeMissing target).cons]
    unfold leaving at hpart ih ⊢
    cases hskips : target.any (Element.same e) with
    | true =>
      rw [List.filter_cons_of_neg (by simp [hskips])] at hpart ⊢
      exact ih h hpart
    | false =>
      rw [List.filter_cons_of_pos (by simp [hskips])] at hpart ⊢
      obtain ⟨hmem, hrest⟩ := Store.cons_subperm_iff.mp hpart
      obtain ⟨answer, mid, hremove, hsent⟩ := h.removeWith e false
      rw [← hsent.elements] at hrest
      obtain ⟨after, hpass, hlater, hlength⟩ := ih (hsent.hinting h) hrest
      have hless : mid.value.content.elements.length =
          scene.value.content.elements.length - 1 := by
        rw [hsent.elements, List.length_erase_of_mem hmem]
      refine ⟨after, ?_, ?_, ?_⟩
      · have hremove' : (Container.remove e false : Action E Bool) scene = .ok answer mid := hremove
        rw [if_neg Bool.false_ne_true, bind_apply, discard_apply, hremove']
        exact hpass
      · rw [hless] at hlater
        exact hsent.trans hlater
      · rw [hlength, hless, List.length_cons]
        omega

/-- The pass over what a value from outside adds. -/
private theorem addMissing (shown target : List E) (h : Hinting o name scene) :
    ∃ next, Sent o name (Store.additions scene.value.content.elements.length
        (joining scene.value.tracker target shown)) next scene
      (stateAfter (Container.addMissing shown target) scene) := by
  induction target generalizing scene with
  | nil => exact ⟨_, .refl o name scene⟩
  | cons e target ih =>
    rw [(Container.isPass_addMissing shown).cons]
    unfold joining at ih ⊢
    cases hskips : shown.any (Element.same · e) with
    | true =>
      rw [List.filter_cons_of_neg (by simp [hskips])]
      exact ih h
    | false =>
      rw [List.filter_cons_of_pos (by simp [hskips]), if_neg Bool.false_ne_true, stateAfter_bind,
        discard_apply]
      cases haccepted : accepted scene.value.tracker e with
      | false =>
        obtain ⟨failure, hadd⟩ := add_of_refused haccepted
        have hadd' : (Container.add e : Action E Bool) scene = .error failure scene := hadd
        rw [List.takeWhile_cons_of_neg (by simp [haccepted]), hadd']
        exact ⟨_, .refl o name scene⟩
      | true =>
        obtain ⟨answer, mid, hadd, hsent⟩ := h.add_of_accepted haccepted
        obtain ⟨next, hlater⟩ := ih (hsent.hinting h)
        have hmore : mid.value.content.elements.length =
            scene.value.content.elements.length + 1 := by
          rw [hsent.elements, (Comparator.insertAll_perm _ _ _).length_eq, List.length_append]
          rfl
        have hadd' : (Container.add e : Action E Bool) scene = .ok answer mid := hadd
        rw [List.takeWhile_cons_of_pos haccepted, hadd']
        rw [hsent.tracker, hmore] at hlater
        exact ⟨next, hsent.trans hlater⟩

/-- Taking over a value from outside. -/
theorem attachCopy (h : Hinting o name scene) (target : List E) :
    let shown := scene.value.content.elements
    let gone := leaving target shown
    ∃ next, Sent o name (Store.withdrawals shown.length gone ++
        Store.additions (shown.length - gone.length) (joining scene.value.tracker target shown))
      next scene (stateAfter (TrackedQueue.attachCopy target) scene) := by
  intro shown gone
  have hattached : Sent o name [] shown scene (Tracked.attached target scene) :=
    ⟨rfl, rfl, Session.store_of_stores_eq (scene.value.tracker.stores_attach scene.session target)
      name⟩
  have hstart := hattached.hinting h
  obtain ⟨mid, hremoved, hsent, hlength⟩ := hstart.removeMissing target shown
    (List.filter_sublist.subperm)
  obtain ⟨next, hadded⟩ := (hsent.hinting hstart).addMissing shown target
  rw [hlength, hsent.tracker] at hadded
  have hrun : stateAfter (TrackedQueue.attachCopy target) scene =
      stateAfter (Container.addMissing shown target) mid := by
    change stateAfter (Container.reconcile target) (Tracked.attached target scene) = _
    have hlist : Container.elements (Tracked.attached target scene) =
        .ok shown (Tracked.attached target scene) := hstart.toList_eq
    unfold Container.reconcile
    rw [stateAfter_bind, hlist]
    dsimp only
    rw [stateAfter_bind, hremoved]
  rw [hrun]
  exact ⟨next, hattached.trans (hsent.trans hadded)⟩

end Attaching

end Hinting

end TrackedQueue

end TrackedFields
