import Mathlib.Logic.Relation
import TrackedFields.Proofs.CleanFailures
import TrackedFields.Proofs.TrackedQueue.PassedChanges

/-!
# What a supplied queue goes through

Whatever a priority queue offers, flushes, and all that happens around it, leave a queue with a
store of its own order with such a store.
-/

namespace TrackedFields.TrackedQueue

variable {E α : Type} [DecidableEq E] {cmp : Comparator E} {o : Owner} {name : StoreName}
  {scene after : Scene (TrackedQueue E) E}

/-! ### What happens around a queue -/

omit [DecidableEq E] in
/-- Whatever shows in neither queue nor store does not matter. -/
theorem Supplied.of_calm (h : Supplied cmp o name scene) {s : Session E}
    (hcalm : Session.Calm name scene.session s) :
    Supplied cmp o name { scene with session := s } := by
  have hheld : held o name { scene with session := s } = held o name scene :=
    hcalm.contents_eq o.id
  refine ⟨h.owner, h.order, hcalm.managed.trans h.managed, ?_, hcalm.continues.reliable h.reliable,
    ?_, ?_, ?_⟩
  · rw [hcalm.rules]
    exact h.storeOrder
  · rw [hcalm.rules, hheld]
    exact h.fits
  · rw [hcalm.pending]
    exact h.heads
  · rw [hcalm.pending]
    refine h.way.imp_right (And.imp_right fun hdedicated =>
      ⟨?_, hcalm.continues.reliable h.reliable, ?_⟩)
    · rw [hcalm.rules, Session.views, hcalm.view]
      exact hdedicated.inOrder
    · rw [hcalm.pending]
      exact hdedicated.waiting

/-- A flush leaves a queue supplied, wherever it stops. -/
theorem Supplied.flush [Std.TransCmp cmp] (h : Supplied cmp o name scene)
    (default : Option StoreName) :
    Supplied cmp o name
      { scene with session := stateAfter (Session.flush default) scene.session } := by
  rcases h.way with ⟨hname, hpending⟩ | ⟨hname, hdedicated⟩
  · rw [Session.stateAfter_flush_of_nil hpending]
    exact h
  · have hflushed := hdedicated.flushed default
    generalize stateAfter (Session.flush default) scene.session = s at hflushed ⊢
    obtain ⟨hafter, hrules, hsettings, -, ⟨done, hdone⟩, -⟩ := hflushed
    have horder : (s.rules name).order = some cmp := by
      rw [hrules]
      exact h.storeOrder
    refine ⟨h.owner, h.order, (congrArg Settings.manageRelationships hsettings).trans h.managed,
      horder, hafter.reliable, hafter.inOrder.fits o.id, fun operation hmem => ?_,
      .inr ⟨hname, hafter⟩⟩
    apply h.heads operation
    rw [hdone]
    exact List.mem_append_right done hmem

/-! ### Reading -/

omit [DecidableEq E] in
/-- Reading from store or memory leaves the queue as it is, and the session calm. -/
theorem Supplied.exists_calm_readEither (h : Supplied cmp o name scene) (fromStore : Bool)
    {action : ObjectId → StoreAction E α} (fromMemory : QueueContent E → α)
    (hsilent : ∀ owner, Silent (action owner)) :
    ∃ s, stateAfter (readEither fromStore action fromMemory) scene = { scene with session := s } ∧
      Session.Calm name scene.session s := by
  have hread : readEither fromStore action fromMemory scene =
      if fromStore then read name (action o.id) scene
      else .ok (fromMemory scene.value.content) scene :=
    readEither_of_channel h.channel fromStore action fromMemory
  obtain ⟨hview, hcontinues⟩ := hsilent o.id (scene.session.store name)
  by_cases hfrom : fromStore = true
  · refine ⟨_, ?_, .afterCalls hcontinues hview⟩
    rw [stateAfter, hread, if_pos hfrom, TrackedQueue.read, Session.access, stateAfter]
    cases action o.id (scene.session.store name) <;> rfl
  · refine ⟨scene.session, ?_, rfl, rfl, ⟨rfl, id⟩, rfl⟩
    rw [stateAfter, hread, if_neg hfrom]

omit [DecidableEq E] in
/-- Reading from store or memory leaves a queue supplied. -/
theorem supplies_readEither {fromStore : Bool} {action : ObjectId → StoreAction E α}
    {fromMemory : QueueContent E → α} (hsilent : ∀ owner, Silent (action owner)) :
    Keeps (Supplied cmp o name) (readEither fromStore action fromMemory) := by
  intro scene h
  obtain ⟨s, hafter, hcalm⟩ := h.exists_calm_readEither fromStore fromMemory hsilent
  rw [hafter]
  exact h.of_calm hcalm

section Keeping

variable [Std.TransCmp cmp]

/-- Loading reads the store, and takes in what it holds. -/
theorem supplies_loadFromStore : Keeps (Supplied cmp o name) (loadFromStore (E := E)) := by
  intro scene h
  obtain ⟨after, hload, -, hpasses⟩ := h.exists_loadFromStore
  rw [stateAfter_of_ok hload]
  exact hpasses.supplied h nofun

/-- Loading before a request reads the store, and takes in what it holds. -/
theorem supplies_ensureLoaded : Keeps (Supplied cmp o name) (ensureLoaded (E := E)) :=
  Keeps.content?.bind fun _ => supplies_loadFromStore.ite (Keeps.pure _)

/-- Preparing a fresh queue may load it. -/
theorem supplies_initialise : Keeps (Supplied cmp o name) (initialise (E := E)) :=
  Keeps.content?.bind fun _ => supplies_loadFromStore.ite (Keeps.pure _)

omit [DecidableEq E] [Std.TransCmp cmp] in
/-- Counting reads only. -/
theorem supplies_length : Keeps (Supplied cmp o name) (length (E := E)) :=
  keeps_current.bind fun _ => supplies_readEither fun _ => silent_reading _ _

omit [Std.TransCmp cmp] in
/-- Looking for an element reads only. -/
theorem supplies_contains (e : E) : Keeps (Supplied cmp o name) (contains e) :=
  keeps_current.bind fun _ => supplies_readEither fun _ => silent_reading _ _

/-- Listing the elements reads only. -/
theorem supplies_toList : Keeps (Supplied cmp o name) (toList (E := E)) :=
  supplies_ensureLoaded.bind fun _ => Keeps.content?.bind fun _ =>
    supplies_readEither silent_elements

/-- Looking at the head reads only. -/
theorem supplies_peek : Keeps (Supplied cmp o name) (peek (E := E)) :=
  supplies_ensureLoaded.bind fun _ => Keeps.content?.bind fun _ =>
    supplies_readEither fun _ => silent_reading _ _

/-- A snapshot reads only. -/
theorem supplies_snapshot : Keeps (Supplied cmp o name) (snapshot (E := E)) :=
  supplies_toList.bind fun _ => Keeps.content?.bind fun _ => Keeps.pure _

omit [Std.TransCmp cmp] in
/-- A dirty mark reaches neither the queue nor its store. -/
theorem supplies_makeDirty : Keeps (Supplied cmp o name) (Tracked.makeDirty : Action E Unit) := by
  intro scene h
  have hsends := Session.Sends.markDirty scene.value.tracker o name scene.session
  exact h.of_calm (.of_stores_eq (Tracker.pending_markDirty _ _) (Tracker.stores_markDirty _ _)
    hsends.managed name)

omit [Std.TransCmp cmp] in
/-- The store is told of an update of an embedded element, and its content stays. -/
theorem supplies_updateEmbedded (e : E) (field : FieldOrdinal) (dirty : Bool) :
    Keeps (Supplied cmp o name) (updateEmbedded e field dirty) := by
  have hcall : Keeps (Supplied cmp o name)
      (Tracked.ask fun tracker session => tracker.call "update-embedded-element"
        (Store.updateEmbedded · e field) session : Action E (Forwarded Bool)) := by
    intro scene h
    obtain ⟨store, hcall, hcontinues, -⟩ :
        (scene.session.store name).Carries o.id (Store.updateEmbedded o.id e field) false [] :=
      Store.carries_reading h.reliable o.id (.updateEmbedded e field) fun _ => false
    have hsilent : Silent (Store.updateEmbedded o.id e field : StoreAction E Bool) :=
      silent_reading _ _
    obtain ⟨hview, -⟩ := hsilent (scene.session.store name)
    rw [stateAfter_of_ok hcall] at hview
    have hafter : stateAfter (Tracked.ask fun tracker session =>
        tracker.call "update-embedded-element" (Store.updateEmbedded · e field) session :
          Action E (Forwarded Bool)) scene =
        { scene with session := scene.session.afterCalls name store } := by
      change { scene with session := (scene.value.tracker.call _ _ scene.session).2 } = _
      unfold Tracker.call
      rw [h.channel]
      dsimp only
      rw [Session.access_ok hcall]
    rw [hafter]
    exact h.of_calm (.afterCalls hcontinues hview)
  exact hcall.discard.bind fun _ => supplies_makeDirty.ite (Keeps.pure _)

/-! ### Changing -/

/-- Removing the head, whoever answers what it is. -/
theorem supplies_poll : Keeps (Supplied cmp o name) (poll (E := E)) :=
  fun scene h => h.passes_poll.supplied h (fromHead_headRemoval o name scene)

/-- Removing one occurrence of an element, whoever answers whether there is one. -/
theorem supplies_removeWith (e : E) (cascade : Bool) :
    Keeps (Supplied cmp o name) (removeWith e cascade) :=
  fun _ h => (h.passes_removeWith e cascade).supplied h (fromHead_removal _ e cascade)

/-- Removing every occurrence of listed elements. -/
theorem supplies_removeListed (doomed : List E) :
    Keeps (Supplied cmp o name) (removeListed doomed) :=
  fun _ h => (h.passes_removeListed doomed).supplied h
    (OperationKind.fromHead_map (.collectionRemove · true) (fun _ => trivial) _)

/-- Removing listed elements, of which there may be none. -/
theorem supplies_removeAll (doomed : List E) : Keeps (Supplied cmp o name) (removeAll doomed) :=
  (Keeps.pure false).ite (supplies_removeListed doomed)

/-- Keeping the listed elements only. -/
theorem supplies_retainAll (keep : List E) : Keeps (Supplied cmp o name) (retainAll keep) :=
  fun _ h => (h.passes_retainAll keep).supplied h
    (OperationKind.fromHead_map (.collectionRemove · true) (fun _ => trivial) _)

/-- Removing everything: an empty container is in any order. -/
theorem supplies_clear : Keeps (Supplied cmp o name) (clear (E := E)) := by
  refine fun scene h => h.passes_clear.supplied h fun kind hkind => ?_
  rw [List.mem_singleton.mp hkind]
  exact .inl trivial

end Keeping

/-! ### The value as a whole -/

omit [DecidableEq E] in
/-- It does not matter what is in memory. -/
theorem Supplied.setContent (h : Supplied cmp o name scene) (es : List E) (loaded : Bool) :
    Supplied cmp o name { scene with value := { scene.value with
      content := { scene.value.content with elements := es, loaded } } } :=
  ⟨h.owner, h.order, h.managed, h.storeOrder, h.reliable, h.fits, h.heads, h.way⟩

omit [DecidableEq E] in
/-- Taking over elements changes the memory only. -/
theorem supplies_initialiseFrom (es : List E) :
    Keeps (Supplied cmp o name) (initialiseFrom es) := fun _ h => h.setContent _ _

/-- Replacing the value leaves a queue supplied, whether the replacement is written or not. -/
theorem Supplied.initialiseWith [Std.TransCmp cmp] (h : Supplied cmp o name scene) {new : List E}
    (hcount : new.length ≤ Word.sizeLimit) :
    Supplied cmp o name (stateAfter (TrackedQueue.initialiseWith new) scene) := by
  cases hreaches : replacementReachesStore scene.value scene.session with
  | true => exact (h.passes_initialiseWith hcount hreaches).supplied h (fromHead_replacing new)
  | false =>
    rw [stateAfter_of_ok (initialiseWith_apply new scene), hreaches]
    exact supplies_makeDirty _ (h.setContent (scene.value.content.order.sort new) true)

section Exchange

variable [Element E] [Std.TransCmp cmp]

/-- An element that is added takes its place in the order. -/
theorem supplies_add (e : E) : Keeps (Supplied cmp o name) (add e) := by
  have hadd : Keeps (Supplied cmp o name)
      (addUnchecked "add" (Store.add · e ·) [e] : Action E Bool) := by
    intro scene h
    have hpasses := h.passes_addUnchecked "add" (Store.add · e ·) [e] fun mid hmid =>
      Store.carries_add hmid.supplied.reliable o.id e (hint mid.value)
    exact hpasses.supplied h (OperationKind.fromHead_map .collectionAdd (fun _ => trivial) [e])
  exact Keeps.tracker?.bind fun _ => (Keeps.require _).bind fun _ => hadd

omit [Std.TransCmp cmp] in
/-- Adding several elements changes nothing, or comes to adding them without a check. -/
theorem stateAfter_addAll (new : List E) (scene : Scene (TrackedQueue E) E) :
    stateAfter (addAll new) scene = scene ∨ stateAfter (addAll new) scene =
      stateAfter (addUnchecked "add-all" (Store.addAll · new ·) new) scene := by
  have haddAll : stateAfter (addAll new) scene =
      stateAfter (Tracked.require (scene.value.tracker.checkAll new) >>= fun _ =>
        if new.isEmpty then pure false
        else addUnchecked "add-all" (Store.addAll · new ·) new : Action E Bool) scene := rfl
  rw [haddAll]
  cases scene.value.tracker.checkAll new with
  | error failure => exact .inl rfl
  | ok answer =>
    change stateAfter (if new.isEmpty = true then _ else _) scene = _ ∨
      stateAfter (if new.isEmpty = true then _ else _) scene = _
    split
    · exact .inl rfl
    · exact .inr rfl

/-- Adding several elements leaves a queue supplied, as long as it stays countable. -/
theorem Supplied.addAll (h : Supplied cmp o name scene) {new : List E}
    (hcount : (stateAfter (TrackedQueue.addAll new) scene).value.content.elements.length ≤
      Word.sizeLimit) : Supplied cmp o name (stateAfter (TrackedQueue.addAll new) scene) := by
  rcases stateAfter_addAll new scene with hsame | hadded
  · rw [hsame]
    exact h
  · rw [hadded] at hcount ⊢
    have hpasses := h.passes_addUnchecked "add-all" (Store.addAll · new ·) new fun mid hmid =>
      hmid.carries_addAll hcount
    exact hpasses.supplied h (OperationKind.fromHead_map .collectionAdd (fun _ => trivial) new)

/-- Each pass of an attachment keeps the queue supplied. -/
theorem supplies_attachCopy (target : List E) :
    Keeps (Supplied cmp o name) (attachCopy target) := by
  have hattach : Keeps (Supplied cmp o name) (Tracked.attach target : Action E Unit) :=
    fun scene h => h.of_calm (.attach scene.value.tracker target name scene.session)
  exact hattach.bind fun _ => Container.keeps_reconcile supplies_toList
    (fun e => supplies_removeWith e false) supplies_add target

/-- Detaching a copy lists the elements, and changes nothing else. -/
theorem supplies_detachCopy (seen : Detachment) :
    Keeps (Supplied cmp o name) (detachCopy (E := E) seen) := by
  have hdetach (es : List E) :
      Keeps (Supplied cmp o name) (Tracked.detach es seen : Action E Detachment) := by
    intro scene h
    change Supplied cmp o name
      { scene with session := (scene.value.tracker.detach es seen scene.session).2 }
    rw [Tracker.detach, h.owner]
    have hcalm : Session.Calm name scene.session (scene.session.detachAll es) :=
      ⟨rfl, rfl, ⟨rfl, id⟩, rfl⟩
    exact h.of_calm hcalm
  exact supplies_snapshot.bind fun es => (hdetach es).bind fun _ => Keeps.pure _

/-- Whatever a queue offers leaves it supplied, as long as it stays countable. -/
theorem Supplied.offered {action : Action E α} (offer : Offers action)
    (h : Supplied cmp o name scene)
    (hcount : (stateAfter action scene).value.content.elements.length ≤ Word.sizeLimit) :
    Supplied cmp o name (stateAfter action scene) := by
  cases offer with
  | inspect question =>
    unfold stateAfter Tracked.inspect
    cases question scene.value <;> exact h
  | initialise => exact supplies_initialise scene h
  | initialiseFrom es => exact supplies_initialiseFrom es scene h
  | initialiseWith es =>
    rw [stateAfter_of_ok (initialiseWith_apply es scene)] at hcount
    exact h.initialiseWith ((Comparator.sort_perm _ es).length_eq ▸ hcount)
  | load => exact supplies_ensureLoaded scene h
  | loadFromStore => exact supplies_loadFromStore scene h
  | length => exact supplies_length scene h
  | isEmpty => exact supplies_length.bind (fun _ => Keeps.pure _) scene h
  | contains e => exact supplies_contains e scene h
  | containsAll es => exact supplies_toList.bind (fun _ => Keeps.pure _) scene h
  | toList => exact supplies_toList scene h
  | snapshot => exact supplies_snapshot scene h
  | toJson encode => exact supplies_snapshot.bind (fun _ => Keeps.pure _) scene h
  | peek => exact supplies_peek scene h
  | detachCopy seen => exact supplies_detachCopy seen scene h
  | updateEmbedded e field dirty => exact supplies_updateEmbedded e field dirty scene h
  | add e => exact supplies_add e scene h
  | addAll new => exact h.addAll hcount
  | poll => exact supplies_poll scene h
  | remove e => exact supplies_removeWith e true scene h
  | removeWith e cascade => exact supplies_removeWith e cascade scene h
  | removeAll es => exact supplies_removeAll es scene h
  | retainAll keep => exact supplies_retainAll keep scene h
  | clear => exact supplies_clear scene h

end Exchange

/-! ### Runs -/

/-- What can happen to a queue and the session around it: whatever the queue offers, as long as the
elements in memory can be counted by a word, a flush, and all that shows in neither queue nor
store. -/
inductive UseStep [Element E] (name : StoreName) :
    Scene (TrackedQueue E) E → Scene (TrackedQueue E) E → Prop where
  | offered {α : Type} {action : Action E α} {scene : Scene (TrackedQueue E) E}
      (offer : Offers action)
      (countable : (stateAfter action scene).value.content.elements.length ≤ Word.sizeLimit) :
      UseStep name scene (stateAfter action scene)
  | attached {scene : Scene (TrackedQueue E) E} (target : List E) :
      UseStep name scene (stateAfter (attachCopy target) scene)
  | flushed {scene : Scene (TrackedQueue E) E} (default : Option StoreName) :
      UseStep name scene
        { scene with session := stateAfter (Session.flush default) scene.session }
  | around {scene : Scene (TrackedQueue E) E} {s : Session E}
      (calm : Session.Calm name scene.session s) : UseStep name scene { scene with session := s }

/-- A step leaves a queue supplied. -/
theorem UseStep.supplied [Element E] [Std.TransCmp cmp] (step : UseStep name scene after)
    (h : Supplied cmp o name scene) : Supplied cmp o name after := by
  cases step with
  | offered offer countable => exact h.offered offer countable
  | attached target => exact supplies_attachCopy target scene h
  | flushed default => exact h.flush default
  | around calm => exact h.of_calm calm

/-- A queue stays supplied in any run. -/
theorem supplied_run [Element E] [Std.TransCmp cmp] {start : Scene (TrackedQueue E) E}
    (hstart : Supplied cmp o name start)
    (hrun : Relation.ReflTransGen (UseStep name) start scene) : Supplied cmp o name scene := by
  induction hrun with
  | refl => exact hstart
  | tail _ step ih => exact step.supplied ih

end TrackedFields.TrackedQueue
