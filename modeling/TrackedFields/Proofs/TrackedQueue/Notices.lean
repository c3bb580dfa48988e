import TrackedFields.Proofs.Session.Notices
import TrackedFields.Proofs.TrackedQueue.CleanFailures

/-!
# When a queue tells its owner

A call of a queue begins with looks: it checks, it loads what is to be kept in memory, and it may
read the store. All failures belong to this part. Then it works, in memory, in the store and on the
session, none of which can fail, and at the end it tells its owner. No call tells its owner and then
goes on, and none works and then forgets to tell.
-/

namespace TrackedFields.TrackedQueue

variable {E α β : Type}

/-- The elements that a queue lists: those in memory, those of the store, or those that it would
load from there. -/
def listed (scene : Scene (TrackedQueue E) E) : List E :=
  match scene.value.tracker.channel with
  | none => scene.value.content.elements
  | some (name, owner) =>
    let stored := (scene.session.store name).contents owner
    if !scene.value.content.useCache then stored
    else if scene.value.content.loaded then scene.value.content.elements
    else scene.value.content.order.sort stored

/-- Between two moments, nothing happened to a queue, except that it may have loaded the elements
that it keeps in memory, and nothing was asked of its session but to read stores. -/
structure Idle (scene after : Scene (TrackedQueue E) E) : Prop where
  tracker : after.value.tracker = scene.value.tracker
  content : after.value.content = scene.value.content ∨
    scene.value.hasStore = true ∧ scene.value.content.useCache = true ∧
      scene.value.content.loaded = false ∧
      after.value.content =
        { scene.value.content with elements := listed scene, loaded := true }
  session : scene.session.OnlyRead after.session

namespace Idle

variable {scene mid after : Scene (TrackedQueue E) E}

/-- Nothing happened between a moment and itself. -/
theorem refl (scene : Scene (TrackedQueue E) E) : Idle scene scene :=
  ⟨rfl, .inl rfl, .refl scene.session⟩

/-- An idle queue lists the same as before. -/
theorem listed_eq (h : Idle scene after) : listed after = listed scene := by
  rcases h.content with hsame | ⟨hstore, huse, -, hfilled⟩
  · have hcontents (name : StoreName) (owner : ObjectId) :
        (after.session.store name).contents owner = (scene.session.store name).contents owner :=
      congrFun (congrArg Store.View.contents (congrFun h.session.called.views name)) owner
    unfold listed
    rw [h.tracker, hsame]
    simp only [hcontents]
  · obtain ⟨channel, hchannel⟩ := Option.isSome_iff_exists.mp hstore
    have hafter : listed after = after.value.content.elements := by
      unfold listed
      rw [h.tracker, hchannel, hfilled]
      simp [huse]
    rw [hafter, hfilled]

/-- An idle queue keeps what no action undoes. -/
theorem continues (h : Idle scene after) :
    scene.value.content.Continues after.value.content := by
  rcases h.content with hsame | ⟨-, -, -, hfilled⟩
  · rw [hsame]
    exact ⟨rfl, rfl, id⟩
  · rw [hfilled]
    exact ⟨rfl, rfl, fun _ => rfl⟩

/-- A queue that is idle twice is idle. -/
theorem trans (h : Idle scene mid) (h' : Idle mid after) : Idle scene after := by
  refine ⟨h'.tracker.trans h.tracker, ?_, h.session.trans h'.session⟩
  have hstore : mid.value.hasStore = scene.value.hasStore := by
    rw [hasStore, hasStore, h.tracker]
  rcases h'.content with hsame' | ⟨hstore', huse', hloaded', hfilled'⟩
  · rw [hsame']
    exact h.content
  · rcases h.content with hsame | ⟨-, -, -, hfilled⟩
    · rw [hsame] at huse' hloaded' hfilled'
      exact .inr ⟨hstore ▸ hstore', huse', hloaded', h.listed_eq ▸ hfilled'⟩
    · rw [hfilled] at hloaded'
      cases hloaded'

end Idle

/-- Reading a store leaves its calls behind, and nothing else. -/
theorem stateAfter_read (name : StoreName) (action : StoreAction E α)
    (scene : Scene (TrackedQueue E) E) :
    stateAfter (read name action) scene = { scene with
      session := scene.session.afterCalls name
        (stateAfter action (scene.session.store name)) } := by
  unfold stateAfter read Session.access
  cases action (scene.session.store name) <;> rfl

/-- Reading a store is no more than that. -/
theorem idle_read (name : StoreName) {action : StoreAction E α} (h : Store.OnlyReads action)
    (scene : Scene (TrackedQueue E) E) : Idle scene (stateAfter (read name action) scene) := by
  rw [stateAfter_read]
  exact ⟨rfl, .inl rfl, .afterCalls h scene.session name⟩

/-- What is read of a whole container is its content. -/
theorem contents_of_read_elements {name : StoreName} {owner : ObjectId} {es : List E}
    {scene after : Scene (TrackedQueue E) E}
    (h : read name (Store.elements owner) scene = .ok es after) :
    es = (scene.session.store name).contents owner := by
  unfold read Session.access at h
  rw [Store.elements_eq] at h
  cases hnow : (scene.session.store name).reads.now with
  | true =>
    rw [hnow] at h
    cases h
  | false =>
    rw [hnow] at h
    cases h
    rfl

/-- Loading what is kept in memory is reading a store, if anything. -/
theorem idle_loadFromStore {scene : Scene (TrackedQueue E) E}
    (huse : scene.value.content.useCache = true) :
    Idle scene (stateAfter loadFromStore scene) := by
  rcases loadFromStore_skips_or_awaits scene with hskip | ⟨name, owner, hchannel, hloaded⟩
  · rw [stateAfter_of_ok hskip]
    exact .refl scene
  · have hidle := idle_read name (Store.onlyReads_elements owner) scene
    have hlisted : listed scene =
        scene.value.content.order.sort ((scene.session.store name).contents owner) := by
      unfold listed
      rw [hchannel]
      simp [huse, hloaded]
    cases hread : read name (Store.elements owner) scene with
    | error failure mid =>
      rw [stateAfter_of_error hread] at hidle
      rwa [stateAfter_of_error (loadFromStore_of_read_error hchannel hloaded hread)]
    | ok es mid =>
      rw [stateAfter_of_ok hread] at hidle
      rw [stateAfter_of_ok (loadFromStore_of_read hchannel hloaded hread)]
      have hes := contents_of_read_elements hread
      refine ⟨hidle.tracker, .inr ⟨?_, huse, hloaded, ?_⟩, hidle.session⟩
      · rw [hasStore, hchannel]
        rfl
      · rw [hlisted, hes]

/-- Preparing a queue is reading a store, if anything. -/
theorem idle_ensureLoaded (scene : Scene (TrackedQueue E) E) :
    Idle scene (stateAfter ensureLoaded scene) := by
  by_cases huse : scene.value.content.useCache = true
  · have hload : stateAfter ensureLoaded scene = stateAfter loadFromStore scene := by
      unfold stateAfter
      rw [ensureLoaded_apply, if_pos huse]
    rw [hload]
    exact idle_loadFromStore huse
  · have hskip : ensureLoaded scene = .ok () scene := by rw [ensureLoaded_apply, if_neg huse]
    rw [stateAfter_of_ok hskip]
    exact .refl scene

/-- Reading, from the store or from memory. -/
theorem idle_readEither (fromStore : Bool) {action : ObjectId → StoreAction E α}
    (h : ∀ owner, Store.OnlyReads (action owner)) (fromMemory : QueueContent E → α)
    (scene : Scene (TrackedQueue E) E) :
    Idle scene (stateAfter (readEither fromStore action fromMemory) scene) := by
  cases hchannel : scene.value.tracker.channel with
  | none =>
    rw [stateAfter_of_ok (readEither_of_no_channel hchannel fromStore action fromMemory)]
    exact .refl scene
  | some channel =>
    obtain ⟨name, owner⟩ := channel
    have hread := readEither_of_channel hchannel fromStore action fromMemory
    cases fromStore with
    | true =>
      have hidle := idle_read name (h owner) scene
      unfold stateAfter at hidle ⊢
      rwa [hread]
    | false =>
      rw [stateAfter_of_ok hread]
      exact .refl scene

/-- A queue with a store has loaded it once it went well. -/
theorem loaded_of_loadFromStore {scene mid : Scene (TrackedQueue E) E}
    (hstore : scene.value.hasStore = true) (h : loadFromStore scene = .ok () mid) :
    mid.value.content.loaded = true := by
  obtain ⟨⟨name, owner⟩, hchannel⟩ := Option.isSome_iff_exists.mp hstore
  cases hloaded : scene.value.content.loaded with
  | true =>
    rw [loadFromStore_of_not_awaiting fun _ _ => hloaded] at h
    cases h
    exact hloaded
  | false =>
    cases hread : read name (Store.elements owner) scene with
    | error failure after =>
      rw [loadFromStore_of_read_error hchannel hloaded hread] at h
      cases h
    | ok es after =>
      rw [loadFromStore_of_read hchannel hloaded hread] at h
      cases h
      rfl

/-- What a queue answers when it is asked for its elements are those that it lists. -/
theorem eq_listed_of_toList {scene after : Scene (TrackedQueue E) E} {es : List E}
    (h : toList scene = .ok es after) : es = listed scene := by
  have hidle := idle_ensureLoaded scene
  unfold toList at h
  rw [bind_apply] at h
  cases hload : ensureLoaded scene with
  | error failure mid =>
    rw [hload] at h
    cases h
  | ok answer mid =>
    rw [hload] at h
    rw [stateAfter_of_ok hload] at hidle
    change readEither (!mid.value.content.useCache) Store.elements (·.elements) mid = _ at h
    -- Loading does not change what is listed, so the loaded queue may be looked at instead.
    rw [← hidle.listed_eq]
    unfold listed
    cases hchannel : mid.value.tracker.channel with
    | none =>
      rw [readEither_of_no_channel hchannel] at h
      cases h
      rfl
    | some channel =>
      obtain ⟨name, owner⟩ := channel
      rw [readEither_of_channel hchannel] at h
      cases huse : mid.value.content.useCache with
      | false =>
        rw [huse] at h
        exact contents_of_read_elements h
      | true =>
        rw [huse] at h
        have hstore : scene.value.hasStore = true := by
          rw [hasStore, ← hidle.tracker, hchannel]
          rfl
        have hcached : scene.value.content.useCache = true := by
          rcases hidle.content with hsame | ⟨-, hcached, -⟩
          · rwa [← hsame]
          · exact hcached
        rw [ensureLoaded_apply, if_pos hcached] at hload
        have hloaded := loaded_of_loadFromStore hstore hload
        cases h
        simp [hloaded]

/-! ### Reads that are never rejected -/

/-- No read of the store of a queue is rejected. -/
def Readable (scene : Scene (TrackedQueue E) E) : Prop :=
  ∀ name owner, scene.value.tracker.channel = some (name, owner) →
    (scene.session.store name).reads = .never

/-- A store that rejects no read gives its elements. -/
theorem read_elements {scene : Scene (TrackedQueue E) E} {name : StoreName}
    (h : (scene.session.store name).reads = .never) (owner : ObjectId) :
    read name (Store.elements owner) scene =
      .ok ((scene.session.store name).contents owner)
        { scene with
          session := scene.session.afterCalls name (scene.session.store name).iterated } :=
  read_elements_of_now (by rw [h, Outage.now_never]) owner

/-- A queue whose store rejects no read can be loaded. -/
theorem exists_ensureLoaded {scene : Scene (TrackedQueue E) E} (h : Readable scene) :
    ∃ mid, ensureLoaded scene = .ok () mid := by
  rw [ensureLoaded_apply]
  split
  · rcases loadFromStore_skips_or_awaits scene with hskip | ⟨name, owner, hchannel, hloaded⟩
    · exact ⟨scene, hskip⟩
    · exact ⟨_, loadFromStore_of_read hchannel hloaded
        (read_elements (h name owner hchannel) owner)⟩
  · exact ⟨scene, rfl⟩

/-- A queue whose store rejects no read lists its elements. -/
theorem exists_toList {scene : Scene (TrackedQueue E) E} (h : Readable scene) :
    ∃ after, toList scene = .ok (listed scene) after ∧
      after.value.content.order = scene.value.content.order := by
  obtain ⟨mid, hload⟩ := exists_ensureLoaded h
  have hidle := idle_ensureLoaded scene
  rw [stateAfter_of_ok hload] at hidle
  have hcontinues := hidle.continues
  suffices hread : ∃ es after, toList scene = .ok es after ∧ after.value = mid.value by
    obtain ⟨es, after, hlist, hvalue⟩ := hread
    exact ⟨after, eq_listed_of_toList hlist ▸ hlist, by rw [hvalue, hcontinues.order]⟩
  cases huse : scene.value.content.useCache with
  | true =>
    refine ⟨mid.value.content.elements, mid, ?_, rfl⟩
    unfold toList
    rw [bind_apply, hload]
    exact readEither_of_memory (fun _ => by rw [hcontinues.useCache, huse]; rfl) _ _
  | false =>
    obtain rfl : scene = mid := by
      rw [ensureLoaded_apply, huse] at hload
      cases hload
      rfl
    rw [toList_uncached huse]
    cases hchannel : scene.value.tracker.channel with
    | none => exact ⟨_, _, readEither_of_no_channel hchannel _ _ _, rfl⟩
    | some channel =>
      obtain ⟨name, owner⟩ := channel
      rw [readEither_of_channel hchannel, if_pos rfl]
      exact ⟨_, _, read_elements (h name owner hchannel) owner, rfl⟩

/-! ### From looks to notices -/

/-- A queue has worked since a start, and not told its owner so far. -/
structure Working (start scene : Scene (TrackedQueue E) E) : Prop where
  tracker : scene.value.tracker = start.value.tracker
  session : start.session.Unmarked scene.session

/-- A queue has told its owner, and done nothing more. -/
structure Notified (start scene : Scene (TrackedQueue E) E) : Prop where
  tracker : scene.value.tracker = start.value.tracker
  session : ∃ mid, start.session.Unmarked mid ∧ scene.session = start.value.tracker.changed mid

/-- An action leads from scenes with one property to scenes with another one; where it fails, the
queue has been idle since the start. -/
def Leads (start : Scene (TrackedQueue E) E) (P : Scene (TrackedQueue E) E → Prop)
    (action : Action E α) (Q : α → Scene (TrackedQueue E) E → Prop) : Prop :=
  ∀ scene, P scene →
    match action scene with
    | .ok answer after => Q answer after
    | .error _ after => Idle start after

variable {start : Scene (TrackedQueue E) E} {P : Scene (TrackedQueue E) E → Prop}

/-- An idle queue may begin to work. -/
theorem Idle.working {scene : Scene (TrackedQueue E) E} (h : Idle start scene) :
    Working start scene :=
  ⟨h.tracker, h.session.called.unmarked⟩

namespace Leads

variable {Q : α → Scene (TrackedQueue E) E → Prop}

/-- One action after the other. -/
theorem bind {R : β → Scene (TrackedQueue E) E → Prop} {action : Action E α}
    {next : α → Action E β} (h : Leads start P action Q)
    (hnext : ∀ a, Leads start (Q a) (next a) R) : Leads start P (action >>= next) R := by
  intro scene hscene
  have hmid := h scene hscene
  rw [bind_apply]
  cases haction : action scene with
  | error failure mid =>
    rw [haction] at hmid
    exact hmid
  | ok a mid =>
    rw [haction] at hmid
    exact hnext a mid hmid

/-- Answering. -/
theorem pure {a : α} (h : ∀ scene, P scene → Q a scene) : Leads start P (Pure.pure a) Q :=
  fun scene hscene => h scene hscene

/-- A choice. -/
theorem ite {c : Prop} [Decidable c] {first second : Action E α} (h : Leads start P first Q)
    (h' : Leads start P second Q) : Leads start P (if c then first else second) Q := by
  split
  · exact h
  · exact h'

/-- What an action promises may be weakened. -/
theorem mono {R : α → Scene (TrackedQueue E) E → Prop} {action : Action E α}
    (h : Leads start P action Q) (hanswers : ∀ a scene, Q a scene → R a scene) :
    Leads start P action R := by
  intro scene hscene
  have hafter := h scene hscene
  cases haction : action scene with
  | error failure after =>
    rw [haction] at hafter
    exact hafter
  | ok a after =>
    rw [haction] at hafter
    exact hanswers a after hafter

/-- What is done by a queue at work may be done by one that was idle. -/
theorem of_working {action : Action E α} (h : Leads start (Working start) action Q) :
    Leads start (Idle start) action Q := fun scene hscene => h scene hscene.working

/-- An action that leaves every queue idle. -/
theorem of_idle {action : Action E α} (h : ∀ scene, Idle scene (stateAfter action scene)) :
    Leads start (Idle start) action fun _ => Idle start := by
  intro scene hscene
  have hidle := hscene.trans (h scene)
  unfold stateAfter at hidle
  cases haction : action scene with
  | error failure after => rwa [haction] at hidle
  | ok a after => rwa [haction] at hidle

/-- Looking at the queue. -/
theorem current : Leads start P (current (E := E)) fun _ => P := fun _ hscene => hscene

/-- Looking at the content. -/
theorem content? : Leads start P (Tracked.content? : Action E (QueueContent E)) fun _ => P :=
  fun _ hscene => hscene

/-- Looking at the tracker. -/
theorem tracker? : Leads start P (Tracked.tracker? : Action E Tracker) fun _ => P :=
  fun _ hscene => hscene

/-- A check. -/
theorem require (checked : Except Failure Unit) :
    Leads start (Idle start) (Tracked.require checked : Action E Unit) fun _ => Idle start := by
  apply of_idle
  intro scene
  cases checked with
  | ok answer => exact .refl scene
  | error failure => exact .refl scene

/-- Replacing the content. -/
theorem setContent (content : QueueContent E) :
    Leads start (Working start) (Tracked.setContent content : Action E Unit)
      fun _ => Working start := fun _ hscene => ⟨hscene.tracker, hscene.session⟩

/-- Replacing the elements in memory. -/
theorem setElements (es : List E) :
    Leads start (Working start) (setElements es) fun _ => Working start :=
  content?.bind fun _ => setContent _

/-- Making a change in the store. -/
theorem forward (operation : String) (action : ObjectId → StoreAction E α) :
    Leads start (Working start) (forward operation action) fun _ => Working start := by
  intro scene hscene
  refine ⟨hscene.tracker, hscene.session.trans ?_⟩
  change scene.session.Unmarked (scene.value.tracker.forward operation action scene.session).2
  unfold Tracker.forward
  split
  · exact Tracker.unmarked_call _ operation action _
  · exact .refl _
  · exact .refl _

/-- An answer that is ignored does not matter. -/
theorem discard {action : Action E α} {Q : Scene (TrackedQueue E) E → Prop}
    (h : Leads start P action fun _ => Q) :
    Leads start P (Functor.discard action) fun _ => Q := by
  intro scene hscene
  have hafter := h scene hscene
  rw [discard_apply]
  cases haction : action scene with
  | error failure after =>
    rw [haction] at hafter
    exact hafter
  | ok a after =>
    rw [haction] at hafter
    exact hafter

/-- Telling the owner of a change. -/
theorem changed : Leads start (Working start) (changed (E := E)) fun _ => Notified start :=
  fun scene hscene => ⟨hscene.tracker, scene.session, hscene.session, by rw [← hscene.tracker]⟩

/-- Reporting a change. -/
theorem announce [DecidableEq E] (report : Report E) :
    Leads start (Working start) (announce report) fun _ => Working start :=
  fun scene hscene => ⟨hscene.tracker,
    hscene.session.trans (Tracker.unmarked_announce scene.value.tracker report scene.session)⟩

end Leads

/-! ### The calls of a queue -/

section Calls

variable [DecidableEq E]

/-- Adding without asking for null elements. -/
theorem leads_addUnchecked (operation : String)
    (store : ObjectId → Option Nat → StoreAction E Bool) (new : List E) :
    Leads start (Idle start) (addUnchecked operation store new) fun _ => Notified start := by
  refine (Leads.of_idle idle_ensureLoaded).bind fun _ => Leads.current.bind fun _ => .of_working ?_
  exact (Leads.forward _ _).bind fun _ => (Leads.setElements _).bind fun _ =>
    (Leads.announce _).bind fun _ => Leads.changed.bind fun _ => .pure fun _ h => h

/-- Removing the head. -/
theorem leads_poll : Leads start (Idle start) (poll (E := E)) fun _ => Notified start := by
  refine (Leads.of_idle idle_ensureLoaded).bind fun _ => Leads.current.bind fun _ => .of_working ?_
  exact (Leads.setElements _).bind fun _ => (Leads.forward _ _).bind fun _ =>
    (Leads.announce _).bind fun _ => Leads.changed.bind fun _ => .pure fun _ h => h

omit [DecidableEq E] in
private theorem leads_choice {c : Prop} [Decidable c] {first second : Action E α}
    {next : α → Action E β} {Q : β → Scene (TrackedQueue E) E → Prop}
    (h : Leads start P first fun _ => Idle start) (h' : Leads start P second fun _ => Idle start)
    (hnext : ∀ a, Leads start (Working start) (next a) Q) :
    Leads start P (if c then first >>= next else second >>= next) Q :=
  .ite (h.bind fun a => (hnext a).of_working) (h'.bind fun a => (hnext a).of_working)

/-- Removing one occurrence of an element. -/
theorem leads_removeWith (e : E) (cascade : Bool) :
    Leads start (Idle start) (removeWith e cascade) fun _ => Notified start := by
  refine (Leads.of_idle idle_ensureLoaded).bind fun _ => Leads.current.bind fun q => ?_
  refine leads_choice (.pure fun _ h => h) ?_ fun _ => ?_
  · exact Leads.current.bind fun _ => .of_idle <|
      idle_readEither _ (fun _ => Store.onlyReads_reading rfl _) _
  · exact (Leads.setElements _).bind fun _ => (Leads.forward _ _).bind fun _ =>
      (Leads.announce _).bind fun _ => Leads.changed.bind fun _ => .pure fun _ h => h

/-- Removing every occurrence of listed elements. -/
theorem leads_removeListed (doomed : List E) :
    Leads start (Idle start) (removeListed doomed) fun _ => Notified start := by
  refine (Leads.of_idle idle_ensureLoaded).bind fun _ => Leads.current.bind fun q => ?_
  refine leads_choice (.pure fun _ h => h) ?_ fun _ => ?_
  · exact .of_idle (idle_readEither true Store.onlyReads_elements _)
  · exact (Leads.setElements _).bind fun _ => (Leads.announce _).bind fun _ =>
      (Leads.forward _ _).bind fun _ => Leads.changed.bind fun _ => .pure fun _ h => h

/-- Removing everything. -/
theorem leads_clear : Leads start (Idle start) (clear (E := E)) fun _ => Notified start := by
  refine Leads.of_working ?_
  exact Leads.content?.bind fun _ => (Leads.setContent _).bind fun _ => (Leads.announce _).bind
    fun _ => (Leads.forward _ _).discard.bind fun _ => Leads.changed

/-- A queue told its owner, or answers that nothing changed and was idle. -/
def NotifiedOrIdle (start : Scene (TrackedQueue E) E) (answer : Bool)
    (after : Scene (TrackedQueue E) E) : Prop :=
  Notified start after ∨ answer = false ∧ Idle start after

/-- Removing every occurrence of listed elements, unless none is listed. -/
theorem leads_removeAll (es : List E) :
    Leads start (Idle start) (removeAll es) (NotifiedOrIdle start) :=
  .ite (.pure fun _ h => .inr ⟨rfl, h⟩) ((leads_removeListed es).mono fun _ _ h => .inl h)

omit [DecidableEq E] in
/-- Listing the elements leaves a queue idle. -/
theorem leads_toList : Leads start (Idle start) (toList (E := E)) fun _ => Idle start :=
  (Leads.of_idle idle_ensureLoaded).bind fun _ => Leads.content?.bind fun _ =>
    .of_idle (idle_readEither _ Store.onlyReads_elements _)

/-- Keeping the occurrences of listed elements only. -/
theorem leads_retainAll (keep : List E) :
    Leads start (Idle start) (retainAll keep) (NotifiedOrIdle start) :=
  leads_toList.bind fun _ => Leads.current.bind fun _ =>
    .ite (.pure fun _ h => .inr ⟨rfl, h⟩) ((leads_removeListed _).mono fun _ _ h => .inl h)

variable [Element E]

/-- Adding an element. -/
theorem leads_add (e : E) : Leads start (Idle start) (add e) fun _ => Notified start :=
  Leads.tracker?.bind fun _ => (Leads.require _).bind fun _ => leads_addUnchecked "add" _ [e]

/-- Adding several elements, unless there are none. -/
theorem leads_addAll (new : List E) :
    Leads start (Idle start) (addAll new) (NotifiedOrIdle start) :=
  Leads.tracker?.bind fun _ => (Leads.require _).bind fun _ =>
    .ite (.pure fun _ h => .inr ⟨rfl, h⟩)
      ((leads_addUnchecked "add-all" _ new).mono fun _ _ h => .inl h)

end Calls

end TrackedFields.TrackedQueue
