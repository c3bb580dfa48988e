import TrackedFields.Proofs.Session.Reads
import TrackedFields.Proofs.TrackedQueue.InvariantsOfCalls

/-!
# Loading at most once

A queue that keeps its content in memory, over a store that rejects no read, reads the whole
container of the store at most once, whatever is called on it and flushed in between. Once it holds
all its elements it goes on doing so, and reads nothing any more. If it is emptied, or given its
value, before anything has loaded it, it never reads the container at all.
-/

namespace TrackedFields

/-- Whether a session was asked to read a whole container. -/
def Effect.isLoad {E : Type} : Effect E → Bool
  | .called _ .elements => true
  | _ => false

/-- How many times a session was asked to read a whole container. -/
def Session.loads {E : Type} (s : Session E) : Nat := s.journal.countP Effect.isLoad

/-- What is no read does not read a whole container. -/
theorem Effect.not_isLoad_of_not_isRead {E : Type} {effect : Effect E}
    (h : effect.isRead = false) : effect.isLoad = false := by
  cases effect with
  | called name call =>
    cases call with
    | elements => cases h
    | _ => rfl
  | _ => rfl

/-- To ask for sizes is not to read whole containers. -/
theorem Session.OnlySizes.not_isLoad {E : Type} {effect : Effect E} (h : OnlySizes effect) :
    effect.isLoad = false := by
  cases hread : effect.isRead with
  | false => exact effect.not_isLoad_of_not_isRead hread
  | true =>
    obtain ⟨name, rfl⟩ := h hread
    rfl

/-- Without reading whole containers, their count stays. -/
theorem Session.Logged.loads {E : Type} {s after : Session E}
    (h : s.Logged (·.isLoad = false) after) : after.loads = s.loads := by
  obtain ⟨effects, hjournal, hall⟩ := h
  have hnone : effects.countP Effect.isLoad = 0 := by
    rw [List.countP_eq_zero]
    intro effect hmem
    rw [hall effect hmem]
    exact Bool.false_ne_true
  rw [Session.loads, hjournal, List.countP_append, hnone, Nat.add_zero, Session.loads]

/-- A flush reads no whole container. -/
theorem Session.logged_flush_sizes {E : Type} [DecidableEq E] (default : Option StoreName)
    (s : Session E) : s.Logged OnlySizes (stateAfter (flush default) s) :=
  (s.logged_flush default).elim Logged.onlySizes StuckAtRemoval.reads

/-- The store of a container is called for its owner. -/
theorem Tracker.channel_backed (o : Owner) (settings : Settings) (store : Option StoreName) :
    (Tracker.backed o settings store).channel = store.map (·, o.id) := by
  cases store with
  | none => rfl
  | some name =>
    unfold backed channel
    cases settings.delayDatastoreOperations <;> rfl

namespace TrackedQueue

variable {E α : Type} [DecidableEq E] [Element E]

omit [DecidableEq E] [Element E] in
/-- A fresh queue calls the store that its owner has for it. -/
theorem channel_owned {o : Owner} {order : Comparator E} {session : Session E} {name : StoreName}
    {owner : ObjectId} (h : (owned o order session).tracker.channel = some (name, owner)) :
    Tracker.storeFor o session = some name ∧ owner = o.id := by
  change (Tracker.backed o session.settings (Tracker.storeFor o session)).channel = _ at h
  rw [Tracker.channel_backed] at h
  obtain ⟨store, hstore, hpair⟩ := Option.map_eq_some_iff.mp h
  cases hpair
  exact ⟨hstore, rfl⟩

/-! ### Loads are counted -/

omit [DecidableEq E] [Element E] in
/-- A queue that keeps its content in memory, with a store that rejects no read. Since an earlier
moment whole containers were read at most once, and not at all if the queue is not loaded. -/
structure LoadsOnce (before : Session E) (scene : Scene (TrackedQueue E) E) : Prop where
  useCache : scene.value.content.useCache = true
  readable : Readable scene
  loads : scene.session.loads ≤ before.loads + if scene.value.content.loaded then 1 else 0
  grows : before.loads ≤ scene.session.loads

variable {before : Session E} {scene after : Scene (TrackedQueue E) E}

omit [DecidableEq E] [Element E] in
/-- For a fresh queue, no whole container was read. -/
theorem LoadsOnce.fresh {o : Owner} (order : Comparator E) {session : Session E}
    (hcache : session.settings.usesCache o.descriptor = true)
    (hreads : ∀ name, Tracker.storeFor o session = some name →
      (session.store name).reads = .never) :
    LoadsOnce session { value := owned o order session, session } where
  useCache := hcache
  readable name _ hchannel := hreads name (channel_owned hchannel).1
  loads := Nat.le_add_right _ _
  grows := Nat.le_refl _

omit [DecidableEq E] [Element E] in
/-- What reads no whole container does not count. -/
theorem LoadsOnce.next (h : LoadsOnce before scene) (hreadable : Readable after)
    (huse : after.value.content.useCache = scene.value.content.useCache)
    (hloaded : scene.value.content.loaded = true → after.value.content.loaded = true)
    (hlogged : scene.session.Logged (·.isLoad = false) after.session) :
    LoadsOnce before after := by
  refine ⟨huse.trans h.useCache, hreadable, ?_, ?_⟩
  · rw [hlogged.loads]
    refine h.loads.trans (Nat.add_le_add_left ?_ _)
    split
    · next hwas => rw [hloaded hwas, if_pos rfl]
    · exact Nat.zero_le _
  · rw [hlogged.loads]
    exact h.grows

omit [DecidableEq E] [Element E] in
/-- For a queue that is not loaded, no whole container was read. -/
theorem LoadsOnce.loads_eq (h : LoadsOnce before scene)
    (hloaded : scene.value.content.loaded = false) : scene.session.loads = before.loads := by
  have hloads := h.loads
  rw [hloaded, if_neg Bool.false_ne_true, Nat.add_zero] at hloads
  exact Nat.le_antisymm hloads h.grows

omit [DecidableEq E] [Element E] in
/-- A store that rejects no read goes on doing so after a call that keeps it from that. -/
theorem Readable.afterCalls (h : Readable scene) {name : StoreName} {store : Store E}
    (hstore : (scene.session.store name).reads = .never → store.reads = .never) :
    Readable { scene with session := scene.session.afterCalls name store } := by
  intro other owner hchannel
  have hreads := h other owner hchannel
  change ((scene.session.afterCalls name store).store other).reads = _
  rw [Session.store_afterCalls]
  split
  · next hother =>
    rw [hother] at hreads
    exact hstore hreads
  · exact hreads

omit [DecidableEq E] [Element E] in
/-- Loading counts once. -/
theorem loadsOnce_loadFromStore : Keeps (LoadsOnce before) (loadFromStore (E := E)) := by
  intro scene h
  rcases loadFromStore_skips_or_awaits scene with hskip | ⟨name, owner, hchannel, hloaded⟩
  · rwa [stateAfter_of_ok hskip]
  · have hreads := h.readable name owner hchannel
    have hloads : (scene.session.afterCalls name (scene.session.store name).iterated).loads =
        scene.session.loads + 1 := by
      have hdrop : ((scene.session.store name).iterated.calls.drop
          (scene.session.store name).calls.length) = [.elements] := List.drop_left
      unfold Session.loads Session.afterCalls
      rw [hdrop]
      exact List.countP_append
    have hreadable : Readable { scene with
        session := scene.session.afterCalls name (scene.session.store name).iterated } := by
      refine h.readable.afterCalls fun hnever => ?_
      change (scene.session.store name).reads.next = _
      rw [hnever]
      rfl
    rw [stateAfter_of_ok (loadFromStore_of_read hchannel hloaded (read_elements hreads owner))]
    refine ⟨h.useCache, hreadable, ?_, ?_⟩
    · rw [hloads, h.loads_eq hloaded]
      exact Nat.le_refl _
    · rw [hloads]
      exact h.grows.trans (Nat.le_succ _)

omit [Element E] in
/-- Looking at a part of the store reads no whole container. -/
theorem LoadsOnce.look (h : LoadsOnce before scene) {name : StoreName}
    {action : ObjectId → StoreAction E α} (hlook : StoreLook false action) (owner : ObjectId) :
    LoadsOnce before (stateAfter (read name (action owner)) scene) := by
  have hreading : ∃ call answer, call ≠ StoreCall.elements ∧
      action owner = Store.reading call answer := by
    cases hlook with
    | size => exact ⟨.size, fun st => (st.contents owner).length, nofun, rfl⟩
    | contains e => exact ⟨.contains e, fun st => (st.contents owner).contains e, nofun, rfl⟩
    | get position => exact ⟨.get position, fun st => (st.contents owner)[position]?, nofun, rfl⟩
  obtain ⟨call, answer, hcall, haction⟩ := hreading
  rw [haction, stateAfter_read]
  refine h.next (h.readable.afterCalls fun hnever => ?_) rfl id ?_
  · rw [Store.reads_reading, hnever]
    rfl
  · have hheard : (scene.session.store name).Heard (· ≠ .elements)
        (stateAfter (Store.reading call answer) (scene.session.store name)) :=
      (Store.Heard.refl _).concat hcall (Store.calls_reading call answer _)
    refine .afterCalls hheard fun call hcall => ?_
    cases call with
    | elements => exact absurd rfl hcall
    | _ => rfl

/-- Loads are counted through every call. -/
theorem invariant_loadsOnce : Invariant (fun _ => True) (LoadsOnce (E := E) before) where
  elements _ _ _ := trivial
  stored _ _ _ _ := trivial
  checked _ _ := trivial
  load := loadsOnce_loadFromStore
  look {scene name owner whole _ action} h hlook _ _ hwhole := by
    cases whole with
    | false => exact h.look hlook owner
    | true =>
      rw [h.useCache] at hwhole
      cases hwhole rfl
  setContent _ h hcontinues _ :=
    h.next h.readable hcontinues.useCache hcontinues.loaded (.of_journal_eq rfl)
  asks h hasks := by
    refine h.next (fun name owner hchannel => ?_) rfl id ?_
    · exact hasks.reads (h.readable name owner hchannel)
    · exact hasks.logged.mono fun _ => Effect.not_isLoad_of_not_isRead

omit [DecidableEq E] [Element E] in
/-- Without owner, there is no store to load from. -/
theorem loadsOnce_unsetOwner : Keeps (LoadsOnce before) (cut Tracked.unsetOwner : Action E Unit) :=
  fun _ h => h.next nofun rfl id (.of_journal_eq rfl)

/-- Loads are counted through every run. -/
theorem LoadsOnce.run {takes : List E → Prop} (h : LoadsOnce before scene)
    (hrun : Relation.ReflTransGen (Tracked.Step (Admits takes)) scene after) :
    LoadsOnce before after := by
  induction hrun with
  | refl => exact h
  | @tail mid _ _ step ih =>
    cases step with
    | call hcall =>
      exact invariant_loadsOnce.admits loadsOnce_unsetOwner (fun _ _ _ _ => trivial) hcall mid ih
    | flush default =>
      refine ih.next (fun name owner hchannel => ?_) rfl id ?_
      · exact Session.reads_flush default mid.session (ih.readable name owner hchannel)
      · exact (Session.logged_flush_sizes default mid.session).mono fun _ =>
          Session.OnlySizes.not_isLoad
    | lifecycle entities => exact ih.next ih.readable rfl id (.of_journal_eq rfl)

/-! ### Loaded queues read nothing -/

omit [DecidableEq E] [Element E] in
/-- A loaded queue that keeps its content in memory. Since an earlier moment, nothing was asked of
its session but what is allowed. -/
structure Complete (allowed : Effect E → Prop) (before : Session E)
    (scene : Scene (TrackedQueue E) E) : Prop where
  useCache : scene.value.content.useCache = true
  loaded : scene.value.content.loaded = true
  logged : before.Logged allowed scene.session

variable {allowed : Effect E → Prop}

omit [DecidableEq E] [Element E] in
/-- A queue that a run has loaded is complete from then on. -/
theorem LoadsOnce.complete (h : LoadsOnce before scene)
    (hloaded : scene.value.content.loaded = true) : Complete allowed scene.session scene :=
  ⟨h.useCache, hloaded, .of_journal_eq rfl⟩

omit [DecidableEq E] [Element E] in
/-- A complete queue holds all its elements in memory. -/
theorem Complete.isAuthoritative (h : Complete allowed before scene) :
    scene.value.isAuthoritative = true := by
  rw [TrackedQueue.isAuthoritative, h.useCache, h.loaded, Bool.and_self, Bool.or_true]

omit [DecidableEq E] [Element E] in
/-- A queue stays complete as long as nothing else is asked. -/
theorem Complete.next (h : Complete allowed before scene)
    (hcontinues : scene.value.content.Continues after.value.content)
    (hlogged : scene.session.Logged allowed after.session) : Complete allowed before after :=
  ⟨hcontinues.useCache.trans h.useCache, hcontinues.loaded h.loaded, h.logged.trans hlogged⟩

/-- A complete queue stays complete through every call, and the call reads nothing. -/
theorem invariant_complete
    (hallowed : ∀ effect : Effect E, effect.isRead = false → allowed effect) :
    Invariant (fun _ => True) (Complete (E := E) allowed before) where
  elements _ _ _ := trivial
  stored _ _ _ _ := trivial
  checked _ _ := trivial
  load scene h := by rwa [stateAfter_of_ok (loadFromStore_of_whole h.isAuthoritative)]
  look h _ _ hpart _ := by
    rw [h.isAuthoritative] at hpart
    cases hpart
  setContent _ h hcontinues _ := h.next hcontinues (.of_journal_eq rfl)
  asks h hasks := h.next ⟨rfl, rfl, id⟩ (hasks.logged.mono hallowed)

omit [DecidableEq E] [Element E] in
/-- A complete queue stays complete without owner. -/
theorem complete_unsetOwner :
    Keeps (Complete allowed before) (cut Tracked.unsetOwner : Action E Unit) :=
  fun _ h => h.next ⟨rfl, rfl, id⟩ (.of_journal_eq rfl)

/-- A complete queue stays complete through every call that it admits. -/
theorem Complete.call (h : Complete allowed before scene)
    (hallowed : ∀ effect : Effect E, effect.isRead = false → allowed effect)
    {takes : List E → Prop} {action : Action E α} (hadmits : Admits takes action) :
    Complete allowed before (stateAfter action scene) :=
  (invariant_complete hallowed).admits complete_unsetOwner (fun _ _ _ _ => trivial) hadmits scene h

/-- A complete queue stays complete through every run; flushes may ask for sizes. -/
theorem Complete.run (h : Complete allowed before scene)
    (hallowed : ∀ effect : Effect E, Session.OnlySizes effect → allowed effect)
    {takes : List E → Prop}
    (hrun : Relation.ReflTransGen (Tracked.Step (Admits takes)) scene after) :
    Complete allowed before after := by
  have hquiet (effect : Effect E) (hread : effect.isRead = false) : allowed effect :=
    hallowed effect fun hnot => by rw [hread] at hnot; cases hnot
  induction hrun with
  | refl => exact h
  | @tail mid _ _ step ih =>
    cases step with
    | call hcall => exact ih.call hquiet hcall
    | flush default =>
      exact ih.next ⟨rfl, rfl, id⟩ ((Session.logged_flush_sizes default mid.session).mono hallowed)
    | lifecycle entities => exact ih.next ⟨rfl, rfl, id⟩ (.of_journal_eq rfl)

/-! ### Calls that need no load -/

/-- What a queue is asked without loading it and without changing it. -/
inductive Passive : {α : Type} → Action E α → Prop where
  | length : Passive length
  | isEmpty : Passive isEmpty
  | contains (e : E) : Passive (contains e)
  | look {α : Type} (question : TrackedQueue E → α) : Passive (look question)
  | updateEmbedded (e : E) (field : FieldOrdinal) (dirty : Bool) :
      Passive (updateEmbedded e field dirty)
  | makeDirty : Passive Tracked.makeDirty
  | unsetOwner : Passive (cut Tracked.unsetOwner)

/-- What a queue is asked without changing it is offered. -/
theorem Passive.admits {action : Action E α} (h : Passive action)
    (takes : List E → Prop) : Admits takes action := by
  cases h with
  | length => exact .ordinary .length
  | isEmpty => exact .ordinary .isEmpty
  | contains e => exact .ordinary (.contains e)
  | look question => exact .look question
  | updateEmbedded e field dirty => exact .ordinary (.updateEmbedded e field dirty)
  | makeDirty => exact .ordinary .makeDirty
  | unsetOwner => exact .unsetOwner

omit [Element E] in
/-- What a queue is asked without changing it leaves its content as it is. -/
theorem Passive.content_eq {action : Action E α} (h : Passive action)
    (scene : Scene (TrackedQueue E) E) :
    (stateAfter action scene).value.content = scene.value.content := by
  have hread {β : Type} (fromStore : Bool) (action : ObjectId → StoreAction E β)
      (fromMemory : QueueContent E → β) :
      (stateAfter (readEither fromStore action fromMemory) scene).value.content =
        scene.value.content := by
    cases hchannel : scene.value.tracker.channel with
    | none =>
      rw [stateAfter_of_ok (readEither_of_no_channel hchannel fromStore action fromMemory)]
    | some channel =>
      obtain ⟨name, owner⟩ := channel
      unfold stateAfter
      rw [readEither_of_channel hchannel fromStore action fromMemory]
      cases fromStore with
      | true =>
        change (stateAfter (read name (action owner)) scene).value.content = _
        rw [stateAfter_read]
      | false => rfl
  have hlength : (stateAfter TrackedQueue.length scene).value.content = scene.value.content :=
    hread (!scene.value.isAuthoritative) Store.size (·.elements.length)
  cases h with
  | length => exact hlength
  | isEmpty =>
    unfold TrackedQueue.isEmpty
    rw [stateAfter_bind]
    unfold stateAfter at hlength
    cases hanswer : TrackedQueue.length scene <;> rwa [hanswer] at hlength
  | contains e =>
    exact hread (!scene.value.isAuthoritative) (Store.contains · e) (·.elements.contains e)
  | updateEmbedded e field dirty => cases dirty <;> rfl
  | _ => rfl

/-- What gives a queue a value that it need not load. -/
inductive Seeds : {α : Type} → Action E α → Prop where
  | clear : Seeds clear
  | initialiseFrom (es : List E) : Seeds (initialiseFrom es)
  | initialiseWith (es : List E) : Seeds (initialiseWith es)

/-- A queue that was given its value is complete, and nothing was read for it. -/
theorem Seeds.complete {action : Action E α} (h : Seeds action)
    (huse : scene.value.content.useCache = true) :
    Complete (·.isRead = false) scene.session (stateAfter action scene) := by
  have hkit : Invariant (fun _ => True) (Complete (E := E) (·.isRead = false) scene.session) :=
    invariant_complete fun _ h => h
  cases h with
  | clear =>
    have hempty : Complete (·.isRead = false) scene.session { scene with
        value := { scene.value with
          content := { scene.value.content with
            elements := []
            loaded := scene.value.content.loaded || scene.value.content.useCache } } } :=
      ⟨huse, by rw [huse, Bool.or_true], .of_journal_eq rfl⟩
    exact ((hkit.announce fun _ _ _ _ => trivial).bind fun _ =>
      (hkit.forward "clear" .clear).discard.bind fun _ => hkit.changed) _ hempty
  | initialiseFrom es =>
    refine ⟨huse, ?_, .of_journal_eq rfl⟩
    change (scene.value.content.loaded || scene.value.content.useCache) = true
    rw [huse, Bool.or_true]
  | initialiseWith es =>
    have hclear : Store.Write (fun _ : E => True) Store.clear := .clear
    rw [stateAfter_of_ok (initialiseWith_apply es scene)]
    refine ⟨huse, rfl, Session.Logged.trans ?_ (Tracker.logged_markDirty _ _)⟩
    split
    · exact ((Tracker.logged_enqueue _ _ _).trans
        (Tracker.logged_forward _ "clear" hclear _)).trans
          (Tracker.logged_forward _ "add-all" (.addAll es _ fun _ _ => trivial) _)
    · exact .of_journal_eq rfl

/-- A queue that is given its value before anything has loaded it never reads a whole container. -/
theorem LoadsOnce.seeded {start mid : Scene (TrackedQueue E) E} (h : LoadsOnce before start)
    (hloaded : start.value.content.loaded = false)
    (hquiet : Relation.ReflTransGen (Tracked.Step Passive) start mid) {action : Action E α}
    (hseeds : Seeds action) {takes : List E → Prop}
    (hrun : Relation.ReflTransGen (Tracked.Step (Admits takes)) (stateAfter action mid) after) :
    after.session.loads = before.loads := by
  have hoffered (now next : Scene (TrackedQueue E) E) (step : Tracked.Step Passive now next) :
      Tracked.Step (Admits takes) now next := step.mono fun hcall => hcall.admits takes
  have hmid : LoadsOnce before mid := h.run (Relation.ReflTransGen.mono hoffered _ _ hquiet)
  have hwaits : mid.value.content.loaded = false := by
    clear hmid hrun
    induction hquiet with
    | refl => exact hloaded
    | @tail mid _ _ step ih =>
      cases step with
      | call hcall => rwa [Passive.content_eq hcall mid]
      | flush default => exact ih
      | lifecycle entities => exact ih
  have hseeded := hseeds.complete hmid.useCache
  have hcomplete : Complete (·.isLoad = false) mid.session (stateAfter action mid) :=
    ⟨hseeded.useCache, hseeded.loaded,
      hseeded.logged.mono fun _ => Effect.not_isLoad_of_not_isRead⟩
  have hend := hcomplete.run (fun _ => Session.OnlySizes.not_isLoad) hrun
  exact hend.logged.loads.trans (hmid.loads_eq hwaits)

end TrackedQueue

end TrackedFields
