import TrackedFields.Proofs.Tracked.Reconcilable
import TrackedFields.Proofs.Tracked.Relates
import TrackedFields.Proofs.TrackedQueue.Served
import TrackedFields.Proofs.TrackedQueue.SilentLoading
import TrackedFields.Proofs.TrackedQueue.TrackerIndependence

/-!
# What reconciling makes of a queue

A queue that holds all its elements in memory is left with what reconciling makes of them. A queue
that goes by its store lists what the store holds, and passes on the removals of what the target
lacks and the additions of what the store lacks.
-/

namespace TrackedFields

namespace TrackedQueue

variable {E : Type} [DecidableEq E] [Element E] {target shown : List E}
  {scene mid after : Scene (TrackedQueue E) E}

/-- Adding an element that is accepted goes by without a check. -/
theorem add_of_accepted (h : scene.value.tracker.Accepts target) {e : E} (he : e ∈ target) :
    add e scene = addUnchecked "add" (Store.add · e ·) [e] scene := by
  change (Tracked.require (scene.value.tracker.check e) >>= fun _ =>
    addUnchecked "add" (Store.add · e ·) [e]) scene = _
  rw [h.check he]
  rfl

/-! ### Queues that hold all their elements in memory -/

omit [DecidableEq E] [Element E] in
/-- A queue that has no store, or keeps its content in memory, is whole once it has listed its
elements. -/
theorem exists_whole (hreads : Readable scene)
    (hmemory : scene.value.content.useCache = true ∨ scene.value.hasStore = false) :
    ∃ mid, toList scene = .ok (listed scene) mid ∧ mid.value.isAuthoritative = true ∧
      mid.value.content.elements = listed scene ∧ mid.value.tracker = scene.value.tracker := by
  obtain ⟨mid, hload⟩ := exists_ensureLoaded hreads
  have hidle := idle_ensureLoaded scene
  rw [stateAfter_of_ok hload] at hidle
  have hwhole : mid.value.isAuthoritative = true := by
    unfold isAuthoritative hasStore
    rw [hidle.tracker]
    cases hstore : scene.value.hasStore with
    | false =>
      unfold hasStore at hstore
      rw [hstore]
      rfl
    | true =>
      have huse := hmemory.resolve_right (by rw [hstore]; exact Bool.noConfusion)
      rw [ensureLoaded_apply, if_pos huse] at hload
      rw [hidle.continues.useCache, huse, loaded_of_loadFromStore hstore hload]
      exact Bool.or_true _
  have hlist : toList scene = .ok mid.value.content.elements mid := by
    have hwhole' := toList_of_whole hwhole mid.session
    unfold toList at hwhole' ⊢
    rw [bind_apply, ensureLoaded_of_whole hwhole] at hwhole'
    rw [bind_apply, hload]
    exact hwhole'
  have helements := eq_listed_of_toList hlist
  exact ⟨mid, helements ▸ hlist, hwhole, helements, hidle.tracker⟩

/-- A whole queue that goes through removals and additions. -/
structure Shuffled (scene : Scene (TrackedQueue E) E) (gone new : List E)
    (after : Scene (TrackedQueue E) E) : Prop where
  tracker : after.value.tracker = scene.value.tracker
  whole : after.value.isAuthoritative = true
  elements : after.value.content.elements.Perm
    (gone.foldl List.erase scene.value.content.elements ++ new)

namespace Shuffled

variable {gone new : List E} {e : E}

omit [Element E] in
/-- One more element leaves. -/
theorem removeWith (h : Shuffled scene gone [] mid) (e : E) :
    ∃ answer after, TrackedQueue.removeWith e false mid = .ok answer after ∧
      Shuffled scene (gone ++ [e]) [] after := by
  obtain ⟨answer, session, hremove⟩ := removeWith_of_whole h.whole mid.session e false
  refine ⟨answer, _, hremove, h.tracker, whole_with h.whole _ id, ?_⟩
  have hleft := h.elements.erase e
  rw [List.append_nil] at hleft ⊢
  rwa [List.foldl_append]

/-- One more element joins. -/
theorem add (h : Shuffled scene gone new mid) (haccepts : scene.value.tracker.Accepts target)
    (he : e ∈ target) :
    ∃ answer after, TrackedQueue.add e mid = .ok answer after ∧
      Shuffled scene gone (new ++ [e]) after := by
  obtain ⟨answer, session, hadd⟩ :=
    addUnchecked_of_whole h.whole mid.session "add" (Store.add · e ·) [e]
  rw [← h.tracker] at haccepts
  refine ⟨answer, _, (add_of_accepted haccepts he).trans hadd, h.tracker,
    whole_with h.whole _ id, ?_⟩
  have hjoined := h.elements.append_right [e]
  rw [List.append_assoc] at hjoined
  exact (Comparator.insertAll_perm _ _ _).trans hjoined

end Shuffled

/-- A queue that is whole once it has listed its elements is reconciled by what it lists. -/
theorem reconcile_of_whole (hlist : toList scene = .ok shown mid)
    (hwhole : mid.value.isAuthoritative = true) (hshown : mid.value.content.elements = shown)
    (haccepts : mid.value.tracker.Accepts target) :
    ∃ after : Scene (TrackedQueue E) E, Container.reconcile target scene = .ok () after ∧
      after.value.tracker = mid.value.tracker ∧ after.value.isAuthoritative = true ∧
      after.value.content.elements.Perm (reconciled target shown shown) := by
  have helements : Container.elements scene = .ok shown mid := hlist
  obtain ⟨after, hreconcile, htracker, hafter, hperm⟩ :=
    Container.reconcile_reaches helements (Shuffled mid)
      ⟨rfl, hwhole, by rw [List.foldl_nil, List.append_nil]⟩
      (fun _ e _ _ h => h.removeWith e)
      (fun _ e hinit _ h =>
        h.add haccepts (List.mem_filter.mp (hinit.subset (List.mem_concat_self))).1)
  rw [hshown] at hperm
  exact ⟨after, hreconcile, htracker, hafter, hperm⟩

/-! ### Queues that go by their stores -/

omit [DecidableEq E] [Element E] in
/-- A queue with a reliable store that does not keep its content in memory. -/
structure Fed (o : Owner) (name : StoreName) (scene : Scene (TrackedQueue E) E) : Prop where
  owner : scene.value.tracker.owner = some o
  feeds : scene.value.tracker.Feeds name
  useCache : scene.value.content.useCache = false
  reliable : (scene.session.store name).Reliable

variable {o : Owner} {name : StoreName} {relations : List (RelationChange E)}
  {kinds : List (OperationKind E)} {remaining : List E} {e : E}

omit [Element E] in
/-- A queue stays fed, whatever it passes on. -/
theorem Passes.fed (hpasses : Passes o name relations kinds remaining scene after)
    (h : Fed o name scene) : Fed o name after :=
  ⟨hpasses.tracker ▸ h.owner, hpasses.tracker ▸ h.feeds, hpasses.useCache.trans h.useCache,
    hpasses.sends.continues.reliable h.reliable⟩

namespace Fed

omit [DecidableEq E] [Element E] in
/-- The store of a fed queue. -/
theorem channel (h : Fed o name scene) : scene.value.tracker.channel = some (name, o.id) := by
  rcases h.feeds with hname | hname
  · rw [Tracker.channel, hname, h.owner]
  · rw [Tracker.channel, hname, h.owner]

omit [DecidableEq E] [Element E] in
/-- The elements in memory of a fed queue are not its full content. -/
theorem isAuthoritative (h : Fed o name scene) : scene.value.isAuthoritative = false := by
  rw [TrackedQueue.isAuthoritative, hasStore, h.channel, h.useCache]
  rfl

omit [DecidableEq E] [Element E] in
/-- A fed queue does not keep its content in memory. -/
theorem not_cached (h : Fed o name scene) : ¬ scene.value.content.useCache = true := by
  rw [h.useCache]
  exact Bool.false_ne_true

omit [DecidableEq E] [Element E] in
/-- A fed queue has nothing to load. -/
theorem ensureLoaded_eq (h : Fed o name scene) : ensureLoaded scene = .ok () scene := by
  rw [ensureLoaded_apply, h.useCache]
  rfl

omit [Element E] in
/-- A fed queue lists what its store holds. -/
theorem toList (h : Fed o name scene) : ∃ after,
    TrackedQueue.toList scene = .ok (held o name scene) after ∧
      Passes o name [] [] scene.value.content.elements scene after := by
  obtain ⟨s, hread, hsends⟩ : ∃ s, read name (Store.elements o.id) scene =
        .ok (held o name scene) { scene with session := s } ∧
      Session.Sends scene.value.tracker o name [] [] scene.session s :=
    exists_read_silent (silent_elements o.id) (Store.carries_elements h.reliable o.id)
  refine ⟨{ scene with session := s }, ?_, rfl, rfl, rfl, fun huse => ?_, rfl, hsends⟩
  · rw [toList_uncached h.useCache, readEither_of_channel h.channel, if_pos rfl, hread]
  · exact absurd huse h.not_cached

omit [Element E] in
/-- A fed queue finds what its store holds. -/
theorem exists_present (h : Fed o name scene) (he : e ∈ held o name scene) : ∃ s,
    contains e scene = .ok true { scene with session := s } ∧
      Session.Sends scene.value.tracker o name [] [] scene.session s := by
  obtain ⟨s, hread, hsends⟩ : ∃ s, read name (Store.contains o.id e) scene =
        .ok ((held o name scene).contains e) { scene with session := s } ∧
      Session.Sends scene.value.tracker o name [] [] scene.session s :=
    exists_read_silent (silent_reading (.contains e) _)
      (Store.carries_reading h.reliable o.id (.contains e) fun st => (st.contents o.id).contains e)
  rw [List.contains_iff_mem.mpr he] at hread
  refine ⟨s, ?_, hsends⟩
  unfold contains
  rw [bind_apply, current_apply]
  dsimp only
  rw [h.isAuthoritative, readEither_of_channel h.channel, Bool.not_false, if_pos rfl]
  exact hread

omit [Element E] in
/-- A fed queue passes the removal of an element on, if its store holds the element or changes are
made there right away. -/
theorem removeWith (h : Fed o name scene)
    (he : scene.value.tracker.isQueued = true → e ∈ held o name scene) :
    ∃ answer after relations remaining,
      TrackedQueue.removeWith e false scene = .ok answer after ∧
        Passes o name relations [.collectionRemove e false] remaining scene after := by
  have hload := h.ensureLoaded_eq
  have hpart := h.isAuthoritative
  have hpresent (hqueued : scene.value.tracker.isQueued = true) := h.exists_present (he hqueued)
  have hloaded : scene.value.content.useCache = true → scene.value.content.loaded = true :=
    fun huse => absurd huse h.not_cached
  obtain ⟨⟨t, content⟩, s⟩ := scene
  have howner : t.owner = some o := h.owner
  have hfeeds : t.Feeds name := h.feeds
  unfold TrackedQueue.removeWith
  cases hqueued : t.isQueued with
  | false =>
    obtain ⟨mid, hforward, hsends⟩ := Session.exists_forwarded howner hfeeds "remove"
      (Store.remove · e (hint ⟨t, content⟩) false)
      (Store.carries_remove h.reliable o.id e (hint ⟨t, content⟩) false)
    simp only [bind_apply, hload, current_apply, hqueued, Bool.not_false, Bool.or_true, if_true,
      pure_apply, setElements_apply, forward_apply hforward, announce_apply, changed_apply]
    exact ⟨_, _, _, _, rfl, .reported hloaded hsends howner rfl (by simp [hqueued])⟩
  | true =>
    have hname := hfeeds.queued hqueued
    by_cases hmem : content.elements.contains e = true
    · simp only [bind_apply, hload, current_apply, hmem, Bool.true_or, if_true, pure_apply,
        setElements_apply, forward_queued hname, announce_apply, changed_apply]
      exact ⟨_, _, _, _, rfl, .reported hloaded (.refl t o name s) howner rfl (by simp [hqueued])⟩
    · obtain ⟨s', hread, hsends⟩ := hpresent hqueued
      simp only [bind_apply, hload, current_apply, hmem, hpart, hqueued, Bool.or_false,
        Bool.not_true, Bool.false_eq_true, if_false, hread, pure_apply, setElements_apply,
        forward_queued hname, announce_apply, changed_apply]
      exact ⟨_, _, _, _, rfl, .reported hloaded hsends howner rfl (by simp [hqueued])⟩

/-- A fed queue passes the addition of an element on. -/
theorem add (h : Fed o name scene) (haccepts : scene.value.tracker.Accepts target)
    (he : e ∈ target) :
    ∃ answer after relations remaining, TrackedQueue.add e scene = .ok answer after ∧
      Passes o name relations [.collectionAdd e] remaining scene after := by
  have hload := h.ensureLoaded_eq
  have hloaded : scene.value.content.useCache = true → scene.value.content.loaded = true :=
    fun huse => absurd huse h.not_cached
  rw [add_of_accepted haccepts he]
  obtain ⟨⟨t, content⟩, s⟩ := scene
  have howner : t.owner = some o := h.owner
  obtain ⟨mid, hforward, hsends⟩ := Session.exists_forwarded howner h.feeds "add"
    (Store.add · e (hint ⟨t, content⟩))
    (Store.carries_add h.reliable o.id e (hint ⟨t, content⟩))
  simp only [addUnchecked, bind_apply, hload, current_apply, forward_apply hforward,
    setElements_apply, announce_apply, changed_apply, pure_apply]
  refine ⟨_, _, _, _, rfl, .reported hloaded hsends howner rfl ?_⟩
  cases t.isQueued <;> rfl

/-- Taking in elements from outside passes nothing on. -/
theorem passes_attached (h : Fed o name scene) (target : List E) :
    Passes o name [] [] scene.value.content.elements scene (Tracked.attached target scene) := by
  refine ⟨rfl, rfl, rfl, fun huse => ?_, rfl, .of_stores_eq (Tracked.managed_attached target scene)
    (fun _ => ?_) (Tracker.stores_attach scene.value.tracker scene.session target) ?_ fun _ => rfl⟩
  · exact absurd huse h.not_cached
  · rw [List.append_nil, Tracked.changesOf_attached]
  · rw [Tracker.queued_nil, List.append_nil]
    exact Tracker.pending_attach scene.value.tracker scene.session target

/-- What attaching passes on: the removals of what the target lacks, and the additions of what the
store lacks. -/
theorem attachCopy (h : Fed o name scene) (haccepts : scene.value.tracker.Accepts target) :
    let shown := held o name scene
    ∃ after relations remaining, TrackedQueue.attachCopy target scene = .ok () after ∧
      Passes o name relations
        ((shown.filter fun e => !target.any (Element.same e)).map (.collectionRemove · false) ++
          (target.filter fun e => !shown.any (Element.same · e)).map .collectionAdd)
        remaining scene after := by
  intro shown
  have hattached := h.passes_attached target
  obtain ⟨mid, hlist, hlooked⟩ := (hattached.fed h).toList
  have hmid : Passes o name [] [] scene.value.content.elements scene mid :=
    hattached.trans hlooked
  have hheld : held o name (Tracked.attached target scene) = shown :=
    hattached.sends.contents_eq h.feeds
  rw [hheld] at hlist
  let Passed (gone new : List E) (after : Scene (TrackedQueue E) E) : Prop :=
    ∃ relations remaining, Passes o name relations
      (gone.map (.collectionRemove · false) ++ new.map .collectionAdd) remaining scene after
  have helements : Container.elements (Tracked.attached target scene) = .ok shown mid := hlist
  suffices hreached : ∃ after : Scene (TrackedQueue E) E,
      Container.reconcile target (Tracked.attached target scene) = .ok () after ∧
        Passed (shown.filter fun e => !target.any (Element.same e))
          (target.filter fun e => !shown.any (Element.same · e)) after by
    obtain ⟨after, hreconcile, relations, remaining, hpasses⟩ := hreached
    exact ⟨after, relations, remaining, hreconcile, hpasses⟩
  refine Container.reconcile_reaches helements Passed ⟨_, _, hmid⟩ ?_ ?_
  · rintro done e hinit now ⟨relations, remaining, hnow⟩
    have he : e ∈ shown := (List.mem_filter.mp (hinit.subset List.mem_concat_self)).1
    -- What waits has not reached the store.
    have hstill (hqueued : now.value.tracker.isQueued = true) : e ∈ held o name now := by
      rw [hnow.tracker] at hqueued
      obtain ⟨-, hview⟩ := hnow.sends.queued (h.feeds.queued hqueued)
      have hsame : held o name now = shown := congrFun (congrArg Store.View.contents hview) o.id
      rwa [hsame]
    obtain ⟨answer, after, more, rest, hremove, hpasses⟩ := (hnow.fed h).removeWith hstill
    refine ⟨answer, after, hremove, relations ++ more, rest, ?_⟩
    have hboth := hnow.trans hpasses
    rw [List.map_nil, List.append_nil] at hboth ⊢
    rw [List.map_append]
    exact hboth
  · rintro done e hinit now ⟨relations, remaining, hnow⟩
    have he : e ∈ target := (List.mem_filter.mp (hinit.subset List.mem_concat_self)).1
    obtain ⟨answer, after, more, rest, hadd, hpasses⟩ :=
      (hnow.fed h).add (hnow.tracker ▸ haccepts) he
    refine ⟨answer, after, hadd, relations ++ more, rest, ?_⟩
    have hboth := hnow.trans hpasses
    rw [List.append_assoc] at hboth
    rw [List.map_append]
    exact hboth

end Fed

end TrackedQueue

end TrackedFields
