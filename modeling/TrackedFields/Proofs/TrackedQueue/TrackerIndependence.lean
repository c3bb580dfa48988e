import TrackedFields.Proofs.Tracked.TrackerIndependence
import TrackedFields.Proofs.TrackedQueue.Convergence
import TrackedFields.Proofs.TrackedQueue.Replacement
import TrackedFields.Proofs.TrackedQueue.Shows

/-!
# Queues with different trackers

A queue that holds all its elements in memory decides every change from memory, and so does its
peer, whoever their owners are, however their changes reach the datastore, whether they keep their
content in memory once it was loaded, and whether it was loaded. From peers, calls leave peers and
fail for null elements only. They answer the same, unless an answer is taken from a store that the
call made its change in.
-/

namespace TrackedFields

/-- Changes are not made in a store right away. -/
def Tracker.Defers (t : Tracker) : Prop := ∀ name, t.dispatch ≠ .immediate name

/-- A change that is not made right away calls no store. -/
theorem Tracker.Defers.forward_eq {E α : Type} {t : Tracker} (h : t.Defers) (operation : String)
    (action : ObjectId → StoreAction E α) (s : Session E) :
    t.forward operation action s = (.skipped, s) := by
  rcases t.forward_cases s operation action with hsame | ⟨name, o, hdispatch, -⟩
  · exact hsame
  · exact absurd hdispatch (h name)

namespace TrackedQueue

variable {E α β : Type} {t t' : Tracker} {q q' : TrackedQueue E}

/-- Queues with a tracker each that hold the same in the same order, all of it in memory. -/
structure Counterparts (t t' : Tracker) (q q' : TrackedQueue E) : Prop where
  tracker : q.tracker = t
  tracker' : q'.tracker = t'
  whole : q.isAuthoritative = true
  whole' : q'.isAuthoritative = true
  order : q.content.order = q'.content.order
  elements : q.content.elements = q'.content.elements

/-- Counterparts queues, each in a session of its own. -/
structure Peers (t t' : Tracker) (S : Session E → Session E → Prop)
    (scene scene' : Scene (TrackedQueue E) E) : Prop where
  queues : Counterparts t t' scene.value scene'.value
  sessions : S scene.session scene'.session

/-- Answers that agree where they are not taken from a store. -/
def Answered (t t' : Tracker) (a b : α) : Prop := t.Defers → t'.Defers → a = b

/-- A call that does not tell peers apart. -/
def Neutral (t t' : Tracker) (S : Session E → Session E → Prop) (Q : α → β → Prop)
    (first : Action E α) (second : Action E β) : Prop :=
  Lockstep (Peers t t' S) (t.NullRefusal t') Q first second

/-! ### Whole queues -/

/-- A whole queue with a store keeps its content in memory, and has loaded it. -/
theorem cached_of_whole (h : q.isAuthoritative = true) (hstore : q.hasStore = true) :
    q.content.useCache = true ∧ q.content.loaded = true := by
  unfold isAuthoritative at h
  rwa [hstore, Bool.not_true, Bool.false_or, Bool.and_eq_true] at h

/-- A queue stays whole with other elements, if it does not forget that it was loaded. -/
theorem whole_with (h : q.isAuthoritative = true) (es : List E) {loaded : Bool}
    (hloaded : q.content.loaded = true → loaded = true) :
    isAuthoritative { q with content := { q.content with elements := es, loaded } } = true := by
  cases hstore : q.hasStore with
  | false =>
    unfold isAuthoritative hasStore at *
    rw [hstore]
    rfl
  | true =>
    obtain ⟨huse, hwas⟩ := cached_of_whole h hstore
    unfold isAuthoritative
    rw [huse, hloaded hwas]
    exact Bool.or_true _

/-- A whole queue has nothing to load. -/
theorem loadFromStore_of_whole {scene : Scene (TrackedQueue E) E}
    (h : scene.value.isAuthoritative = true) : loadFromStore scene = .ok () scene := by
  apply loadFromStore_of_not_awaiting
  intro channel hchannel
  exact (cached_of_whole h (by rw [hasStore, hchannel]; rfl)).2

/-- A whole queue is prepared. -/
theorem ensureLoaded_of_whole {scene : Scene (TrackedQueue E) E}
    (h : scene.value.isAuthoritative = true) : ensureLoaded scene = .ok () scene :=
  Prepared.ensureLoaded_eq fun _ => h

/-- Counterparts queues take on the same elements. -/
theorem Counterparts.hold (h : Counterparts t t' q q') (es : List E) {loaded loaded' : Bool}
    (hloaded : q.content.loaded = true → loaded = true)
    (hloaded' : q'.content.loaded = true → loaded' = true) :
    Counterparts t t' { q with content := { q.content with elements := es, loaded } }
      { q' with content := { q'.content with elements := es, loaded := loaded' } } :=
  ⟨h.tracker, h.tracker', whole_with h.whole es hloaded, whole_with h.whole' es hloaded', h.order,
    rfl⟩

/-! ### Calls of whole queues -/

section Whole

variable {content : QueueContent E} (h : isAuthoritative ⟨t, content⟩ = true) (s : Session E)
include h

private theorem load_whole : ensureLoaded ⟨⟨t, content⟩, s⟩ = .ok () ⟨⟨t, content⟩, s⟩ := by
  let scene : Scene (TrackedQueue E) E := ⟨⟨t, content⟩, s⟩
  have hscene : scene.value.isAuthoritative = true := h
  exact ensureLoaded_of_whole hscene

private theorem read_whole (action : ObjectId → StoreAction E α) (fromMemory : QueueContent E → α) :
    readEither (!content.useCache) action fromMemory ⟨⟨t, content⟩, s⟩ =
      .ok (fromMemory content) ⟨⟨t, content⟩, s⟩ := by
  let scene : Scene (TrackedQueue E) E := ⟨⟨t, content⟩, s⟩
  have hscene : scene.value.isAuthoritative = true := h
  have hfrom (hstore : scene.value.hasStore = true) : (!content.useCache) = false := by
    rw [Bool.not_eq_false']
    exact (cached_of_whole hscene hstore).1
  exact readEither_of_memory hfrom action fromMemory

/-- A whole queue lists the elements in memory. -/
theorem toList_of_whole :
    toList ⟨⟨t, content⟩, s⟩ = .ok content.elements ⟨⟨t, content⟩, s⟩ := by
  unfold toList
  rw [bind_apply, load_whole h]
  exact read_whole h s Store.elements (·.elements)

/-- The head of a whole queue is that of the elements in memory. -/
theorem peek_of_whole :
    peek ⟨⟨t, content⟩, s⟩ = .ok content.elements.head? ⟨⟨t, content⟩, s⟩ := by
  unfold peek
  rw [bind_apply, load_whole h]
  exact read_whole h s (Store.get · 0) (·.elements.head?)

variable [DecidableEq E]

/-- One occurrence of an element is removed from the elements in memory. -/
theorem removeWith_of_whole (e : E) (cascade : Bool) :
    ∃ answer session, removeWith e cascade ⟨⟨t, content⟩, s⟩ = .ok answer
      ⟨⟨t, { content with elements := content.elements.erase e }⟩, session⟩ := by
  obtain ⟨forwarded, mid, hforward⟩ : ∃ forwarded mid, t.forward "remove"
      (Store.remove · e (hint ⟨t, content⟩) cascade) s = (forwarded, mid) := ⟨_, _, rfl⟩
  simp only [removeWith, bind_apply, load_whole h, current_apply, h, Bool.or_true, Bool.true_or,
    if_true, pure_apply, setElements_apply, forward_apply hforward, announce_apply, changed_apply]
  exact ⟨_, _, rfl⟩

/-- Every occurrence of listed elements is removed from the elements in memory. -/
theorem removeListed_of_whole (doomed : List E) :
    ∃ answer session, removeListed doomed ⟨⟨t, content⟩, s⟩ = .ok answer
      ⟨⟨t, { content with elements := content.elements.filter fun e => !doomed.contains e }⟩,
        session⟩ := by
  -- Whatever the dispatch is, the elements in memory are searched.
  cases hdispatch : t.dispatch
  all_goals
    simp only [removeListed, bind_apply, load_whole h, current_apply, h, if_true, pure_apply,
      List.filter_nil, List.nil_append, setElements_apply, hdispatch, announce_apply, changed_apply]
    exact ⟨_, _, rfl⟩

/-- All occurrences of elements that are not listed are removed from those in memory. -/
theorem retainAll_of_whole (keep : List E) :
    ∃ answer session, retainAll keep ⟨⟨t, content⟩, s⟩ = .ok answer
      ⟨⟨t, { content with elements := content.elements.filter keep.contains }⟩, session⟩ := by
  let dropped := content.elements.filter fun e => !keep.contains e
  have hkept : content.elements.filter (fun e => !dropped.contains e) =
      content.elements.filter keep.contains :=
    List.filter_congr fun e he => by simp [dropped, he]
  simp only [retainAll, bind_apply, toList_of_whole h, current_apply, h, Bool.not_true,
    Bool.and_false, Bool.false_eq_true, if_false, List.append_nil]
  by_cases hnone : dropped.isEmpty = true
  · have hall : content.elements.filter keep.contains = content.elements := by
      rw [← hkept, List.isEmpty_iff.mp hnone]
      exact List.filter_eq_self.mpr fun _ _ => rfl
    rw [if_pos hnone, hall]
    exact ⟨_, _, rfl⟩
  · obtain ⟨answer, session, hremove⟩ := removeListed_of_whole h s dropped
    rw [if_neg hnone, hremove, hkept]
    exact ⟨_, _, rfl⟩

omit h in
/-- The elements in memory are cleared, also before the queue is loaded. -/
theorem exists_clear : ∃ loaded session, clear ⟨⟨t, content⟩, s⟩ = .ok ()
    ⟨⟨t, { content with elements := [], loaded }⟩, session⟩ := by
  let told := t.announce (.cleared content.elements) s
  obtain ⟨forwarded, mid, hforward⟩ : ∃ forwarded mid,
      t.forward "clear" Store.clear told = (forwarded, mid) := ⟨_, _, rfl⟩
  refine ⟨content.loaded || content.useCache, t.changed mid, ?_⟩
  change (discard (forward "clear" Store.clear) >>= fun _ => changed)
    (⟨⟨t, { content with elements := [], loaded := content.loaded || content.useCache }⟩, told⟩ :
      Scene (TrackedQueue E) E) = _
  rw [bind_apply, discard_apply, forward_apply hforward]
  rfl

/-- Elements are inserted into those in memory. -/
theorem addUnchecked_of_whole (operation : String)
    (store : ObjectId → Option Nat → StoreAction E Bool) (new : List E) :
    ∃ answer session, addUnchecked operation store new ⟨⟨t, content⟩, s⟩ = .ok answer
      ⟨⟨t, { content with elements := content.order.insertAll content.elements new }⟩,
        session⟩ := by
  obtain ⟨forwarded, mid, hforward⟩ : ∃ forwarded mid, t.forward operation
      (store · (hint ⟨t, content⟩)) s = (forwarded, mid) := ⟨_, _, rfl⟩
  simp only [addUnchecked, bind_apply, load_whole h, current_apply, forward_apply hforward,
    setElements_apply, announce_apply, changed_apply, pure_apply]
  exact ⟨_, _, rfl⟩

end Whole

/-! ### Parts of calls -/

section Parts

variable {S : Session E → Session E → Prop}

/-- Looking at a queue gives each its own: these are counterparts. -/
theorem neutral_current : Neutral t t' S (Counterparts t t') (current (E := E)) current :=
  fun _ _ h => .ok h.queues h

/-- The elements in memory are set alike. -/
theorem neutral_setElements (es : List E) :
    Neutral t t' S (fun _ _ => True) (setElements es) (setElements es) :=
  fun _ _ h => .ok trivial ⟨h.queues.hold es id id, h.sessions⟩

/-- There is nothing to load for either queue. -/
theorem neutral_loadFromStore :
    Neutral t t' S Eq (loadFromStore (E := E)) loadFromStore := by
  intro scene scene' h
  rw [loadFromStore_of_whole h.queues.whole, loadFromStore_of_whole h.queues.whole']
  exact .ok rfl h

/-- There is nothing left to load before a change, either. -/
theorem neutral_ensureLoaded : Neutral t t' S Eq (ensureLoaded (E := E)) ensureLoaded := by
  intro scene scene' h
  rw [ensureLoaded_of_whole h.queues.whole, ensureLoaded_of_whole h.queues.whole']
  exact .ok rfl h

/-- Reading from memory what does not depend on more than order and elements. -/
theorem neutral_readEither {fromStore fromStore' : Bool} (action : ObjectId → StoreAction E α)
    {fromMemory : QueueContent E → α}
    (hmemory : ∀ content content' : QueueContent E, content.elements = content'.elements →
      fromMemory content = fromMemory content')
    {scene scene' : Scene (TrackedQueue E) E} (h : Peers t t' S scene scene')
    (hfrom : scene.value.hasStore = true → fromStore = false)
    (hfrom' : scene'.value.hasStore = true → fromStore' = false) :
    Agree (Peers t t' S) (t.NullRefusal t') Eq (readEither fromStore action fromMemory scene)
      (readEither fromStore' action fromMemory scene') := by
  rw [readEither_of_memory hfrom, readEither_of_memory hfrom']
  exact .ok (hmemory _ _ h.queues.elements) h

/-- Reading that asks the store unless the queue holds all its elements in memory. -/
theorem neutral_readPart (action : ObjectId → StoreAction E α) {fromMemory : QueueContent E → α}
    (hmemory : ∀ content content' : QueueContent E, content.elements = content'.elements →
      fromMemory content = fromMemory content') :
    Neutral t t' S Eq (do readEither (!(← current).isAuthoritative) action fromMemory)
      (do readEither (!(← current).isAuthoritative) action fromMemory) := by
  intro scene scene' h
  apply neutral_readEither action hmemory h
  · intro _
    rw [h.queues.whole, Bool.not_true]
  · intro _
    rw [h.queues.whole', Bool.not_true]

/-- Reading that asks the store unless the queue keeps its content in memory. -/
theorem neutral_readUncached (action : ObjectId → StoreAction E α)
    {fromMemory : QueueContent E → α}
    (hmemory : ∀ content content' : QueueContent E, content.elements = content'.elements →
      fromMemory content = fromMemory content') :
    Neutral t t' S Eq (do readEither (!(← Tracked.content?).useCache) action fromMemory)
      (do readEither (!(← Tracked.content?).useCache) action fromMemory) := by
  intro scene scene' h
  apply neutral_readEither action hmemory h
  · intro hstore
    rw [(cached_of_whole h.queues.whole hstore).1, Bool.not_true]
  · intro hstore
    rw [(cached_of_whole h.queues.whole' hstore).1, Bool.not_true]

/-- The elements are listed from memory. -/
theorem neutral_toList : Neutral t t' S Eq (toList (E := E)) toList :=
  Lockstep.bind neutral_ensureLoaded fun _ _ _ => neutral_readUncached _ fun _ _ h => h

/-- The head is the first element in memory. -/
theorem neutral_peek : Neutral t t' S Eq (peek (E := E)) peek :=
  Lockstep.bind neutral_ensureLoaded fun _ _ _ =>
    neutral_readUncached _ fun _ _ h => congrArg List.head? h

/-- The number of elements is counted in memory. -/
theorem neutral_length : Neutral t t' S Eq (length (E := E)) length :=
  neutral_readPart _ fun _ _ h => congrArg List.length h

/-- An element is looked for in memory. -/
theorem neutral_contains [DecidableEq E] (e : E) :
    Neutral t t' S Eq (contains e) (contains e) :=
  neutral_readPart _ fun _ _ h => congrArg (List.contains · e) h

/-- The queue's own order is the same on both sides. -/
theorem neutral_snapshot : Neutral t t' S Eq (snapshot (E := E)) snapshot := by
  apply Lockstep.bind neutral_toList
  rintro es _ rfl scene scene' h
  exact .ok (congrArg (Comparator.sort · es) h.queues.order) h

variable [DecidableEq E] [Element E] (htandem : t.Tandem t' S)
include htandem

/-- A change that may be made in the store: only a call tells the queues apart. -/
theorem neutral_forward (operation : String) (action action' : ObjectId → StoreAction E α) :
    Neutral t t' S (Answered t t') (forward operation action) (forward operation action') := by
  intro scene scene' h
  have hsessions :=
    htandem.symm.forward operation action' (htandem.forward operation action h.sessions)
  rw [← h.queues.tracker, ← h.queues.tracker'] at hsessions
  refine .ok ?_ ⟨h.queues, hsessions⟩
  intro hdefers hdefers'
  rw [← h.queues.tracker] at hdefers
  rw [← h.queues.tracker'] at hdefers'
  change (scene.value.tracker.forward operation action scene.session).1 =
    (scene'.value.tracker.forward operation action' scene'.session).1
  rw [hdefers.forward_eq, hdefers'.forward_eq]

/-- A call of the store, if there is one. -/
theorem neutral_call (operation : String) (action : ObjectId → StoreAction E α) :
    Neutral t t' S (fun _ _ => True)
      (Tracked.ask (fun t s => t.call operation action s) : Action E (Forwarded α))
      (Tracked.ask fun t s => t.call operation action s) := by
  intro scene scene' h
  have hsessions := htandem.tells' (.call operation action _)
    (htandem.tells (.call operation action _) h.sessions)
  rw [← h.queues.tracker, ← h.queues.tracker'] at hsessions
  exact .ok trivial ⟨h.queues, hsessions⟩

/-- Reports may even differ, for they change no content. -/
theorem neutral_announce (report report' : Report E) :
    Neutral t t' S (fun _ _ => True) (announce report) (announce report') := by
  intro scene scene' h
  have hsessions :=
    htandem.tells' (.announce report' _) (htandem.tells (.announce report _) h.sessions)
  rw [← h.queues.tracker, ← h.queues.tracker'] at hsessions
  exact .ok trivial ⟨h.queues, hsessions⟩

/-- The end of a change is told to the entities alone. -/
theorem neutral_changed : Neutral t t' S (fun _ _ => True) (changed (E := E)) changed := by
  intro scene scene' h
  have hsessions := htandem.changed h.sessions
  rw [← h.queues.tracker, ← h.queues.tracker'] at hsessions
  exact .ok trivial ⟨h.queues, hsessions⟩

/-- A dirty mark is told to the entities alone. -/
theorem neutral_makeDirty :
    Neutral t t' S (fun _ _ => True) (Tracked.makeDirty : Action E Unit) Tracked.makeDirty := by
  intro scene scene' h
  have hsessions := htandem.markDirty h.sessions
  rw [← h.queues.tracker, ← h.queues.tracker'] at hsessions
  exact .ok trivial ⟨h.queues, hsessions⟩

/-- Attaching elements is told to the session alone. -/
theorem neutral_attach (es : List E) :
    Neutral t t' S (fun _ _ => True) (Tracked.attach es : Action E Unit) (Tracked.attach es) := by
  intro scene scene' h
  have hsessions := htandem.tells' (.attach es _) (htandem.tells (.attach es _) h.sessions)
  rw [← h.queues.tracker, ← h.queues.tracker'] at hsessions
  exact .ok trivial ⟨h.queues, hsessions⟩

/-- Both fields refuse the same elements. -/
theorem neutral_require (es : List E) {Q : α → β → Prop} {next : Unit → Action E α}
    {next' : Unit → Action E β} (hnext : Neutral t t' S Q (next ()) (next' ())) :
    Neutral t t' S Q (Tracked.tracker? >>= fun t => Tracked.require (t.checkAll es) >>= next)
      (Tracked.tracker? >>= fun t => Tracked.require (t.checkAll es) >>= next') := by
  intro scene scene' h
  change Agree _ _ _ ((Tracked.require (scene.value.tracker.checkAll es) >>= next) scene)
    ((Tracked.require (scene'.value.tracker.checkAll es) >>= next') scene')
  rw [h.queues.tracker, h.queues.tracker', Tracker.checkAll_eq, Tracker.checkAll_eq,
    ← htandem.allowNulls]
  split
  · exact .error ⟨rfl, rfl⟩ h
  · exact hnext scene scene' h

end Parts

/-! ### Calls -/

section Calls

variable {S : Session E → Session E → Prop} [DecidableEq E] [Element E] (htandem : t.Tandem t' S)
include htandem

/-- The end of a change: what was made in the store decides the answer, if anything. -/
private theorem neutral_end (report report' : Report E) {forwarded forwarded' : Forwarded α}
    (hforwarded : Answered t t' forwarded forwarded') (inMemory failed : α) :
    Neutral t t' S (Answered t t')
      (announce report >>= fun _ => changed >>= fun _ =>
        pure (forwarded.answer inMemory failed))
      (announce report' >>= fun _ => changed >>= fun _ =>
        pure (forwarded'.answer inMemory failed)) := by
  apply Lockstep.bind (neutral_announce htandem _ _)
  intro _ _ _
  apply Lockstep.bind (neutral_changed htandem)
  intro _ _ _
  exact .pure fun hdefers hdefers' => by rw [hforwarded hdefers hdefers']

/-- Removing the head. -/
theorem neutral_poll : Neutral t t' S (Answered t t') (poll (E := E)) poll := by
  apply Lockstep.bind neutral_ensureLoaded
  intro _ _ _
  apply Lockstep.bind neutral_current
  intro q q' h
  rw [h.elements]
  apply Lockstep.bind (neutral_setElements _)
  intro _ _ _
  apply Lockstep.bind (neutral_forward htandem _ _ _)
  intro forwarded forwarded' hforwarded
  exact neutral_end htandem _ _ hforwarded _ _

/-- Removing one occurrence of an element. -/
theorem neutral_removeWith (e : E) (cascade : Bool) :
    Neutral t t' S (Answered t t') (removeWith e cascade) (removeWith e cascade) := by
  apply Lockstep.bind neutral_ensureLoaded
  intro _ _ _
  apply Lockstep.bind neutral_current
  intro q q' h
  simp only [h.elements, h.whole, h.whole', Bool.or_true, Bool.true_or, if_true, pure_bind]
  apply Lockstep.bind (neutral_setElements _)
  intro _ _ _
  apply Lockstep.bind (neutral_forward htandem _ _ _)
  intro forwarded forwarded' hforwarded
  exact neutral_end htandem _ _ hforwarded _ _

/-- Removing every occurrence of listed elements. -/
theorem neutral_removeListed (doomed : List E) :
    Neutral t t' S (Answered t t') (removeListed doomed) (removeListed doomed) := by
  apply Lockstep.bind neutral_ensureLoaded
  intro _ _ _
  apply Lockstep.bind neutral_current
  intro q q' h
  simp only [h.elements, h.whole, h.whole', if_true, pure_bind]
  apply Lockstep.bind (neutral_setElements _)
  intro _ _ _
  apply Lockstep.bind (neutral_announce htandem _ _)
  intro _ _ _
  apply Lockstep.bind (neutral_forward htandem _ _ _)
  intro forwarded forwarded' hforwarded
  apply Lockstep.bind (neutral_changed htandem)
  intro _ _ _
  refine .pure fun hdefers hdefers' => ?_
  rw [hforwarded hdefers hdefers']
  cases q.tracker.dispatch <;> cases q'.tracker.dispatch <;> rfl

/-- Removing listed elements, of which there may be none. -/
theorem neutral_removeAll (doomed : List E) :
    Neutral t t' S (Answered t t') (removeAll doomed) (removeAll doomed) :=
  Lockstep.ite (.pure fun _ _ => rfl) (neutral_removeListed htandem doomed)

/-- Keeping the listed elements only. -/
theorem neutral_retainAll (keep : List E) :
    Neutral t t' S (Answered t t') (retainAll keep) (retainAll keep) := by
  apply Lockstep.bind neutral_toList
  rintro es _ rfl
  apply Lockstep.bind neutral_current
  intro q q' h
  simp only [h.whole, h.whole', Bool.not_true, Bool.and_false, Bool.false_eq_true, if_false]
  exact Lockstep.ite (.pure fun _ _ => rfl) (neutral_removeListed htandem _)

/-- Removing everything. -/
theorem neutral_clear : Neutral t t' S (fun _ _ => True) (clear (E := E)) clear := by
  have hrest (es es' : List E) : Neutral t t' S (fun _ _ => True)
      (announce (.cleared es) >>= fun _ => discard (forward "clear" Store.clear) >>=
        fun _ => changed)
      (announce (.cleared es') >>= fun _ => discard (forward "clear" Store.clear) >>=
        fun _ => changed) := by
    apply Lockstep.bind (neutral_announce htandem _ _)
    intro _ _ _
    exact Lockstep.bind (Lockstep.discard (neutral_forward htandem _ _ _)) fun _ _ _ =>
      neutral_changed htandem
  intro scene scene' h
  exact hrest _ _ _ _ ⟨h.queues.hold [] (fun hloaded => by rw [hloaded, Bool.true_or])
    (fun hloaded => by rw [hloaded, Bool.true_or]), h.sessions⟩

/-- Adding elements without a check. -/
theorem neutral_addUnchecked (operation : String)
    (store : ObjectId → Option Nat → StoreAction E Bool) (new : List E) :
    Neutral t t' S (Answered t t') (addUnchecked operation store new)
      (addUnchecked operation store new) := by
  apply Lockstep.bind neutral_ensureLoaded
  intro _ _ _
  apply Lockstep.bind neutral_current
  intro q q' h
  rw [h.elements, h.order]
  apply Lockstep.bind (neutral_forward htandem _ _ _)
  intro forwarded forwarded' hforwarded
  apply Lockstep.bind (neutral_setElements _)
  intro _ _ _
  exact neutral_end htandem _ _ hforwarded _ _

/-- Adding an element, once it is checked. -/
theorem neutral_add (e : E) : Neutral t t' S (Answered t t') (add e) (add e) := by
  unfold add
  simp only [Tracker.check_eq_checkAll]
  exact neutral_require htandem [e] (neutral_addUnchecked htandem "add" (Store.add · e ·) [e])

/-- Adding elements, once all are checked. -/
theorem neutral_addAll (new : List E) :
    Neutral t t' S (Answered t t') (addAll new) (addAll new) := by
  apply neutral_require htandem new
  exact Lockstep.ite (.pure fun _ _ => rfl)
    (neutral_addUnchecked htandem "add-all" (Store.addAll · new ·) new)

/-- Taking in the difference to a value from outside. -/
theorem neutral_reconcile (attached : List E) :
    Neutral t t' S (fun _ _ => True) (Container.reconcile attached)
      (Container.reconcile attached) := by
  apply Container.lockstep_reconcile
  · exact neutral_toList
  · exact fun e => neutral_removeWith htandem e false
  · exact neutral_add htandem

/-- Attaching a copy takes in the difference to it. -/
theorem neutral_attachCopy (target : List E) :
    Neutral t t' S (fun _ _ => True) (attachCopy target) (attachCopy target) :=
  Lockstep.bind (neutral_attach htandem target) fun _ _ _ => neutral_reconcile htandem target

/-- One of two queues may replace its value in its store. -/
private theorem survives_replaced (hq : q.tracker = t) (new : List E) {s s' : Session E}
    (hs : S s s') (reaches : Bool) : S (if reaches then replaced q new s else s) s' := by
  cases reaches with
  | false => exact hs
  | true =>
    unfold replaced
    rw [hq]
    exact htandem.forward "add-all" _ (htandem.forward "clear" _ (htandem.tells (.enqueue _ s) hs))

/-- Replacing the value, whether or not that reaches a store. -/
theorem neutral_initialiseWith (new : List E) :
    Neutral t t' S (fun _ _ => True) (initialiseWith new) (initialiseWith new) := by
  intro scene scene' h
  have hsessions := htandem.markDirty <|
    survives_replaced htandem.symm h.queues.tracker' new
      (survives_replaced htandem h.queues.tracker new h.sessions
        (replacementReachesStore scene.value scene.session))
      (replacementReachesStore scene'.value scene'.session)
  rw [← h.queues.tracker, ← h.queues.tracker'] at hsessions
  rw [initialiseWith_apply, initialiseWith_apply, ← h.queues.order]
  exact .ok trivial ⟨h.queues.hold _ (fun _ => rfl) (fun _ => rfl), hsessions⟩

/-- Telling the store about an embedded element. -/
theorem neutral_updateEmbedded (e : E) (field : FieldOrdinal) (dirty : Bool) :
    Neutral t t' S (fun _ _ => True) (updateEmbedded e field dirty)
      (updateEmbedded e field dirty) := by
  apply Lockstep.bind (Lockstep.discard (neutral_call htandem _ _))
  intro _ _ _
  exact Lockstep.ite (neutral_makeDirty htandem) (.pure trivial)

/-- Every call is neutral. -/
theorem Call.neutral (call : Call E) :
    Neutral t t' S (fun _ _ => True) call.run call.run := by
  cases call with
  | load => exact Lockstep.mono neutral_ensureLoaded fun _ _ _ => trivial
  | add e => exact Lockstep.discard (neutral_add htandem e)
  | addAll new => exact Lockstep.discard (neutral_addAll htandem new)
  | poll => exact Lockstep.discard (neutral_poll htandem)
  | remove e => exact Lockstep.discard (neutral_removeWith htandem e true)
  | removeWith e cascade => exact Lockstep.discard (neutral_removeWith htandem e cascade)
  | removeAll es => exact Lockstep.discard (neutral_removeAll htandem es)
  | retainAll keep => exact Lockstep.discard (neutral_retainAll htandem keep)
  | clear => exact neutral_clear htandem
  | attachCopy target => exact neutral_attachCopy htandem target
  | initialiseWith new => exact neutral_initialiseWith htandem new

end Calls

end TrackedQueue

end TrackedFields
