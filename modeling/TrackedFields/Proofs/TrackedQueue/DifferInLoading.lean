import TrackedFields.Proofs.Session.Resembling
import TrackedFields.Proofs.TrackedQueue.LoadsOnce

/-!
# Queues that differ in loading only

What a queue holds once it is loaded does not depend on when that happens. Two queues that become
the same when they are loaded, in sessions that differ in records only, stay so while they are
looked at and while either of them is loaded. Once both are loaded, they are the same queue, and
whatever is done to both keeps them so.
-/

namespace TrackedFields.TrackedQueue

variable {E α : Type}

/-! ### What loading makes of a queue -/

/-- A queue once it is loaded. -/
def filled (scene : Scene (TrackedQueue E) E) : TrackedQueue E :=
  { scene.value with content := { scene.value.content with
      elements := listed scene
      loaded := scene.value.content.loaded || scene.value.hasStore } }

variable {scene twin after : Scene (TrackedQueue E) E}

/-- Queues that are the same, where their stores hold the same, become the same. -/
theorem filled_congr (hvalue : after.value = scene.value)
    (hcontents : ∀ name owner, scene.value.tracker.channel = some (name, owner) →
      (after.session.store name).contents owner = (scene.session.store name).contents owner) :
    filled after = filled scene := by
  have hlisted : listed after = listed scene := by
    unfold listed
    rw [hvalue]
    cases hchannel : scene.value.tracker.channel with
    | none => rfl
    | some channel =>
      obtain ⟨name, owner⟩ := channel
      dsimp only
      rw [hcontents name owner hchannel]
  rw [filled, filled, hlisted, hvalue]

/-- A queue that holds all its elements in memory lists those. -/
theorem listed_of_whole (huse : scene.value.content.useCache = true)
    (hwhole : scene.value.isAuthoritative = true) :
    listed scene = scene.value.content.elements := by
  unfold listed
  cases hchannel : scene.value.tracker.channel with
  | none => rfl
  | some channel =>
    have hloaded := (cached_of_whole hwhole (by rw [hasStore, hchannel]; rfl)).2
    simp [huse, hloaded]

/-- There is nothing to load where all elements are in memory. -/
theorem filled_of_whole (huse : scene.value.content.useCache = true)
    (hwhole : scene.value.isAuthoritative = true) : filled scene = scene.value := by
  have hloaded : (scene.value.content.loaded || scene.value.hasStore) =
      scene.value.content.loaded := by
    cases hstore : scene.value.hasStore with
    | true => rw [(cached_of_whole hwhole hstore).2, Bool.true_or]
    | false => rw [Bool.or_false]
  rw [filled, listed_of_whole huse hwhole, hloaded]

/-- What loading makes of a queue holds all its elements in memory. -/
theorem isAuthoritative_filled (huse : scene.value.content.useCache = true) :
    (filled scene).isAuthoritative = true := by
  change (!scene.value.hasStore || (scene.value.content.useCache &&
    (scene.value.content.loaded || scene.value.hasStore))) = true
  rw [huse]
  cases scene.value.hasStore <;> simp

/-- A queue that does not hold all the elements that it keeps in memory has a store and is not
loaded. -/
theorem awaiting_of_part (huse : scene.value.content.useCache = true)
    (hpart : scene.value.isAuthoritative = false) :
    ∃ name owner, scene.value.tracker.channel = some (name, owner) ∧
      scene.value.content.loaded = false := by
  unfold isAuthoritative hasStore at hpart
  simp only [huse, Bool.true_and, Bool.or_eq_false_iff, Bool.not_eq_false'] at hpart
  obtain ⟨⟨name, owner⟩, hchannel⟩ := Option.isSome_iff_exists.mp hpart.1
  exact ⟨name, owner, hchannel, hpart.2⟩

/-- A queue that is not loaded lists what its store holds, in its own order. -/
theorem listed_of_awaiting (huse : scene.value.content.useCache = true) {name : StoreName}
    {owner : ObjectId} (hchannel : scene.value.tracker.channel = some (name, owner))
    (hloaded : scene.value.content.loaded = false) :
    listed scene =
      scene.value.content.order.sort ((scene.session.store name).contents owner) := by
  unfold listed
  rw [hchannel]
  simp [huse, hloaded]

/-- Loading fills the queue, and leaves no more than a record in the session. -/
theorem exists_filled (huse : scene.value.content.useCache = true) (hreadable : Readable scene) :
    ∃ mid, loadFromStore scene = .ok () mid ∧ mid.value = filled scene ∧
      scene.session.Resembles mid.session := by
  cases hwhole : scene.value.isAuthoritative with
  | true =>
    exact ⟨scene, loadFromStore_of_whole hwhole, (filled_of_whole huse hwhole).symm, .refl _⟩
  | false =>
    obtain ⟨name, owner, hchannel, hloaded⟩ := awaiting_of_part huse hwhole
    have hreads := hreadable name owner hchannel
    have hstore : scene.value.hasStore = true := by rw [hasStore, hchannel]; rfl
    refine ⟨_, loadFromStore_of_read hchannel hloaded (read_elements hreads owner), ?_, ?_⟩
    · rw [filled, listed_of_awaiting huse hchannel hloaded, hstore, Bool.or_true]
    · refine .of_afterCalls ⟨(scene.session.store name).iterations + 1,
        (scene.session.store name).calls ++ [.elements], ?_⟩
      unfold Store.iterated Store.afterRead
      rw [hreads]
      rfl

/-! ### Two queues that differ in loading only -/

/-- Two queues that become the same when they are loaded, in sessions that differ in records only.
As long as one of them is not loaded, nothing waits that would change what there is to load. -/
structure Siblings (scene twin : Scene (TrackedQueue E) E) : Prop where
  useCache : scene.value.content.useCache = true
  readable : Readable scene
  filled : filled twin = filled scene
  sessions : scene.session.Resembles twin.session
  waiting : ∀ name owner, scene.value.tracker.channel = some (name, owner) →
    scene.value.content.loaded = true ∧ twin.value.content.loaded = true ∨
      scene.session.NoneWaits name owner

/-- Two queues that hold the same, and all of it in memory. -/
structure BothLoaded (scene twin : Scene (TrackedQueue E) E) : Prop where
  useCache : scene.value.content.useCache = true
  readable : Readable scene
  whole : scene.value.isAuthoritative = true
  value : twin.value = scene.value
  sessions : scene.session.Resembles twin.session

/-- Queues that hold the same become the same. -/
theorem BothLoaded.siblings (h : BothLoaded scene twin) : Siblings scene twin where
  useCache := h.useCache
  readable := h.readable
  filled := filled_congr h.value fun name owner _ => (h.sessions.stores name).contents owner
  sessions := h.sessions
  waiting name owner hchannel := by
    have hloaded := (cached_of_whole h.whole (by rw [hasStore, hchannel]; rfl)).2
    exact .inl ⟨hloaded, by rw [h.value]; exact hloaded⟩

namespace Siblings

variable (h : Siblings scene twin)
include h

/-- Siblings have the same tracker. -/
theorem tracker : twin.value.tracker = scene.value.tracker := by
  have hsame := congrArg (fun q : TrackedQueue E => q.tracker) h.filled
  exact hsame

/-- Siblings load in the same way, if at all. -/
theorem lazily : twin.value.content.lazily = scene.value.content.lazily := by
  have hsame := congrArg (fun q : TrackedQueue E => q.content.lazily) h.filled
  exact hsame

/-- The sibling that has loaded keeps its elements in memory, too. -/
theorem useCache' : twin.value.content.useCache = true := by
  have hsame := congrArg (fun q : TrackedQueue E => q.content.useCache) h.filled
  exact hsame.trans h.useCache

/-- Siblings list the same elements, from the store or from memory. -/
theorem listed : TrackedQueue.listed twin = TrackedQueue.listed scene := by
  have hsame := congrArg (fun q : TrackedQueue E => q.content.elements) h.filled
  exact hsame

/-- What can be read for one sibling can be read for the other. -/
theorem readable' : Readable twin := by
  intro name owner hchannel
  rw [h.tracker] at hchannel
  rw [(h.sessions.stores name).reads]
  exact h.readable name owner hchannel

/-- Loading both makes them the same. -/
theorem exists_loaded : ∃ mid mid', ensureLoaded scene = .ok () mid ∧
    ensureLoaded twin = .ok () mid' ∧ BothLoaded mid mid' := by
  obtain ⟨mid, hload, hvalue, hsessions⟩ := exists_filled h.useCache h.readable
  obtain ⟨mid', hload', hvalue', hsessions'⟩ := exists_filled h.useCache' h.readable'
  refine ⟨mid, mid', ?_, ?_, ?_, ?_, ?_, ?_, ?_⟩
  · rw [ensureLoaded_apply, if_pos h.useCache, hload]
  · rw [ensureLoaded_apply, if_pos h.useCache', hload']
  · rw [hvalue]
    exact h.useCache
  · intro name owner hchannel
    rw [hvalue] at hchannel
    rw [(hsessions.stores name).reads]
    exact h.readable name owner hchannel
  · rw [hvalue]
    exact isAuthoritative_filled h.useCache
  · rw [hvalue, hvalue', h.filled]
  · exact hsessions.symm.trans (h.sessions.trans hsessions')

/-- Looking at both keeps them alike. -/
theorem observed {after after' : Scene (TrackedQueue E) E} (hvalue : after.value = scene.value)
    (hvalue' : after'.value = twin.value) (hsession : scene.session.Resembles after.session)
    (hsession' : twin.session.Resembles after'.session) : Siblings after after' where
  useCache := by
    rw [hvalue]
    exact h.useCache
  readable := by
    intro name owner hchannel
    rw [hvalue] at hchannel
    rw [(hsession.stores name).reads]
    exact h.readable name owner hchannel
  filled := by
    rw [filled_congr hvalue fun name owner _ => (hsession.stores name).contents owner,
      filled_congr hvalue' fun name owner _ => (hsession'.stores name).contents owner, h.filled]
  sessions := hsession.symm.trans (h.sessions.trans hsession')
  waiting name owner hchannel := by
    rw [hvalue] at hchannel ⊢
    rw [hvalue', Session.NoneWaits, hsession.pending]
    exact h.waiting name owner hchannel

/-- Loading one of them keeps them alike. -/
theorem exists_load : ∃ mid, ensureLoaded twin = .ok () mid ∧ Siblings scene mid := by
  obtain ⟨mid, hload, hvalue, hsessions⟩ := exists_filled h.useCache' h.readable'
  have hwhole : mid.value.isAuthoritative = true := by
    rw [hvalue]
    exact isAuthoritative_filled h.useCache'
  have huse : mid.value.content.useCache = true := by
    rw [hvalue]
    exact h.useCache'
  refine ⟨mid, ?_, h.useCache, h.readable, ?_, h.sessions.trans hsessions, ?_⟩
  · rw [ensureLoaded_apply, if_pos h.useCache', hload]
  · rw [filled_of_whole huse hwhole, hvalue, h.filled]
  · intro name owner hchannel
    refine (h.waiting name owner hchannel).imp_left fun hloaded => ⟨hloaded.1, ?_⟩
    rw [hvalue]
    change (twin.value.content.loaded || _) = true
    rw [hloaded.2, Bool.true_or]

end Siblings

/-! ### Loaded queues in lockstep -/

section BothLoaded

variable [DecidableEq E] [Element E]

/-- A request in both sessions. -/
theorem BothLoaded.asks (h : BothLoaded scene twin) {good : E → Prop}
    {session other : Session E}
    (hasks : scene.value.tracker.Asks good scene.session session)
    (hsessions : session.Resembles other) :
    BothLoaded { scene with session } { twin with session := other } :=
  ⟨h.useCache, fun name owner hchannel => hasks.reads (h.readable name owner hchannel), h.whole,
    h.value, hsessions⟩

omit [DecidableEq E] [Element E] in
/-- Replacing the elements of both. -/
theorem bothLoaded_setElements (es : List E) :
    Lockstep BothLoaded Eq Eq (setElements es) (setElements es) := by
  intro scene twin h
  rw [setElements_apply, setElements_apply, h.value]
  exact .ok rfl ⟨h.useCache, h.readable, h.whole, rfl, h.sessions⟩

omit [DecidableEq E] [Element E] in
/-- Looking at both. -/
theorem bothLoaded_current :
    Lockstep BothLoaded Eq (fun q q' => q = q' ∧ q.isAuthoritative = true) (current (E := E))
      current :=
  fun _ _ h => .ok ⟨h.value.symm, h.whole⟩ h

omit [DecidableEq E] [Element E] in
/-- Reading what both keep in memory. -/
theorem bothLoaded_readUncached (action : ObjectId → StoreAction E α)
    (fromMemory : QueueContent E → α) :
    Lockstep BothLoaded Eq Eq (do readEither (!(← Tracked.content?).useCache) action fromMemory)
      (do readEither (!(← Tracked.content?).useCache) action fromMemory) := by
  intro scene twin h
  have hmemory {now : Scene (TrackedQueue E) E} (huse : now.value.content.useCache = true) :
      readEither (!now.value.content.useCache) action fromMemory now =
        .ok (fromMemory now.value.content) now :=
    readEither_of_memory (fun _ => by rw [huse, Bool.not_true]) action fromMemory
  change Agree _ _ _ (readEither (!scene.value.content.useCache) action fromMemory scene)
    (readEither (!twin.value.content.useCache) action fromMemory twin)
  rw [hmemory h.useCache, hmemory (by rw [h.value]; exact h.useCache)]
  exact .ok (by rw [h.value]) h

/-- Making a change in both stores. -/
theorem bothLoaded_forward (operation : String) {good : E → Prop}
    {action : ObjectId → StoreAction E α} (haction : Store.Write good action) :
    Lockstep BothLoaded Eq Eq (forward operation action) (forward operation action) := by
  intro scene twin h
  obtain ⟨hanswer, hsessions⟩ := scene.value.tracker.resembles_forward h.sessions operation
    haction.unrecorded
  have hafter : BothLoaded
      { scene with session := (scene.value.tracker.forward operation action scene.session).2 }
      { twin with session := (scene.value.tracker.forward operation action twin.session).2 } := by
    rcases Tracker.Asks.forward scene.value.tracker operation haction scene.session with
      hsame | hasks
    · rw [hsame] at hsessions ⊢
      exact ⟨h.useCache, h.readable, h.whole, h.value, hsessions⟩
    · exact h.asks hasks hsessions
  change Agree _ _ _
    (.ok (scene.value.tracker.forward operation action scene.session).1 _)
    (.ok (twin.value.tracker.forward operation action twin.session).1
      { twin with session := (twin.value.tracker.forward operation action twin.session).2 })
  rw [h.value]
  exact .ok hanswer.symm (h.value ▸ hafter)

/-- Requests in both sessions that may differ, as long as the sessions go on to resemble each
other. -/
theorem bothLoaded_report {request request' : Tracker → Session E → Session E}
    (hasks : ∀ t s, Tracker.Asks (fun _ => True) t s (request t s))
    (hsessions : ∀ (t : Tracker) {s s' : Session E}, s.Resembles s' →
      (request t s).Resembles (request' t s')) :
    Lockstep BothLoaded Eq Eq (Tracked.report request : Action E Unit) (Tracked.report request') := by
  intro scene twin h
  have hafter := h.asks (hasks scene.value.tracker scene.session)
    (hsessions scene.value.tracker h.sessions)
  change Agree _ _ _ (.ok () { scene with session := request scene.value.tracker scene.session })
    (.ok () { twin with session := request' twin.value.tracker twin.session })
  rw [h.value] at hafter ⊢
  exact .ok rfl hafter

/-- Reporting changes of both that let the same operations wait. -/
theorem bothLoaded_announce {report report' : Report E}
    (hoperations : report.operations = report'.operations) :
    Lockstep BothLoaded Eq Eq (announce report) (announce report') :=
  bothLoaded_report (fun _ s => .announce report (fun _ _ _ _ => trivial) s)
    fun t _ _ hsessions => t.resembles_announce hsessions hoperations

/-- Ending changes of both. -/
theorem bothLoaded_changed : Lockstep BothLoaded Eq Eq (changed (E := E)) changed :=
  bothLoaded_report (fun _ s => .changed s) fun t _ _ hsessions => t.resembles_changed hsessions

/-- The end of a change: it is reported, and the answer is given. -/
theorem bothLoaded_end (report : Report E) (answer : α) :
    Lockstep BothLoaded Eq Eq (announce report >>= fun _ => changed >>= fun _ => pure answer)
      (announce report >>= fun _ => changed >>= fun _ => pure answer) :=
  (bothLoaded_announce rfl).bind fun _ _ _ => bothLoaded_changed.bind fun _ _ _ => .pure rfl

end BothLoaded

end TrackedFields.TrackedQueue
