import TrackedFields.Proofs.Session.Behind
import TrackedFields.TrackedQueue.Replace

/-!
# Cached queues that queue their changes

A priority queue that keeps its content in memory and queues its changes is either loaded, and
then the store lags behind its elements by what waits, or it is not, and then nothing waits. It is
loaded at its first use, which reads the store and writes nothing. Store and memory are kept in
the same order, so that they agree also on elements that compare equal.
-/

namespace TrackedFields

namespace Session

variable {E : Type}

/-- No store was written in between: all show the same and count as many writes as before. -/
structure Unwritten (before after : Session E) : Prop where
  views : after.views = before.views
  mutations : ∀ name, (after.store name).mutations = (before.store name).mutations

/-- What leaves the stores alone writes none of them. -/
theorem Unwritten.of_stores_eq {before s after : Session E} (h : before.Unwritten s)
    (hstores : after.stores = s.stores) : before.Unwritten after := by
  have hstore := store_of_stores_eq hstores
  constructor
  · rw [← h.views]
    funext name
    exact congrArg Store.view (hstore name)
  · intro name
    rw [hstore name]
    exact h.mutations name

/-- Reading a container writes no store. -/
theorem Unwritten.iterated {before s : Session E} (h : before.Unwritten s) (name : StoreName) :
    before.Unwritten (s.afterCalls name (s.store name).iterated) := by
  constructor
  · rw [views_afterCalls, ← h.views]
    exact Function.update_eq_self name s.views
  · intro other
    rw [store_afterCalls, ← h.mutations other]
    split
    · next hother => rw [hother]; rfl
    · rfl

end Session

namespace TrackedQueue

variable {E : Type} [DecidableEq E]

/-- A session follows a queue with the given elements: the named store has the order of the queue
and lags behind the elements, which are sorted, by what waits; and no store was written since an
earlier moment. -/
structure Follows (cmp : Comparator E) (o : Owner) (name : StoreName) (before : Session E)
    (es : List E) (s : Session E) : Prop where
  order : (s.rules name).order = some cmp
  behind : s.Behind name (some name) o.id es
  sorted : cmp.Sorted es
  unwritten : before.Unwritten s

/-- The elements of a queue: those in memory once it is loaded, those in the store until then. -/
def known (name : StoreName) (id : ObjectId) (scene : Scene (TrackedQueue E) E) : List E :=
  if scene.value.content.loaded then scene.value.content.elements
  else (scene.session.store name).contents id

/-- A cached queue that queues its changes for the store of the given name, with a session that
follows it. While it is not loaded, nothing waits. -/
structure Synced (cmp : Comparator E) (o : Owner) (name : StoreName) (before : Session E)
    (scene : Scene (TrackedQueue E) E) : Prop where
  owner : scene.value.tracker.owner = some o
  dispatch : scene.value.tracker.dispatch = .queued (some name)
  order : scene.value.content.order = cmp
  useCache : scene.value.content.useCache = true
  idle : scene.value.content.loaded = false → scene.session.pending = []
  follows : Follows cmp o name before (known name o.id scene) scene.session

/-- The tracker of a field that queues its changes for the store of the given name. -/
def queuing (o : Owner) (name : StoreName) (allowNulls : Bool) : Tracker :=
  { owner := some o, dispatch := .queued (some name), allowNulls }

/-- A session that was told of a change. -/
def told (o : Owner) (name : StoreName) (allowNulls : Bool) (report : Report E) (s : Session E) :
    Session E :=
  (queuing o name allowNulls).changed ((queuing o name allowNulls).announce report s)

/-- A loaded cached queue that queues its changes. -/
def ready (cmp : Comparator E) (o : Owner) (name : StoreName) (allowNulls lazily : Bool)
    (es : List E) (s : Session E) : Scene (TrackedQueue E) E where
  value := {
    tracker := queuing o name allowNulls
    content := { order := cmp, useCache := true, lazily, elements := es, loaded := true } }
  session := s

section Follows

variable {cmp : Comparator E} {o : Owner} {name : StoreName} {before : Session E}
  {allowNulls lazily : Bool} {es next : List E} {s : Session E}

/-- The order of a queue that a store follows is a total preorder. -/
theorem Follows.lawful (h : Follows cmp o name before es s) : Std.TransCmp cmp :=
  (h.behind.inOrder cmp h.order).1

/-- The elements of a queue that a store follows fit into the store. -/
theorem Follows.fits (h : Follows cmp o name before es s) : (s.rules name).Fits es := by
  intro other hother
  rw [h.order] at hother
  cases hother
  exact h.sorted

/-- A session goes on following a queue that queues operations which repeat its changes. -/
theorem Follows.queue (h : Follows cmp o name before es s) (allowNulls : Bool)
    {after : Session E} {kinds : List (OperationKind E)}
    (hkinds : OperationKind.carryOutAll (s.rules name) es kinds = some next)
    (hsorted : cmp.Sorted next)
    (hpending : after.pending = s.pending ++ (queuing o name allowNulls).queued kinds)
    (hstores : after.stores = s.stores) : Follows cmp o name before next after := by
  have hstore : after.store name = s.store name := Session.store_of_stores_eq hstores name
  refine ⟨?_, ?_, hsorted, h.unwritten.of_stores_eq hstores⟩
  · rw [Session.rules, hstore]
    exact h.order
  · have hqueue : { s with pending := s.pending ++ (queuing o name allowNulls).queued kinds }.Behind
        name (some name) o.id next := h.behind.queue rfl rfl hkinds
    exact hqueue.of_stores_eq hpending hstores

/-- A session goes on following a queue under requests that leave its queue and its stores
alone. -/
theorem Follows.of_stores_eq (h : Follows cmp o name before es s) {after : Session E}
    (hpending : after.pending = s.pending) (hstores : after.stores = s.stores) :
    Follows cmp o name before es after := by
  have hstore : after.store name = s.store name := Session.store_of_stores_eq hstores name
  refine ⟨?_, h.behind.of_stores_eq hpending hstores, h.sorted, h.unwritten.of_stores_eq hstores⟩
  rw [Session.rules, hstore]
  exact h.order

/-- A queue stays in sync under requests that leave the queue of the session and the stores
alone. -/
theorem Synced.of_stores_eq {scene : Scene (TrackedQueue E) E}
    (h : Synced cmp o name before scene) {after : Session E}
    (hpending : after.pending = scene.session.pending)
    (hstores : after.stores = scene.session.stores) :
    Synced cmp o name before { scene with session := after } := by
  have hstore : after.store name = scene.session.store name :=
    Session.store_of_stores_eq hstores name
  have hknown : known name o.id { scene with session := after } = known name o.id scene := by
    unfold known
    rw [hstore]
  refine ⟨h.owner, h.dispatch, h.order, h.useCache, ?_, ?_⟩
  · intro hloaded
    exact hpending.trans (h.idle hloaded)
  · rw [hknown]
    exact h.follows.of_stores_eq hpending hstores

/-- A loaded queue is in sync. -/
theorem Follows.synced (h : Follows cmp o name before es s) :
    Synced cmp o name before (ready cmp o name allowNulls lazily es s) := by
  refine ⟨rfl, rfl, rfl, rfl, ?_, h⟩
  intro hloaded
  cases hloaded

/-- A loaded queue stays in sync if its report repeats its change. -/
theorem Follows.synced_told (h : Follows cmp o name before es s) {report : Report E}
    (hkinds : OperationKind.carryOutAll (s.rules name) es report.operations = some next)
    (hsorted : cmp.Sorted next) :
    Synced cmp o name before
      (ready cmp o name allowNulls lazily next (told o name allowNulls report s)) := by
  refine (h.queue allowNulls hkinds hsorted ?_ ?_).synced
  · rw [told, Tracker.pending_changed, Tracker.pending_announce]
  · rw [told, Tracker.stores_changed, Tracker.stores_announce]

/-- Loading succeeds and leaves a loaded queue in sync. -/
theorem ensureLoaded_of_synced {scene : Scene (TrackedQueue E) E}
    (h : Synced cmp o name before scene) :
    ∃ allowNulls lazily es s,
      ensureLoaded scene = .ok () (ready cmp o name allowNulls lazily es s) ∧
        Follows cmp o name before es s := by
  obtain ⟨⟨⟨owner, dispatch, allowNulls⟩, ⟨order, useCache, lazily, elements, loaded⟩⟩, s⟩ := scene
  obtain rfl : owner = some o := h.owner
  obtain rfl : dispatch = .queued (some name) := h.dispatch
  obtain rfl : order = cmp := h.order
  obtain rfl : useCache = true := h.useCache
  have hfollows := h.follows
  cases loaded with
  | true => exact ⟨allowNulls, lazily, elements, s, rfl, hfollows⟩
  | false =>
    -- The store is read; what it holds is sorted already, so it is taken over as it is.
    have hread : Session.access name (Store.elements o.id) s =
        .ok ((s.store name).contents o.id)
          (s.afterCalls name (s.store name).iterated) := by
      apply Session.access_ok
      rw [Store.elements_eq, hfollows.behind.reliable.reads]
      rfl
    have hsort : order.sort ((s.store name).contents o.id) = (s.store name).contents o.id :=
      Comparator.sort_of_sorted hfollows.sorted
    refine ⟨allowNulls, lazily, (s.store name).contents o.id,
      s.afterCalls name (s.store name).iterated, ?_, ?_⟩
    · change (read name (Store.elements o.id) >>= fun es => Tracked.setContent _)
        (_ : Scene (TrackedQueue E) E) = _
      rw [bind_apply]
      unfold read
      dsimp only
      rw [hread]
      change EStateM.Result.ok () _ = _
      rw [hsort]
      rfl
    · have hcontinues : s.Continues (s.afterCalls name (s.store name).iterated) :=
        Session.continues_afterCalls (s.store name).continues_iterated
      have hunwritten := hfollows.unwritten.iterated name
      have hview : (s.afterCalls name (s.store name).iterated).views = s.views :=
        hunwritten.views.trans hfollows.unwritten.views.symm
      refine ⟨?_, hfollows.behind.congr rfl (congrFun hview name) (hcontinues name),
        hfollows.sorted, hunwritten⟩
      rw [hcontinues.rules_eq]
      exact hfollows.order

/-- A call that loads the queue first keeps it in sync if it does so on a loaded queue. -/
theorem keeps_of_ready {α : Type} {body : Unit → Action E α}
    (h : ∀ allowNulls lazily es s, Follows cmp o name before es s →
      Synced cmp o name before
        (stateAfter (body ()) (ready cmp o name allowNulls lazily es s))) :
    Keeps (Synced cmp o name before) (ensureLoaded >>= body) := by
  intro scene hscene
  obtain ⟨allowNulls, lazily, es, s, hload, hfollows⟩ := ensureLoaded_of_synced hscene
  rw [stateAfter_bind, hload]
  exact h allowNulls lazily es s hfollows

end Follows

end TrackedQueue

end TrackedFields
