import TrackedFields.Proofs.Session.Marks
import TrackedFields.Proofs.TrackedQueue.TrackerIndependence

/-!
# Queues with and without store in lockstep

A loaded queue that keeps its content in memory and makes its changes right away decides every
change from memory. Whichever calls its store rejects, it runs in lockstep with a queue that has no
store: both hold the same, mark their fields equally often and refuse the same calls, and a call
fails for no other reason.
-/

namespace TrackedFields

namespace TrackedQueue

open Session (Marks)

variable {E : Type} {o o' : Owner} {name : StoreName} {q q' : TrackedQueue E}

/-- Two queues with the same elements, order and null policy: a loaded one that keeps its content in
memory and makes its changes right away, and one without store. -/
structure Paired (o o' : Owner) (name : StoreName) (q q' : TrackedQueue E) : Prop where
  owner : q.tracker.owner = some o
  owner' : q'.tracker.owner = some o'
  dispatch : q.tracker.dispatch = .immediate name
  dispatch' : q'.tracker.dispatch = .memory
  allowNulls : q.tracker.allowNulls = q'.tracker.allowNulls
  useCache : q.content.useCache = true
  loaded : q.content.loaded = true
  order : q.content.order = q'.content.order
  elements : q.content.elements = q'.content.elements

/-- Paired queues, each in a session of its own. Since two earlier moments, their fields were marked
equally often, as far as their owners are in memory. -/
structure Companions (o o' : Owner) (name : StoreName) (since since' : Session E)
    (scene scene' : Scene (TrackedQueue E) E) : Prop where
  queues : Paired o o' name scene.value scene'.value
  marks : ∃ n, Marks o n since scene.session ∧ Marks o' n since' scene'.session

/-- Both fields refused a null element. -/
def Refused (o o' : Owner) (failure failure' : Failure) : Prop :=
  failure = .nullElement o.descriptor.name ∧ failure' = .nullElement o'.descriptor.name

variable {since since' : Session E}

/-! ### What paired queues have in common -/

/-- The first queue of a pair has a store. -/
theorem Paired.channel (h : Paired o o' name q q') : q.tracker.channel = some (name, o.id) := by
  rw [Tracker.channel, h.dispatch, h.owner]

/-- The second queue of a pair has none. -/
theorem Paired.channel' (h : Paired o o' name q q') : q'.tracker.channel = none := by
  rw [Tracker.channel, h.dispatch']

/-- The queue with a store holds the full content. -/
theorem Paired.isAuthoritative (h : Paired o o' name q q') : q.isAuthoritative = true := by
  rw [TrackedQueue.isAuthoritative, h.useCache, h.loaded]
  exact Bool.or_true _

/-- The queue without store holds the full content. -/
theorem Paired.isAuthoritative' (h : Paired o o' name q q') : q'.isAuthoritative = true := by
  rw [TrackedQueue.isAuthoritative, hasStore, h.channel']
  rfl

/-- Neither queue of a pair queues its changes; the first one makes them right away. -/
theorem Paired.isQueued (h : Paired o o' name q q') : q.tracker.isQueued = false := by
  rw [Tracker.isQueued, h.dispatch]

/-- Nothing is loaded any more. -/
theorem Paired.ensureLoaded_eq (h : Paired o o' name q q') (s : Session E) :
    ensureLoaded ⟨q, s⟩ = .ok () ⟨q, s⟩ := ensureLoaded_of_whole h.isAuthoritative

/-- The queue with a store lists what it holds in memory. -/
theorem Paired.toList_eq (h : Paired o o' name q q') (s : Session E) :
    toList ⟨q, s⟩ = .ok q.content.elements ⟨q, s⟩ := by
  unfold toList
  rw [bind_apply, h.ensureLoaded_eq]
  change readEither (!q.content.useCache) Store.elements _ ⟨q, s⟩ = _
  rw [readEither_of_channel h.channel, h.useCache]
  rfl

/-- Paired queues are counterparts. -/
theorem Paired.counterparts (h : Paired o o' name q q') :
    Counterparts q.tracker q'.tracker q q' :=
  ⟨rfl, rfl, h.isAuthoritative, h.isAuthoritative', h.order, h.elements⟩

/-- Counterparts of paired queues with the same trackers are paired. -/
theorem Counterparts.paired {r r' : TrackedQueue E} (h : Paired o o' name q q')
    (hnext : Counterparts q.tracker q'.tracker r r') : Paired o o' name r r' := by
  have hstore : r.hasStore = true := by
    rw [hasStore, hnext.tracker, h.channel]
    rfl
  obtain ⟨huse, hloaded⟩ := cached_of_whole hnext.whole hstore
  constructor
  case owner => rw [hnext.tracker, h.owner]
  case owner' => rw [hnext.tracker', h.owner']
  case dispatch => rw [hnext.tracker, h.dispatch]
  case dispatch' => rw [hnext.tracker', h.dispatch']
  case allowNulls => rw [hnext.tracker, hnext.tracker', h.allowNulls]
  case useCache => exact huse
  case loaded => exact hloaded
  case order => exact hnext.order
  case elements => exact hnext.elements

/-- Requests of two queues that are paired keep their fields marked equally often. -/
theorem Paired.tandem [DecidableEq E] [Element E] (h : Paired o o' name q q') :
    q.tracker.Tandem q'.tracker fun s s' => ∃ n, Marks o n since s ∧ Marks o' n since' s' where
  allowNulls := h.allowNulls
  tells := fun htells ⟨n, hn, hn'⟩ => ⟨n, hn.trans (.of_unmarked o htells.unmarked), hn'⟩
  tells' := fun htells ⟨n, hn, hn'⟩ => ⟨n, hn, hn'.trans (.of_unmarked o' htells.unmarked)⟩
  markDirty := fun ⟨n, hn, hn'⟩ =>
    ⟨n + 1, hn.trans (Tracker.marks_markDirty h.owner _),
      hn'.trans (Tracker.marks_markDirty h.owner' _)⟩
  changed := fun ⟨n, hn, hn'⟩ =>
    ⟨n + 1, hn.trans (Tracker.marks_changed h.owner _),
      hn'.trans (Tracker.marks_changed h.owner' _)⟩

/-- Every call runs in lockstep. -/
theorem Call.inStep [DecidableEq E] [Element E] (call : Call E) :
    Lockstep (Companions o o' name since since') (Refused o o') (fun _ _ => True) call.run
      call.run := by
  intro scene scene' h
  have hend := call.neutral h.queues.tandem scene scene' ⟨h.queues.counterparts, h.marks⟩
  generalize call.run scene = result, call.run scene' = result' at hend ⊢
  cases hend with
  | ok _ states => exact .ok trivial ⟨states.queues.paired h.queues, states.sessions⟩
  | error failures states =>
    refine .error ?_ ⟨states.queues.paired h.queues, states.sessions⟩
    rwa [Tracker.NullRefusal, Tracker.fieldName, Tracker.fieldName, h.queues.owner,
      h.queues.owner'] at failures

end TrackedQueue

end TrackedFields
