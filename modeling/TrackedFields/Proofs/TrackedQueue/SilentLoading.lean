import TrackedFields.Proofs.Session.Sends
import TrackedFields.Proofs.TrackedQueue.Shadowing
import TrackedFields.Proofs.TrackedQueue.WriteThrough

/-!
# Queues with a store of their own order

A priority queue with a reliable store of its own order, whether it keeps its content in memory or
not, has loaded it or not, and makes its changes right away or queues them. What it does passes
relation changes on to the owner and operations to the store. Loading passes nothing on, so that it
is enough to look at queues that are prepared.
-/

namespace TrackedFields.TrackedQueue

variable {E α β : Type}

/-- An action that loads first, and so comes to the same on a queue that was loaded just before. -/
def LoadsFirst (action : Action E α) : Prop :=
  ∀ scene mid, ensureLoaded scene = .ok () mid → ensureLoaded mid = .ok () mid →
    action scene = action mid

/-- An action that begins with loading loads first. -/
theorem loadsFirst_bind (body : Unit → Action E α) : LoadsFirst (ensureLoaded >>= body) := by
  intro scene mid hload hagain
  rw [bind_apply, bind_apply, hload, hagain]

/-- A sequence loads first if its first part does. -/
theorem LoadsFirst.bind {action : Action E α} (h : LoadsFirst action) (next : α → Action E β) :
    LoadsFirst (action >>= next) := by
  intro scene mid hload hagain
  rw [bind_apply, bind_apply, h scene mid hload hagain]

/-- A queue of a field whose relations are managed, with a reliable store of its own order. If it
makes its changes right away, nothing waits. -/
structure Supplied (cmp : Comparator E) (o : Owner) (name : StoreName)
    (scene : Scene (TrackedQueue E) E) : Prop where
  owner : scene.value.tracker.owner = some o
  order : scene.value.content.order = cmp
  managed : scene.session.settings.manageRelationships = true
  storeOrder : (scene.session.rules name).order = some cmp
  reliable : (scene.session.store name).Reliable
  fits : (scene.session.rules name).Fits (held o name scene)
  heads : ∀ operation ∈ scene.session.pending, operation.kind.FromHead
  way : scene.value.tracker.dispatch = .immediate name ∧ scene.session.pending = [] ∨
    scene.value.tracker.dispatch = .queued (some name) ∧ scene.session.Dedicated name o.id

section Supply

variable {cmp : Comparator E} {o : Owner} {name : StoreName} {scene : Scene (TrackedQueue E) E}

/-- The changes of a queue go to one store. -/
theorem Supplied.feeds (h : Supplied cmp o name scene) : scene.value.tracker.Feeds name :=
  h.way.imp And.left And.left

/-- The store of a queue. -/
theorem Supplied.channel (h : Supplied cmp o name scene) :
    scene.value.tracker.channel = some (name, o.id) := by
  rcases h.feeds with hname | hname
  · rw [Tracker.channel, hname, h.owner]
  · rw [Tracker.channel, hname, h.owner]

/-- A prepared queue holds its full content if it keeps it in memory. -/
theorem Supplied.isAuthoritative_eq (h : Supplied cmp o name scene)
    (hprepared : Prepared scene.value) :
    scene.value.isAuthoritative = scene.value.content.useCache := by
  cases huse : scene.value.content.useCache with
  | true => exact hprepared huse
  | false =>
    rw [isAuthoritative, hasStore, h.channel, huse]
    rfl

/-- A prepared queue has loaded the content that it keeps in memory. -/
theorem Supplied.loaded (h : Supplied cmp o name scene) (hprepared : Prepared scene.value)
    (huse : scene.value.content.useCache = true) : scene.value.content.loaded = true := by
  have hboth := hprepared huse
  unfold isAuthoritative hasStore at hboth
  rw [h.channel] at hboth
  simpa [huse] using hboth

/-- The order of a store is the total preorder of its queue. -/
theorem Supplied.lawful [Std.TransCmp cmp] (h : Supplied cmp o name scene) (order : Comparator E)
    (horder : (scene.session.rules name).order = some order) : Std.TransCmp order := by
  rw [h.storeOrder] at horder
  cases horder
  infer_instance

/-- What waits removes nothing by position but heads. -/
theorem Supplied.fromHead (h : Supplied cmp o name scene) :
    ∀ kind ∈ scene.session.pending.map Operation.kind, kind.FromHead := by
  intro kind hmem
  obtain ⟨operation, hoperation, rfl⟩ := List.mem_map.mp hmem
  exact h.heads operation hoperation

/-- The elements in memory once a queue is prepared. -/
def onceLoaded (o : Owner) (name : StoreName) (scene : Scene (TrackedQueue E) E) : List E :=
  if scene.value.content.useCache && !scene.value.content.loaded then held o name scene
  else scene.value.content.elements

/-- A prepared queue has nothing more to load. -/
theorem Supplied.onceLoaded_eq (h : Supplied cmp o name scene) (hprepared : Prepared scene.value) :
    onceLoaded o name scene = scene.value.content.elements := by
  unfold onceLoaded
  cases huse : scene.value.content.useCache with
  | false => rfl
  | true =>
    rw [h.loaded hprepared huse]
    rfl

end Supply

variable [DecidableEq E]

/-- What a queue passed on between two moments, and the elements that remain in its memory; by then,
it has loaded its content, if it keeps that in memory. -/
structure Passes (o : Owner) (name : StoreName) (relations : List (RelationChange E))
    (kinds : List (OperationKind E)) (remaining : List E) (scene after : Scene (TrackedQueue E) E) :
    Prop where
  tracker : after.value.tracker = scene.value.tracker
  order : after.value.content.order = scene.value.content.order
  useCache : after.value.content.useCache = scene.value.content.useCache
  loaded : scene.value.content.useCache = true → after.value.content.loaded = true
  elements : after.value.content.elements = remaining
  sends : Session.Sends scene.value.tracker o name relations kinds scene.session after.session

section Passing

variable {cmp : Comparator E} {o : Owner} {name : StoreName}
  {relations more : List (RelationChange E)} {kinds later : List (OperationKind E)}
  {remaining rest : List E} {scene mid after : Scene (TrackedQueue E) E}

/-- A queue passes on one after the other. -/
theorem Passes.trans (h : Passes o name relations kinds remaining scene mid)
    (h' : Passes o name more later rest mid after) :
    Passes o name (relations ++ more) (kinds ++ later) rest scene after := by
  have hsends := h'.sends
  rw [h.tracker] at hsends
  exact ⟨h'.tracker.trans h.tracker, h'.order.trans h.order, h'.useCache.trans h.useCache,
    fun huse => h'.loaded (h.useCache.trans huse), h'.elements, h.sends.trans hsends⟩

/-- What a change passes on that is reported after the store was looked at or called. -/
theorem Passes.reported {t : Tracker} {content : QueueContent E} {s called : Session E}
    {report : Report E} (hloaded : content.useCache = true → content.loaded = true)
    (hsends : Session.Sends t o name [] later s called) (howner : t.owner = some o)
    (hrelations : report.relations = relations)
    (hkinds : (later ++ if t.isQueued then report.operations else []) = kinds) :
    Passes o name relations kinds remaining ⟨⟨t, content⟩, s⟩
      ⟨⟨t, { content with elements := remaining }⟩, t.changed (t.announce report called)⟩ := by
  refine ⟨rfl, rfl, rfl, hloaded, rfl, ?_⟩
  rw [← hrelations, ← hkinds]
  exact hsends.reported howner report

/-- What the store would hold after a flush is what the waiting operations make of what it holds, as
far as they can be carried out. -/
theorem Supplied.flushed_eq (h : Supplied cmp o name scene) :
    scene.session.flushed name o.id = OperationKind.carryOutFar (scene.session.rules name)
      (held o name scene) (scene.session.pending.map Operation.kind) := by
  rcases h.way with ⟨-, hpending⟩ | ⟨-, hdedicated⟩
  · rw [Session.flushed, Session.stateAfter_flush_of_nil hpending, hpending]
    rfl
  · exact (hdedicated.flushed none).contents

/-- What the store would hold after a flush fits there. -/
theorem Supplied.fits_flushed [Std.TransCmp cmp] (h : Supplied cmp o name scene) :
    (scene.session.rules name).Fits (scene.session.flushed name o.id) := by
  rw [h.flushed_eq]
  exact OperationKind.fits_carryOutFar h.lawful h.fits h.fromHead

/-- Where changes are made right away, a flush changes nothing. -/
theorem Supplied.flushed_of_not_isQueued (h : Supplied cmp o name scene)
    (hqueued : scene.value.tracker.isQueued = false) :
    scene.session.flushed name o.id = held o name scene := by
  rw [h.flushed_eq]
  rcases h.way with ⟨-, hpending⟩ | ⟨hname, -⟩
  · rw [hpending]
    rfl
  · rw [Tracker.isQueued, hname] at hqueued
    cases hqueued

/-- A queue stays supplied when it passes on operations that remove nothing by position but
heads. -/
theorem Passes.supplied [Std.TransCmp cmp]
    (hpasses : Passes o name relations kinds remaining scene after) (h : Supplied cmp o name scene)
    (hheads : ∀ kind ∈ kinds, kind.FromHead) : Supplied cmp o name after := by
  obtain ⟨htracker, horder, -, -, -, hsends⟩ := hpasses
  have hrules : after.session.rules name = scene.session.rules name := hsends.continues.rules
  rcases h.way with ⟨hname, hpending⟩ | ⟨hname, hdedicated⟩
  · -- Made right away: the store holds what the changes come to, and nothing waits.
    obtain ⟨hkept, hcarried⟩ := hsends.made hname
    rw [hpending] at hkept
    refine ⟨?_, horder.trans h.order, hsends.managed.trans h.managed, ?_,
      hsends.continues.reliable h.reliable, ?_, ?_, .inl ⟨?_, hkept⟩⟩
    · rw [htracker]
      exact h.owner
    · rw [hrules]
      exact h.storeOrder
    · rw [hrules]
      exact OperationKind.fits_carryOutAll h.lawful h.fits hcarried
    · rw [hkept]
      exact nofun
    · rw [htracker]
      exact hname
  · -- Queued: the store shows what it showed, and the changes wait behind the others.
    obtain ⟨hqueued, hview⟩ := hsends.queued hname
    have hheld : held o name after = held o name scene :=
      congrFun (congrArg Store.View.contents hview) o.id
    rw [Tracker.queued_eq_map h.owner hname] at hqueued
    refine ⟨?_, horder.trans h.order, hsends.managed.trans h.managed, ?_,
      hsends.continues.reliable h.reliable, ?_, ?_, .inr ⟨?_, ?_, hsends.continues.reliable
        h.reliable, ?_⟩⟩
    · rw [htracker]
      exact h.owner
    · rw [hrules]
      exact h.storeOrder
    · rw [hrules, hheld]
      exact h.fits
    · rw [hqueued]
      intro operation hmem
      rcases List.mem_append.mp hmem with hmem | hmem
      · exact h.heads operation hmem
      · obtain ⟨kind, hkind, rfl⟩ := List.mem_map.mp hmem
        exact hheads kind hkind
    · rw [htracker]
      exact hname
    · change (after.session.store name).view.InOrder (after.session.rules name)
      rw [hview, hrules]
      exact hdedicated.inOrder
    · rw [hqueued]
      intro operation hmem
      rcases List.mem_append.mp hmem with hmem | hmem
      · exact hdedicated.waiting operation hmem
      · obtain ⟨kind, -, rfl⟩ := List.mem_map.mp hmem
        exact ⟨rfl, rfl⟩

/-- What the store would hold after a flush, once a queue has passed on operations that leave an
empty container empty. -/
theorem Passes.flushed (hpasses : Passes o name relations kinds remaining scene after)
    (h : Supplied cmp o name scene) (hafter : Supplied cmp o name after)
    (hempty : OperationKind.carryOutFar (scene.session.rules name) [] kinds = []) :
    after.session.flushed name o.id = OperationKind.carryOutFar (scene.session.rules name)
      (scene.session.flushed name o.id) kinds := by
  have hrules : after.session.rules name = scene.session.rules name :=
    hpasses.sends.continues.rules
  rw [hafter.flushed_eq, h.flushed_eq, hrules,
    ← OperationKind.carryOutFar_append h.fromHead hempty]
  rcases h.way with ⟨hname, hpending⟩ | ⟨hname, -⟩
  · obtain ⟨hkept, hcarried⟩ := hpasses.sends.made hname
    rw [hkept, hpending, List.map_nil, List.nil_append]
    exact (OperationKind.carryOutFar_of_some hcarried).symm
  · obtain ⟨hqueued, hview⟩ := hpasses.sends.queued hname
    have hheld : held o name after = held o name scene :=
      congrFun (congrArg Store.View.contents hview) o.id
    rw [hheld, hqueued, List.map_append, Tracker.map_kind_queued h.owner hname]

end Passing

/-! ### Loading and reading -/

section Calls

variable {cmp : Comparator E} {o : Owner} {name : StoreName} {scene : Scene (TrackedQueue E) E}

/-- A read of the store that shows nothing answers and passes nothing on. -/
theorem exists_read_silent {action : StoreAction E α} {answer : α} (hsilent : Silent action)
    (haction : (scene.session.store name).Carries o.id action answer []) :
    ∃ s, read name action scene = .ok answer { scene with session := s } ∧
      Session.Sends scene.value.tracker o name [] [] scene.session s := by
  obtain ⟨store, hcall, hcontinues, hstock⟩ := haction
  obtain ⟨hview, -⟩ := hsilent (scene.session.store name)
  rw [stateAfter_of_ok hcall] at hview
  refine ⟨_, read_of_ok hcall, .afterCalls _ hcontinues (fun _ => ?_) fun _ => ⟨rfl, hview⟩⟩
  exact congrArg some (congrArg Shelf.elements (Option.some.inj hstock))

/-- The elements that are read are those that the store holds. -/
theorem Supplied.read_elements (h : Supplied cmp o name scene)
    (fromMemory : QueueContent E → List E) :
    ∃ s, readEither true Store.elements fromMemory scene =
        .ok (held o name scene) { scene with session := s } ∧
      Session.Sends scene.value.tracker o name [] [] scene.session s := by
  rw [readEither_of_channel h.channel, if_pos rfl]
  exact exists_read_silent (silent_elements o.id) (Store.carries_elements h.reliable o.id)

/-- A queue that does not keep its content in memory looks for an element in the store. -/
theorem Supplied.read_contains (h : Supplied cmp o name scene) (e : E)
    (huse : scene.value.content.useCache = false) :
    ∃ s, contains e scene = .ok ((held o name scene).contains e) { scene with session := s } ∧
      Session.Sends scene.value.tracker o name [] [] scene.session s := by
  have hpart : scene.value.isAuthoritative = false := by
    rw [isAuthoritative, hasStore, h.channel, huse]
    rfl
  unfold contains
  rw [bind_apply, current_apply]
  dsimp only
  rw [hpart, readEither_of_channel h.channel, Bool.not_false, if_pos rfl]
  exact exists_read_silent (silent_reading (.contains e) _)
    (Store.carries_reading h.reliable o.id (.contains e) fun st => (st.contents o.id).contains e)

/-- Loading a queue passes nothing on, also one that does not keep its content in memory. -/
theorem Supplied.exists_loadFromStore (h : Supplied cmp o name scene) :
    ∃ after, loadFromStore scene = .ok () after ∧ after.value.content.loaded = true ∧
      Passes o name [] [] (if scene.value.content.loaded then scene.value.content.elements
        else held o name scene) scene after := by
  cases hloaded : scene.value.content.loaded with
  | true =>
    exact ⟨scene, loadFromStore_of_not_awaiting fun _ _ => hloaded, hloaded, rfl, rfl, rfl,
      fun _ => hloaded, rfl, .refl _ o name scene.session⟩
  | false =>
    obtain ⟨s, hread, hsends⟩ :=
      exists_read_silent (silent_elements o.id) (Store.carries_elements h.reliable o.id)
    have hsort : scene.value.content.order.sort (held o name scene) = held o name scene := by
      rw [h.order]
      exact Comparator.sort_of_sorted (h.fits cmp h.storeOrder)
    exact ⟨_, loadFromStore_of_read h.channel hloaded hread, rfl, rfl, rfl, rfl, fun _ => rfl,
      hsort, hsends⟩

/-- Preparing a queue passes nothing on. -/
theorem Supplied.exists_prepared (h : Supplied cmp o name scene) :
    ∃ after, ensureLoaded scene = .ok () after ∧ Prepared after.value ∧
      Passes o name [] [] (onceLoaded o name scene) scene after := by
  rw [ensureLoaded_apply]
  unfold onceLoaded
  cases huse : scene.value.content.useCache with
  | false =>
    refine ⟨scene, if_neg Bool.false_ne_true, fun huse' => ?_, rfl, rfl, rfl, fun huse' => ?_, rfl,
      .refl _ o name scene.session⟩
    · rw [huse] at huse'
      cases huse'
    · rw [huse] at huse'
      cases huse'
  | true =>
    obtain ⟨after, hload, hloaded, hpasses⟩ := h.exists_loadFromStore
    refine ⟨after, hload, fun _ => ?_, ?_⟩
    · rw [isAuthoritative, hpasses.useCache, huse, hloaded]
      exact Bool.or_true _
    · cases hbefore : scene.value.content.loaded with
      | true => simpa [hbefore] using hpasses
      | false => simpa [hbefore] using hpasses

end Calls

/-! ### Loading first -/

/-- A prepared queue that a supplied queue becomes by loading, and on which a call that loads first
comes to the same. -/
structure Loaded (cmp : Comparator E) (o : Owner) (name : StoreName)
    (scene mid : Scene (TrackedQueue E) E) : Prop where
  supplied : Supplied cmp o name mid
  prepared : Prepared mid.value
  passes : Passes o name [] [] (onceLoaded o name scene) scene mid
  same : ∀ {α : Type} {action : Action E α}, LoadsFirst action →
    stateAfter action scene = stateAfter action mid

section Loading

variable {cmp : Comparator E} {o : Owner} {name : StoreName}
  {relations : List (RelationChange E)} {kinds : List (OperationKind E)} {remaining : List E}
  {scene mid : Scene (TrackedQueue E) E}

/-- Every supplied queue can be loaded. -/
theorem Supplied.exists_loaded [Std.TransCmp cmp] (h : Supplied cmp o name scene) :
    ∃ mid, Loaded cmp o name scene mid := by
  obtain ⟨mid, hload, hprepared, hpasses⟩ := h.exists_prepared
  refine ⟨mid, hpasses.supplied h nofun, hprepared, hpasses, fun hloads => ?_⟩
  unfold stateAfter
  rw [hloads scene mid hload hprepared.ensureLoaded_eq]

/-- What a call that loads first passes on, once the queue is loaded, it passes on. -/
theorem Loaded.lift (hmid : Loaded cmp o name scene mid) {action : Action E α}
    (hloads : LoadsFirst action)
    (hpasses : Passes o name relations kinds remaining mid (stateAfter action mid)) :
    Passes o name relations kinds remaining scene (stateAfter action scene) := by
  rw [hmid.same hloads]
  exact hmid.passes.trans hpasses

/-- Loading does not change what the store holds. -/
theorem Loaded.held_eq (hmid : Loaded cmp o name scene mid) (h : Supplied cmp o name scene) :
    held o name mid = held o name scene := hmid.passes.sends.contents_eq h.feeds

/-- What is loaded stays in memory. -/
theorem Loaded.onceLoaded_eq (hmid : Loaded cmp o name scene mid) :
    onceLoaded o name mid = onceLoaded o name scene :=
  (hmid.supplied.onceLoaded_eq hmid.prepared).trans hmid.passes.elements

end Loading

end TrackedFields.TrackedQueue
