import TrackedFields.Proofs.Session.Heads
import TrackedFields.Proofs.TrackedQueue.Convergence
import TrackedFields.Proofs.TrackedQueue.Shows

/-!
# Queues that only follow their changes

A priority queue that queues its changes and does not keep its content in memory holds no more than
the changes made through it. Every call on it leaves what the store shows alone and lets operations
wait: all of them by value, except that removing the head always lets the removal of the stored head
wait, whatever it answers.
-/

namespace TrackedFields.TrackedQueue

/-- A queue that queues its changes and does not keep its content in memory. The queue of the
session holds the given operations, and what the store shows is what it showed at an earlier moment.
-/
structure Shadowing {E : Type} (o : Owner) (name : StoreName) (before : Session E)
    (kinds : List (OperationKind E)) (scene : Scene (TrackedQueue E) E) : Prop where
  owner : scene.value.tracker.owner = some o
  dispatch : scene.value.tracker.dispatch = .queued (some name)
  useCache : scene.value.content.useCache = false
  pending : scene.session.pending = scene.value.tracker.queued kinds
  view : (scene.session.store name).view = (before.store name).view
  continues : (before.store name).Continues (scene.session.store name)

/-- A shadowing queue that has queued more operations by value. -/
def Extending {E : Type} (o : Owner) (name : StoreName) (before : Session E)
    (kinds : List (OperationKind E)) (scene : Scene (TrackedQueue E) E) : Prop :=
  ∃ more, (∀ kind ∈ more, kind.ByValue) ∧ Shadowing o name before (kinds ++ more) scene

/-- A store call that shows nothing. -/
def Silent {E α : Type} (action : StoreAction E α) : Prop :=
  ∀ st : Store E, (stateAfter action st).view = st.view ∧ st.Continues (stateAfter action st)

section Keeping

variable {E α β : Type} {o : Owner} {name : StoreName} {before : Session E}
  {kinds : List (OperationKind E)} {scene : Scene (TrackedQueue E) E}

/-- Requests that leave queue and stores alone do not matter. -/
theorem Shadowing.of_stores_eq (h : Shadowing o name before kinds scene) {after : Session E}
    (hpending : after.pending = scene.session.pending)
    (hstores : after.stores = scene.session.stores) :
    Shadowing o name before kinds { scene with session := after } := by
  have hstore : after.store name = scene.session.store name :=
    Session.store_of_stores_eq hstores name
  refine ⟨h.owner, h.dispatch, h.useCache, hpending.trans h.pending, ?_, ?_⟩
  · rw [hstore]
    exact h.view
  · rw [hstore]
    exact h.continues

/-- Content that is not kept either does not matter. -/
theorem Shadowing.setContent (h : Shadowing o name before kinds scene)
    {content : QueueContent E} (huse : content.useCache = false) :
    Shadowing o name before kinds { scene with value := { scene.value with content } } :=
  ⟨h.owner, h.dispatch, huse, h.pending, h.view, h.continues⟩

/-- Operations that are queued follow those that wait. -/
theorem Shadowing.queue (h : Shadowing o name before kinds scene) {after : Session E}
    {more : List (OperationKind E)}
    (hpending : after.pending = scene.session.pending ++ scene.value.tracker.queued more)
    (hstores : after.stores = scene.session.stores) :
    Shadowing o name before (kinds ++ more) { scene with session := after } := by
  have hstore : after.store name = scene.session.store name :=
    Session.store_of_stores_eq hstores name
  refine ⟨h.owner, h.dispatch, h.useCache, ?_, ?_, ?_⟩
  · rw [hpending, h.pending, ← Tracker.queued_append]
  · rw [hstore]
    exact h.view
  · rw [hstore]
    exact h.continues

/-- The session of a shadowing queue is dedicated to it. -/
theorem Shadowing.dedicated (h : Shadowing o name before kinds scene)
    (hin : (before.views name).InOrder (before.rules name))
    (hreliable : (before.store name).Reliable) : scene.session.Dedicated name o.id := by
  refine ⟨?_, h.continues.reliable hreliable, ?_⟩
  · change (scene.session.store name).view.InOrder (scene.session.store name).rules
    rw [h.view, h.continues.rules]
    exact hin
  · rw [h.pending, Tracker.queued_eq_map h.owner h.dispatch]
    intro operation hmem
    obtain ⟨kind, -, rfl⟩ := List.mem_map.mp hmem
    exact ⟨rfl, rfl⟩

/-- What the queued operations of a shadowing queue meet is what the store showed before. -/
theorem Shadowing.meets (h : Shadowing o name before kinds scene) :
    scene.session.rules name = before.rules name ∧
      (scene.session.store name).contents o.id = (before.store name).contents o.id ∧
      scene.session.pending.map Operation.kind = kinds := by
  refine ⟨h.continues.rules, congrFun (congrArg Store.View.contents h.view) o.id, ?_⟩
  rw [h.pending, Tracker.queued_eq_map h.owner h.dispatch, List.map_map]
  exact List.map_id kinds

/-- The store of a shadowing queue. -/
theorem Shadowing.channel (h : Shadowing o name before kinds scene) :
    scene.value.tracker.channel = some (name, o.id) := by
  rw [Tracker.channel, h.dispatch, h.owner]

/-- The elements in memory of a shadowing queue are not its full content. -/
theorem Shadowing.isAuthoritative (h : Shadowing o name before kinds scene) :
    scene.value.isAuthoritative = false := by
  rw [TrackedQueue.isAuthoritative, hasStore, h.channel, h.useCache]
  rfl

/-- The changes of a shadowing queue wait for a flush. -/
theorem Shadowing.isQueued (h : Shadowing o name before kinds scene) :
    scene.value.tracker.isQueued = true := by
  rw [Tracker.isQueued, h.dispatch]

/-- A shadowing queue has nothing to load. -/
theorem Shadowing.ensureLoaded_eq (h : Shadowing o name before kinds scene) :
    ensureLoaded scene = .ok () scene := by
  rw [ensureLoaded_apply, h.useCache]
  rfl

/-- A queue that queues its changes makes none in the store. -/
theorem forward_queued {t : Tracker} {store : Option StoreName}
    (hdispatch : t.dispatch = .queued store) (operation : String)
    (action : ObjectId → StoreAction E α) (content : QueueContent E) (s : Session E) :
    forward operation action ⟨⟨t, content⟩, s⟩ = .ok .skipped ⟨⟨t, content⟩, s⟩ := by
  apply forward_apply
  rw [Tracker.forward, hdispatch]

/-- A shadowing queue makes no change in the store. -/
theorem Shadowing.forward_eq (h : Shadowing o name before kinds scene) (operation : String)
    (action : ObjectId → StoreAction E α) :
    forward operation action scene = .ok .skipped scene :=
  forward_queued h.dispatch operation action scene.value.content scene.session

/-- A read shows nothing. -/
theorem silent_reading (call : StoreCall E) (answer : Store E → α) :
    Silent (Store.reading call answer) := by
  intro st
  rw [stateAfter, Store.reading_eq]
  by_cases hnow : st.reads.now = true
  · rw [if_pos hnow]
    exact ⟨rfl, st.continues_afterRead call⟩
  · rw [if_neg hnow]
    exact ⟨rfl, st.continues_afterRead call⟩

/-- Reading a whole container shows nothing. -/
theorem silent_elements (owner : ObjectId) :
    Silent (Store.elements owner : StoreAction E (List E)) := by
  intro st
  rw [stateAfter, Store.elements_eq]
  by_cases hnow : st.reads.now = true
  · rw [if_pos hnow]
    exact ⟨rfl, st.continues_afterRead .elements⟩
  · rw [if_neg hnow]
    exact ⟨rfl, st.continues_iterated⟩

/-- A read leaves a shadowing queue as it is. -/
theorem Shadowing.read (h : Shadowing o name before kinds scene) {store : StoreName}
    {action : StoreAction E α} (hsilent : Silent action) :
    Shadowing o name before kinds (stateAfter (TrackedQueue.read store action) scene) := by
  have hafter : stateAfter (TrackedQueue.read store action) scene = { scene with
      session := scene.session.afterCalls store
        (stateAfter action (scene.session.store store)) } := by
    unfold stateAfter TrackedQueue.read Session.access
    cases action (scene.session.store store) <;> rfl
  obtain ⟨hview, hcontinues⟩ := hsilent (scene.session.store store)
  rw [hafter]
  refine ⟨h.owner, h.dispatch, h.useCache, h.pending, ?_, ?_⟩
  · change ((scene.session.afterCalls store _).store name).view = _
    rw [Session.store_afterCalls]
    split
    · next hname =>
      rw [hview, ← hname]
      exact h.view
    · exact h.view
  · change (before.store name).Continues ((scene.session.afterCalls store _).store name)
    rw [Session.store_afterCalls]
    split
    · next hname =>
      rw [hname] at h ⊢
      exact h.continues.trans hcontinues
    · exact h.continues

/-! ### Parts of calls -/

/-- Looking at the queue keeps everything. -/
theorem keeps_current {P : Scene (TrackedQueue E) E → Prop} : Keeps P (current (E := E)) :=
  fun _ h => h

/-- Loading loads nothing. -/
theorem extends_ensureLoaded :
    Keeps (Extending o name before kinds) (ensureLoaded (E := E)) := by
  rintro scene ⟨more, hmore, h⟩
  rw [stateAfter_of_ok h.ensureLoaded_eq]
  exact ⟨more, hmore, h⟩

/-- Setting the elements in memory does not matter. -/
theorem extends_setElements (es : List E) :
    Keeps (Extending o name before kinds) (setElements es) := by
  rintro scene ⟨more, hmore, h⟩
  exact ⟨more, hmore, h.setContent h.useCache⟩

/-- No change is made in the store. -/
theorem extends_forward (operation : String) (action : ObjectId → StoreAction E α) :
    Keeps (Extending o name before kinds) (forward operation action) := by
  rintro scene ⟨more, hmore, h⟩
  rw [stateAfter_of_ok (h.forward_eq operation action)]
  exact ⟨more, hmore, h⟩

/-- The end of a change does not matter. -/
theorem extends_changed : Keeps (Extending o name before kinds) (changed (E := E)) := by
  rintro scene ⟨more, hmore, h⟩
  exact ⟨more, hmore, h.of_stores_eq (Tracker.pending_changed _ _) (Tracker.stores_changed _ _)⟩

/-- Elements from outside the session do not matter. -/
theorem extends_attach (es : List E) :
    Keeps (Extending o name before kinds) (Tracked.attach es) := by
  rintro scene ⟨more, hmore, h⟩
  exact ⟨more, hmore, h.of_stores_eq (Tracker.pending_attach _ _ es) (Tracker.stores_attach _ _ es)⟩

/-- Reading from store or memory does not matter. -/
theorem extends_readEither {fromStore : Bool} {action : ObjectId → StoreAction E α}
    {fromMemory : QueueContent E → α} (haction : ∀ owner, Silent (action owner)) :
    Keeps (Extending o name before kinds) (readEither fromStore action fromMemory) := by
  have hread (store : StoreName) (owner : ObjectId) :
      Keeps (Extending o name before kinds) (read store (action owner)) := by
    rintro scene ⟨more, hmore, h⟩
    exact ⟨more, hmore, h.read (haction owner)⟩
  refine keeps_current.bind fun q => ?_
  split
  · next store owner _ => exact (hread store owner).ite (Keeps.pure _)
  · exact Keeps.pure _

/-- Listing the elements does not matter. -/
theorem extends_toList : Keeps (Extending o name before kinds) (toList (E := E)) :=
  extends_ensureLoaded.bind fun _ => Keeps.content?.bind fun _ =>
    extends_readEither silent_elements

variable [DecidableEq E]

/-- A report of operations by value extends the queue by them. -/
theorem extends_announce {report : Report E} (hreport : ∀ kind ∈ report.operations, kind.ByValue) :
    Keeps (Extending o name before kinds) (announce report) := by
  rintro scene ⟨more, hmore, h⟩
  refine ⟨more ++ report.operations, ?_, ?_⟩
  · intro kind hmem
    rcases List.mem_append.mp hmem with hmem | hmem
    · exact hmore kind hmem
    · exact hreport kind hmem
  · rw [← List.append_assoc]
    exact h.queue (Tracker.pending_announce _ _ report) (Tracker.stores_announce _ _ report)

/-- Asking for an element does not matter. -/
theorem extends_contains (e : E) : Keeps (Extending o name before kinds) (contains e) :=
  keeps_current.bind fun _ => extends_readEither fun _ => silent_reading _ _

/-! ### Calls -/

omit [DecidableEq E] in
private theorem byValue_added (es : List E) :
    ∀ kind ∈ (Report.added es).operations, kind.ByValue := by
  intro kind hmem
  obtain ⟨e, -, rfl⟩ := List.mem_map.mp hmem
  exact trivial

omit [DecidableEq E] in
private theorem byValue_removed (es : List E) (cascade : Bool) :
    ∀ kind ∈ (Report.removed es cascade).operations, kind.ByValue := by
  intro kind hmem
  obtain ⟨e, -, rfl⟩ := List.mem_map.mp hmem
  exact trivial

/-- Removing by value extends the queue by operations by value. -/
theorem extends_removeWith (e : E) (cascade : Bool) :
    Keeps (Extending o name before kinds) (removeWith e cascade) := by
  have hvalue (present : Bool) : ∀ kind ∈ (if present = true then
      [OperationKind.collectionRemove e cascade] else []), kind.ByValue := by
    intro kind hmem
    split at hmem
    · obtain rfl := List.mem_singleton.mp hmem
      exact trivial
    · cases hmem
  apply extends_ensureLoaded.bind
  intro _
  refine keeps_current.bind fun q => ?_
  dsimp only
  split
  · exact (Keeps.pure _).bind fun present => (extends_setElements _).bind fun _ =>
      (extends_forward _ _).bind fun _ => (extends_announce (hvalue present)).bind fun _ =>
        extends_changed.bind fun _ => Keeps.pure _
  · exact (extends_contains e).bind fun present => (extends_setElements _).bind fun _ =>
      (extends_forward _ _).bind fun _ => (extends_announce (hvalue present)).bind fun _ =>
        extends_changed.bind fun _ => Keeps.pure _

/-- Removing listed elements extends the queue by operations by value. -/
theorem extends_removeListed (doomed : List E) :
    Keeps (Extending o name before kinds) (removeListed doomed) := by
  apply extends_ensureLoaded.bind
  intro _
  refine keeps_current.bind fun q => ?_
  dsimp only
  split
  · exact (Keeps.pure _).bind fun stored => (extends_setElements _).bind fun _ =>
      (extends_announce (byValue_removed _ true)).bind fun _ => (extends_forward _ _).bind
        fun _ => extends_changed.bind fun _ => Keeps.pure _
  · exact (extends_readEither silent_elements).bind fun stored => (extends_setElements _).bind
      fun _ => (extends_announce (byValue_removed _ true)).bind fun _ =>
        (extends_forward _ _).bind fun _ => extends_changed.bind fun _ => Keeps.pure _

/-- Removing what is listed, if anything is. -/
theorem extends_removeAll (es : List E) : Keeps (Extending o name before kinds) (removeAll es) :=
  (Keeps.pure false).ite (extends_removeListed es)

/-- Keeping what is listed. -/
theorem extends_retainAll (keep : List E) :
    Keeps (Extending o name before kinds) (retainAll keep) :=
  extends_toList.bind fun _ => keeps_current.bind fun _ =>
    (Keeps.pure false).ite (extends_removeListed _)

/-- Removing everything is by value, too. -/
theorem extends_clear : Keeps (Extending o name before kinds) (clear (E := E)) := by
  rintro scene ⟨more, hmore, h⟩
  have hcleared : ∀ kind ∈ (Report.cleared scene.value.content.elements).operations,
      kind.ByValue := by
    intro kind hmem
    obtain rfl := List.mem_singleton.mp hmem
    exact trivial
  have hrest : Keeps (Extending o name before kinds) (do
      announce (.cleared scene.value.content.elements)
      discard (forward "clear" Store.clear)
      changed : Action E Unit) :=
    (extends_announce hcleared).bind fun _ => (extends_forward _ _).discard.bind fun _ =>
      extends_changed
  exact hrest _ ⟨more, hmore, h.setContent h.useCache⟩

/-- Adding elements without a check extends the queue by operations by value. -/
theorem extends_addUnchecked (operation : String)
    (store : ObjectId → Option Nat → StoreAction E Bool) (new : List E) :
    Keeps (Extending o name before kinds) (addUnchecked operation store new) :=
  extends_ensureLoaded.bind fun _ => keeps_current.bind fun _ =>
    (extends_forward _ _).bind fun _ => (extends_setElements _).bind fun _ =>
      (extends_announce (byValue_added new)).bind fun _ => extends_changed.bind fun _ =>
        Keeps.pure _

/-- Replacing the value clears and adds, if it reaches the queue of the session at all. -/
theorem extends_initialiseWith (new : List E) :
    Keeps (Extending o name before kinds) (initialiseWith new) := by
  rintro scene ⟨more, hmore, h⟩
  have hvalue : ∀ kind ∈ OperationKind.collectionClear :: new.map OperationKind.collectionAdd,
      kind.ByValue := by
    intro kind hmem
    rcases List.mem_cons.mp hmem with rfl | hmem
    · exact trivial
    · exact byValue_added new kind hmem
  have henqueue : Keeps (Extending o name before kinds)
      (Tracked.report fun tracker session =>
        tracker.enqueue (.collectionClear :: new.map .collectionAdd) session : Action E Unit) := by
    rintro scene ⟨more, hmore, h⟩
    refine ⟨more ++ (.collectionClear :: new.map .collectionAdd), ?_, ?_⟩
    · intro kind hmem
      rcases List.mem_append.mp hmem with hmem | hmem
      · exact hmore kind hmem
      · exact hvalue kind hmem
    · rw [← List.append_assoc]
      exact h.queue (Tracker.pending_enqueue _ _ _) (Tracker.stores_enqueue _ _ _)
  have hend (content : QueueContent E) (huse : content.useCache = false) :
      Keeps (Extending o name before kinds) (do
        Tracked.setContent content
        Tracked.makeDirty : Action E Unit) := by
    rintro scene ⟨more, hmore, h⟩
    exact ⟨more, hmore, (h.setContent huse).of_stores_eq (Tracker.pending_markDirty _ _)
      (Tracker.stores_markDirty _ _)⟩
  let content : QueueContent E := { scene.value.content with
    elements := scene.value.content.order.sort new
    loaded := true }
  have huse : content.useCache = false := h.useCache
  unfold initialiseWith
  rw [stateAfter_bind]
  change Extending o name before kinds
    (stateAfter (if replacementReachesStore scene.value scene.session = true then _ else _) scene)
  split
  · exact (henqueue.bind fun _ => (extends_forward _ _).discard.bind fun _ =>
      (extends_forward _ _).discard.bind fun _ => hend content huse) scene ⟨more, hmore, h⟩
  · exact hend content huse scene ⟨more, hmore, h⟩

variable [Element E]

/-- Adding an element extends the queue by operations by value. -/
theorem extends_add (e : E) : Keeps (Extending o name before kinds) (add e) :=
  Keeps.tracker?.bind fun _ => (Keeps.require _).bind fun _ => extends_addUnchecked _ _ [e]

/-- Adding several elements extends the queue by operations by value. -/
theorem extends_addAll (new : List E) : Keeps (Extending o name before kinds) (addAll new) :=
  Keeps.tracker?.bind fun _ => (Keeps.require _).bind fun _ =>
    (Keeps.pure false).ite (extends_addUnchecked _ _ new)

/-- Taking over a value extends the queue by operations by value. -/
theorem extends_attachCopy (target : List E) :
    Keeps (Extending o name before kinds) (attachCopy target) :=
  (extends_attach target).bind fun _ => Container.keeps_reconcile extends_toList
    (fun e => extends_removeWith e false) extends_add target

/-- Every call but the removal of the head extends the queue by operations by value. -/
theorem Call.extends_run (call : Call E) (hother : call ≠ .poll) :
    Keeps (Extending o name before kinds) call.run := by
  cases call with
  | load => exact extends_ensureLoaded
  | add e => exact (extends_add e).discard
  | addAll new => exact (extends_addAll new).discard
  | poll => exact absurd rfl hother
  | remove e => exact (extends_removeWith e true).discard
  | removeWith e cascade => exact (extends_removeWith e cascade).discard
  | removeAll es => exact (extends_removeAll es).discard
  | retainAll keep => exact (extends_retainAll keep).discard
  | clear => exact extends_clear
  | attachCopy target => exact extends_attachCopy target
  | initialiseWith new => exact extends_initialiseWith new

omit [Element E] in
/-- Removing the head is answered from memory, and always queues the removal of the stored head. -/
theorem Shadowing.poll (h : Shadowing o name before kinds scene) :
    ∃ after, TrackedQueue.poll scene = .ok scene.value.content.elements.head? after ∧
      Shadowing o name before (kinds ++ [.listRemoveAt 0]) after := by
  have hpart := h.isAuthoritative
  obtain ⟨⟨t, content⟩, s⟩ := scene
  have hrest : Shadowing o name before kinds
      ⟨⟨t, { content with elements := content.elements.tail }⟩, s⟩ := h.setContent h.useCache
  unfold TrackedQueue.poll
  simp only [bind_apply, h.ensureLoaded_eq, current_apply, setElements_apply, hpart,
    hrest.forward_eq, Bool.not_false, Bool.or_true, if_true, announce_apply, changed_apply,
    pure_apply]
  refine ⟨_, rfl, ?_⟩
  apply hrest.queue
  · rw [Tracker.pending_changed, Tracker.pending_announce]
  · rw [Tracker.stores_changed, Tracker.stores_announce]

end Keeping

end TrackedFields.TrackedQueue
