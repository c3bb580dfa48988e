import Mathlib.Logic.Relation
import TrackedFields.Proofs.TrackedQueue.Follows

/-!
# Cached queues converge

A cached priority queue that queues its changes stays in sync with a store of its own order under
every call: each report repeats the change of the elements in memory. A flush then makes the store
hold what the queue holds, in the same order, after any run of calls and flushes.
-/

namespace TrackedFields

/-- An entity is in memory and has reached the datastore. -/
def Session.Reached {E : Type} (s : Session E) (id : ObjectId) : Prop :=
  ∃ entity, s.entity? id = some entity ∧ entity.alive = true ∧ entity.flushed = true

namespace TrackedQueue

variable {E : Type} [DecidableEq E]

section Calls

variable {cmp : Comparator E} {o : Owner} {name : StoreName} {before : Session E}

/-- Loading keeps a queue in sync. -/
theorem keeps_ensureLoaded : Keeps (Synced cmp o name before) (ensureLoaded (E := E)) := by
  intro scene h
  obtain ⟨allowNulls, lazily, es, s, hload, hfollows⟩ := ensureLoaded_of_synced h
  rw [stateAfter_of_ok hload]
  exact hfollows.synced

/-- Listing the elements keeps a queue in sync. -/
theorem keeps_toList : Keeps (Synced cmp o name before) (toList (E := E)) :=
  keeps_of_ready fun _ _ _ _ h => h.synced

/-- Removing the head keeps a queue in sync. -/
theorem keeps_poll : Keeps (Synced cmp o name before) (poll (E := E)) := by
  apply keeps_of_ready
  intro allowNulls lazily es s h
  cases es with
  | nil => exact h.synced_told (OperationKind.carryOutAll_nil _ _) h.sorted
  | cons e es =>
    have hpart : es.Sublist (e :: es) := List.sublist_cons_self e es
    have hkinds : OperationKind.carryOutAll (s.rules name) (e :: es) [.listRemoveAt 0] =
        some es := OperationKind.carryOutAll_kept h.fits rfl hpart []
    exact h.synced_told hkinds (h.sorted.sublist hpart)

/-- Removing by value from a loaded queue. What the queue holds is known without asking the
store. -/
private theorem removeWith_ready (cmp : Comparator E) (o : Owner) (name : StoreName)
    (allowNulls lazily : Bool) (es : List E) (s : Session E) (e : E) (cascade : Bool) :
    ∃ relations orphans,
      removeWith e cascade (ready cmp o name allowNulls lazily es s) =
        .ok (es.contains e) (ready cmp o name allowNulls lazily (es.erase e)
          (told o name allowNulls {
            relations
            operations := if es.contains e then [.collectionRemove e cascade] else []
            orphans } s)) := by
  have hload : ensureLoaded (ready cmp o name allowNulls lazily es s) =
      .ok () (ready cmp o name allowNulls lazily es s) := rfl
  have hcurrent : current (ready cmp o name allowNulls lazily es s) =
      .ok (ready cmp o name allowNulls lazily es s).value
        (ready cmp o name allowNulls lazily es s) := rfl
  have hall : (ready cmp o name allowNulls lazily es s).value.isAuthoritative = true := rfl
  unfold removeWith
  simp only [bind_apply, hload, hcurrent, hall, Bool.or_true, Bool.true_or, if_true]
  exact ⟨_, _, rfl⟩

/-- Removing by value keeps a queue in sync. -/
theorem keeps_removeWith (e : E) (cascade : Bool) :
    Keeps (Synced cmp o name before) (removeWith e cascade) := by
  apply keeps_of_ready
  intro allowNulls lazily es s h
  obtain ⟨relations, orphans, hremove⟩ :=
    removeWith_ready cmp o name allowNulls lazily es s e cascade
  change Synced cmp o name before
    (stateAfter (removeWith e cascade) (ready cmp o name allowNulls lazily es s))
  rw [stateAfter_of_ok hremove]
  have hpart : (es.erase e).Sublist es := List.erase_sublist
  refine h.synced_told ?_ (h.sorted.sublist hpart)
  by_cases hmem : es.contains e = true
  · rw [if_pos hmem]
    exact OperationKind.carryOutAll_kept h.fits rfl hpart []
  · have hsame : es.erase e = es := List.erase_of_not_mem (by simpa using hmem)
    rw [if_neg hmem, hsame]
    rfl

/-- Removing every occurrence of listed elements keeps a queue in sync. -/
theorem keeps_removeListed (doomed : List E) :
    Keeps (Synced cmp o name before) (removeListed doomed) := by
  apply keeps_of_ready
  intro allowNulls lazily es s h
  have hkinds : OperationKind.carryOutAll (s.rules name) es
      (Report.removed (es.filter doomed.contains) true).operations =
        some (es.filter fun e => !doomed.contains e) := by
    rw [← OperationKind.foldl_erase_filter]
    exact OperationKind.carryOutAll_removed h.fits (es.filter doomed.contains) true
  exact h.synced_told hkinds (h.sorted.sublist List.filter_sublist)

/-- Removing what is listed, if anything is, keeps a queue in sync. -/
theorem keeps_removeAll (es : List E) : Keeps (Synced cmp o name before) (removeAll es) :=
  (Keeps.pure false).ite (keeps_removeListed es)

/-- Keeping what is listed keeps a queue in sync. -/
theorem keeps_retainAll (keep : List E) :
    Keeps (Synced cmp o name before) (retainAll keep) := by
  apply keeps_toList.bind
  intro es scene h
  exact ((Keeps.pure false).ite (keeps_removeListed _)) scene h

/-- Removing everything keeps a queue in sync, also before it is loaded. -/
theorem keeps_clear : Keeps (Synced cmp o name before) (clear (E := E)) := by
  intro scene h
  obtain ⟨⟨⟨owner, dispatch, allowNulls⟩, ⟨order, useCache, lazily, elements, loaded⟩⟩, s⟩ := scene
  obtain rfl : owner = some o := h.owner
  obtain rfl : dispatch = .queued (some name) := h.dispatch
  obtain rfl : order = cmp := h.order
  obtain rfl : useCache = true := h.useCache
  have hkinds : OperationKind.carryOutAll (s.rules name) _ (Report.cleared elements).operations =
      some [] := OperationKind.carryOutAll_kept h.follows.fits rfl (List.nil_sublist _) []
  cases loaded with
  | true => exact h.follows.synced_told hkinds .nil
  | false => exact h.follows.synced_told hkinds .nil

/-- Adding elements without a check keeps a queue in sync. -/
theorem keeps_addUnchecked (operation : String)
    (store : ObjectId → Option Nat → StoreAction E Bool) (new : List E) :
    Keeps (Synced cmp o name before) (addUnchecked operation store new) := by
  apply keeps_of_ready
  intro allowNulls lazily es s h
  have := h.lawful
  have hkinds : OperationKind.carryOutAll (s.rules name) es (Report.added new).operations =
      some (cmp.insertAll es new) := OperationKind.carryOutAll_inserted h.order h.sorted new
  exact h.synced_told hkinds (h.sorted.insertAll new)

variable [Element E]

/-- Adding an element keeps a queue in sync. -/
theorem keeps_add (e : E) : Keeps (Synced cmp o name before) (add e) := by
  intro scene h
  exact ((Keeps.require (scene.value.tracker.check e)).bind fun _ =>
    keeps_addUnchecked "add" (Store.add · e ·) [e]) scene h

/-- Adding several elements keeps a queue in sync. -/
theorem keeps_addAll (new : List E) : Keeps (Synced cmp o name before) (addAll new) := by
  intro scene h
  exact ((Keeps.require (scene.value.tracker.checkAll new)).bind fun _ =>
    (Keeps.pure false).ite (keeps_addUnchecked "add-all" (Store.addAll · new ·) new)) scene h

/-- Taking over a value keeps a queue in sync. -/
theorem keeps_attachCopy (target : List E) :
    Keeps (Synced cmp o name before) (attachCopy target) := by
  have hattach : Keeps (Synced cmp o name before) (Tracked.attach target) := by
    intro scene h
    exact h.of_stores_eq (Tracker.pending_attach scene.value.tracker scene.session target)
      (Tracker.stores_attach scene.value.tracker scene.session target)
  exact hattach.bind fun _ =>
    Container.keeps_reconcile keeps_toList (fun e => keeps_removeWith e false) keeps_add target

omit [DecidableEq E] [Element E] in
/-- The value that replaces the one of an owner which has reached the datastore is written. -/
theorem replacementReachesStore_of_reached {q : TrackedQueue E} {s : Session E} {owner : ObjectId}
    {store : StoreName} (hchannel : q.tracker.channel = some (store, owner))
    (hreached : s.Reached owner) : replacementReachesStore q s = true := by
  obtain ⟨entity, hentity, halive, hflushed⟩ := hreached
  unfold replacementReachesStore
  rw [hchannel]
  dsimp only
  rw [hentity, Option.filter_some_pos halive]
  dsimp only
  rw [hflushed, ite_self]

omit [Element E] in
/-- Replacing the value of an owner that has reached the datastore keeps a queue in sync, also
before it is loaded: the store is cleared first. -/
theorem synced_initialiseWith {scene : Scene (TrackedQueue E) E}
    (h : Synced cmp o name before scene) (hreached : scene.session.Reached o.id) (new : List E) :
    Synced cmp o name before (stateAfter (initialiseWith new) scene) := by
  have := h.follows.lawful
  obtain ⟨⟨⟨owner, dispatch, allowNulls⟩, ⟨order, useCache, lazily, elements, loaded⟩⟩, s⟩ := scene
  obtain rfl : owner = some o := h.owner
  obtain rfl : dispatch = .queued (some name) := h.dispatch
  obtain rfl : order = cmp := h.order
  obtain rfl : useCache = true := h.useCache
  let q : TrackedQueue E :=
    ⟨queuing o name allowNulls, ⟨order, true, lazily, elements, loaded⟩⟩
  let kinds : List (OperationKind E) := .collectionClear :: new.map .collectionAdd
  have hreaches : replacementReachesStore q s = true :=
    replacementReachesStore_of_reached rfl hreached
  have hstate : stateAfter (initialiseWith new) ⟨q, s⟩ =
      ready order o name allowNulls lazily (order.sort new)
        ((queuing o name allowNulls).markDirty ((queuing o name allowNulls).enqueue kinds s)) := by
    unfold initialiseWith
    rw [stateAfter_bind]
    change stateAfter (if replacementReachesStore q s = true then _ else _) _ = _
    rw [if_pos hreaches]
    rfl
  have hfollows : Follows order o name before (known name o.id ⟨q, s⟩) s := h.follows
  have hkinds : OperationKind.carryOutAll (s.rules name) (known name o.id ⟨q, s⟩) kinds =
      some (order.sort new) := by
    have hclear : OperationKind.carryOutAll (s.rules name) (known name o.id ⟨q, s⟩) kinds =
        OperationKind.carryOutAll (s.rules name) [] (new.map .collectionAdd) :=
      OperationKind.carryOutAll_kept hfollows.fits rfl (List.nil_sublist _) _
    rw [hclear, OperationKind.carryOutAll_inserted hfollows.order .nil, order.insertAll_nil]
  change Synced order o name before (stateAfter (initialiseWith new) ⟨q, s⟩)
  rw [hstate]
  refine (hfollows.queue allowNulls hkinds (order.sorted_sort new) ?_ ?_).synced
  · rw [Tracker.pending_markDirty, Tracker.pending_enqueue]
  · rw [Tracker.stores_markDirty, Tracker.stores_enqueue]

end Calls

/-- What a queue offers, apart from looking at it. -/
inductive Call (E : Type) where
  | load
  | add (e : E)
  | addAll (new : List E)
  | poll
  | remove (e : E)
  | removeWith (e : E) (cascade : Bool)
  | removeAll (es : List E)
  | retainAll (keep : List E)
  | clear
  | attachCopy (target : List E)
  | initialiseWith (new : List E)

variable [Element E]

/-- Make a call, ignoring its answer. -/
def Call.run : Call E → Action E Unit
  | load => ensureLoaded
  | add e => discard (TrackedQueue.add e)
  | addAll new => discard (TrackedQueue.addAll new)
  | poll => discard TrackedQueue.poll
  | remove e => discard (TrackedQueue.remove e)
  | removeWith e cascade => discard (TrackedQueue.removeWith e cascade)
  | removeAll es => discard (TrackedQueue.removeAll es)
  | retainAll keep => discard (TrackedQueue.retainAll keep)
  | clear => TrackedQueue.clear
  | attachCopy target => TrackedQueue.attachCopy target
  | initialiseWith new => TrackedQueue.initialiseWith new

omit [DecidableEq E] [Element E] in
/-- When a call is allowed: the value of an owner is replaced only once the owner has reached the
datastore, every other call is always allowed. -/
def Call.Allowed (o : Owner) (s : Session E) : Call E → Prop
  | initialiseWith _ => s.Reached o.id
  | _ => True

/-- An allowed call keeps a queue in sync. -/
theorem Call.synced {cmp : Comparator E} {o : Owner} {name : StoreName} {before : Session E}
    {scene : Scene (TrackedQueue E) E} (call : Call E)
    (hallowed : call.Allowed o scene.session) (h : Synced cmp o name before scene) :
    Synced cmp o name before (stateAfter call.run scene) := by
  cases call with
  | load => exact keeps_ensureLoaded scene h
  | add e => exact (keeps_add e).discard scene h
  | addAll new => exact (keeps_addAll new).discard scene h
  | poll => exact keeps_poll.discard scene h
  | remove e => exact (keeps_removeWith e true).discard scene h
  | removeWith e cascade => exact (keeps_removeWith e cascade).discard scene h
  | removeAll es => exact (keeps_removeAll es).discard scene h
  | retainAll keep => exact (keeps_retainAll keep).discard scene h
  | clear => exact keeps_clear scene h
  | attachCopy target => exact keeps_attachCopy target scene h
  | initialiseWith new => exact synced_initialiseWith h hallowed new

/-- What can happen to a queue and the session around it: an allowed call, a flush of the session
without a default store, or any change of the entities, such as one of their flags. -/
inductive Step (o : Owner) : Scene (TrackedQueue E) E → Scene (TrackedQueue E) E → Prop where
  | call {scene : Scene (TrackedQueue E) E} (call : Call E)
      (allowed : call.Allowed o scene.session) : Step o scene (stateAfter call.run scene)
  | flush {scene : Scene (TrackedQueue E) E} :
      Step o scene { scene with session := stateAfter (Session.flush none) scene.session }
  | lifecycle {scene : Scene (TrackedQueue E) E} (entities : Table ObjectId Entity) :
      Step o scene { scene with session := { scene.session with entities } }

/-- A cached queue of a field that queues its changes for a reliable store of its own order, while
nothing waits. If the queue is loaded, it holds what the store holds. -/
structure Settled (cmp : Comparator E) (o : Owner) (name : StoreName)
    (scene : Scene (TrackedQueue E) E) : Prop where
  owner : scene.value.tracker.owner = some o
  dispatch : scene.value.tracker.dispatch = .queued (some name)
  order : scene.value.content.order = cmp
  useCache : scene.value.content.useCache = true
  storeOrder : (scene.session.store name).order = some cmp
  inOrder : (scene.session.store name).view.InOrder (scene.session.store name).rules
  reliable : (scene.session.store name).Reliable
  pending : scene.session.pending = []
  contents : scene.value.content.loaded = true →
    (scene.session.store name).contents o.id = scene.value.content.elements

omit [DecidableEq E] [Element E] in
private theorem unwritten_refl (s : Session E) : s.Unwritten s := ⟨rfl, fun _ => rfl⟩

omit [Element E] in
/-- A settled queue is in sync. -/
theorem Settled.synced {cmp : Comparator E} {o : Owner} {name : StoreName}
    {scene : Scene (TrackedQueue E) E} (h : Settled cmp o name scene) :
    Synced cmp o name scene.session scene := by
  have hknown : (scene.session.store name).contents o.id = known name o.id scene := by
    unfold known
    split
    · next hloaded => exact h.contents hloaded
    · rfl
  have hsorted : cmp.Sorted (known name o.id scene) := by
    rw [← hknown]
    exact (h.inOrder cmp h.storeOrder).2 o.id
  exact ⟨h.owner, h.dispatch, h.order, h.useCache, fun _ => h.pending, h.storeOrder,
    Session.behind_of_contents h.inOrder h.reliable h.pending hknown, hsorted,
    unwritten_refl scene.session⟩

omit [Element E] in
/-- A flush, with whatever default store, empties the queue of the session and makes the store hold
what the queue holds. -/
theorem Synced.flush_default {cmp : Comparator E} {o : Owner} {name : StoreName}
    {before : Session E} {scene : Scene (TrackedQueue E) E} (h : Synced cmp o name before scene)
    (default : Option StoreName) :
    ∃ after, Session.flush default scene.session = .ok scene.session.pending.length after ∧
      after.pending = [] ∧
      (scene.value.content.loaded = true →
        (after.store name).contents o.id = scene.value.content.elements) ∧
      Synced cmp o name after { scene with session := after } := by
  obtain ⟨after, hflush, hnil, hcontents, hcontinues, hbehind⟩ :=
    h.follows.behind.flush rfl
  have hknown : known name o.id { scene with session := after } = known name o.id scene := by
    unfold known
    split
    · rfl
    · next hloaded =>
      unfold known at hcontents
      rw [if_neg hloaded] at hcontents
      exact hcontents
  refine ⟨after, hflush, hnil, ?_, h.owner, h.dispatch, h.order, h.useCache, fun _ => hnil, ?_⟩
  · intro hloaded
    unfold known at hcontents
    rw [if_pos hloaded] at hcontents
    exact hcontents
  · rw [hknown]
    refine ⟨?_, hbehind, h.follows.sorted, unwritten_refl after⟩
    rw [hcontinues.rules_eq]
    exact h.follows.order

omit [Element E] in
/-- A flush without default store empties the queue of the session and makes the store hold what the
queue holds. -/
theorem Synced.flush {cmp : Comparator E} {o : Owner} {name : StoreName}
    {before : Session E} {scene : Scene (TrackedQueue E) E} (h : Synced cmp o name before scene) :
    ∃ after, Session.flush none scene.session = .ok scene.session.pending.length after ∧
      after.pending = [] ∧
      (scene.value.content.loaded = true →
        (after.store name).contents o.id = scene.value.content.elements) ∧
      Synced cmp o name after { scene with session := after } :=
  h.flush_default none

/-- A step keeps a queue in sync, counted from the session before the step or after it. -/
private theorem Step.synced {cmp : Comparator E} {o : Owner} {name : StoreName}
    {before : Session E} {scene after : Scene (TrackedQueue E) E} (step : Step o scene after)
    (h : Synced cmp o name before scene) : ∃ since, Synced cmp o name since after := by
  cases step with
  | call call allowed => exact ⟨before, call.synced allowed h⟩
  | flush =>
    obtain ⟨after, hflush, -, -, hsynced⟩ := h.flush
    rw [stateAfter_of_ok hflush]
    exact ⟨after, hsynced⟩
  | lifecycle entities => exact ⟨before, h.of_stores_eq rfl rfl⟩

/-- A cached queue that queues its changes converges with its store. After any run of allowed
calls, flushes and lifecycle changes, a further call writes no store, and a further flush carries
out whatever waits, empties the queue of the session and, if the queue is loaded, makes the store
hold what it holds, in the same order. -/
theorem queued_queue_converges (cmp : Comparator E) (o : Owner) (name : StoreName)
    (start scene : Scene (TrackedQueue E) E) (hstart : Settled cmp o name start)
    (hrun : Relation.ReflTransGen (Step o) start scene) :
    (∀ call : Call E, call.Allowed o scene.session →
        scene.session.Unwritten (stateAfter call.run scene).session) ∧
      ∃ after, Session.flush none scene.session = .ok scene.session.pending.length after ∧
        after.pending = [] ∧
        (scene.value.content.loaded = true →
          (after.store name).contents o.id = scene.value.content.elements) := by
  obtain ⟨since, hsynced⟩ : ∃ since, Synced cmp o name since scene := by
    induction hrun with
    | refl => exact ⟨start.session, hstart.synced⟩
    | tail _ step ih =>
      obtain ⟨since, h⟩ := ih
      exact step.synced h
  have hnow : Synced cmp o name scene.session scene :=
    { hsynced with follows := { hsynced.follows with unwritten := unwritten_refl scene.session } }
  obtain ⟨after, hflush, hnil, hcontents, -⟩ := hsynced.flush
  exact ⟨fun call hallowed => (call.synced hallowed hnow).follows.unwritten, after, hflush, hnil,
    hcontents⟩

/-- A queue whose elements often compare equal: its value is replaced before it was ever loaded,
flushed, and changed again. -/
theorem queued_queue_converges_among_ties :
    let cmp : Comparator Int32 := compareOn fun e => e.toInt / 10
    let o : Owner := { id := .ofNat 7, descriptor := { name := "books", ordinal := ⟨3⟩ } }
    let start : Scene (TrackedQueue Int32) Int32 := {
      value := {
        tracker := queuing o "books" false
        content := { order := cmp, useCache := true, lazily := true } }
      session := {
        stores := Table.empty.set "books" (Store.seed { order := some cmp } o.id [25, 11, 27]) } }
    let flushed : Scene (TrackedQueue Int32) Int32 := { start with session := { start.session with
      entities := Table.empty.set o.id { typeName := "Library", flushed := true } } }
    let replaced := stateAfter (Call.run (.initialiseWith [31, 30])) flushed
    let settled : Scene (TrackedQueue Int32) Int32 :=
      { replaced with session := stateAfter (Session.flush none) replaced.session }
    let scene := stateAfter (Call.run (.add 32)) settled
    Settled cmp o "books" start ∧ Relation.ReflTransGen (Step o) start scene ∧
      scene.value.content.loaded = true ∧
      (∀ call : Call Int32, call.Allowed o scene.session →
        scene.session.Unwritten (stateAfter call.run scene).session) ∧
      ∃ after, Session.flush none scene.session = .ok scene.session.pending.length after ∧
        after.pending = [] ∧
        (scene.value.content.loaded = true →
          (after.store "books").contents o.id = scene.value.content.elements) := by
  intro cmp o start flushed replaced settled scene
  have hempty : ({ order := some cmp } : Store Int32).view.InOrder ⟨some cmp, false⟩ := by
    intro order horder
    cases horder
    exact ⟨inferInstance, fun _ => .nil⟩
  have hstart : Settled cmp o "books" start :=
    ⟨rfl, rfl, rfl, rfl, rfl, Store.inOrder_seed hempty o.id [25, 11, 27], ⟨rfl, rfl⟩, rfl,
      fun hloaded => by cases hloaded⟩
  have hreached : flushed.session.Reached o.id :=
    ⟨{ typeName := "Library", flushed := true }, rfl, rfl, rfl⟩
  have hrun : Relation.ReflTransGen (Step o) start scene :=
    (((Relation.ReflTransGen.refl.tail (.lifecycle _)).tail (.call (.initialiseWith [31, 30])
      hreached)).tail .flush).tail (.call (.add 32) trivial)
  exact ⟨hstart, hrun, rfl, queued_queue_converges cmp o "books" start scene hstart hrun⟩

end TrackedQueue

end TrackedFields
