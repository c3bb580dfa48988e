import TrackedFields.Proofs.MemoryDeletions
import TrackedFields.Proofs.TrackedQueue.Convergence
import TrackedFields.Proofs.TrackedQueue.Dispatch

/-!
# What a queue loses, by dispatch

The records that a request to a full queue deletes are the same in every mode of dispatch. In memory
the queue finds them itself; where it queues its changes, the waiting operations delete them in the
end; where changes are made in the store right away, the store call does. In the last case the call
does what some operations do, so that all three come down to what operations lose.
-/

namespace TrackedFields

open Store (Rules)
open Tracked (InMemory Loses Agreed deletedOnceFlushed)

variable {E α : Type} [DecidableEq E]

namespace TrackedQueue.Outcome

/-- What an action comes to makes a store of dependent elements delete exactly what it loses, if
losing is allowed. -/
def Exact (allowed : Bool) (es : List E) (outcome : Outcome E α) : Prop :=
  ∀ rules : Rules E, rules.dependent = true → rules.Fits es →
    LostForGood allowed es outcome.elements (OperationKind.losses rules es outcome.operations)

variable {allowed : Bool} {es : List E}

/-- Nothing is lost. -/
theorem Exact.silent (answer : α) (es : List E) : (silent answer es).Exact allowed es :=
  fun _ _ _ => .nil fun _ _ he => he

/-- A change that is made only if a check passes. -/
theorem Exact.guarded {outcome : Outcome E α} (h : outcome.Exact allowed es)
    (checked : Except Failure Unit) : (guarded checked es outcome).Exact allowed es := by
  cases checked with
  | ok answer => exact h
  | error failure => exact fun _ _ _ => .nil fun _ _ he => he

/-- Removing the head. -/
theorem Exact.polled (es : List E) : (polled es).Exact true es := by
  intro rules hdependent _
  cases es with
  | nil => exact .nil fun _ _ he => he
  | cons e es =>
    intro a
    change a ∈ OperationKind.losses rules (e :: es) [.listRemoveAt 0] ↔ _
    rw [OperationKind.mem_losses_single hdependent rfl, List.mem_singleton, List.mem_cons]
    change a = e ∧ a ∉ es ↔ true = true ∧ (a = e ∨ a ∈ es) ∧ a ∉ es
    constructor
    · exact fun ⟨ha, hout⟩ => ⟨rfl, .inl ha, hout⟩
    · exact fun ⟨_, ha, hout⟩ => ⟨ha.resolve_right hout, hout⟩

/-- Removing one occurrence of an element. -/
theorem Exact.removed (es : List E) (e : E) (cascade : Bool) :
    (removed es e cascade).Exact cascade es :=
  fun _ hdependent hfits => OperationKind.lostForGood_removed hdependent hfits [e] cascade

/-- Removing every occurrence of listed elements. -/
theorem Exact.weeded (es doomed : List E) : (weeded es doomed).Exact true es := by
  intro rules hdependent hfits
  have hlost := OperationKind.lostForGood_removed hdependent hfits (es.filter doomed.contains) true
  rwa [OperationKind.foldl_erase_filter] at hlost

/-- Removing everything. -/
theorem Exact.cleared (es : List E) : (cleared es).Exact true es :=
  fun _ hdependent hfits => (Report.exact_cleared fun _ => .rfl).operations _ hdependent hfits

/-- Adding elements. -/
theorem Exact.joined (cmp : Comparator E) (es new : List E) :
    (joined cmp es new).Exact allowed es := by
  intro rules _ _
  change LostForGood _ _ _ (OperationKind.losses rules es (Report.added new).operations)
  rw [OperationKind.losses_of_gentle (Report.gentle_added new)]
  refine .nil fun _ e he => ?_
  exact (cmp.insertAll_perm es new).mem_iff.mpr (List.mem_append_left _ he)

end TrackedQueue.Outcome

namespace QueueRequest

open TrackedQueue (Full Profile ComesTo Outcome)

variable [Element E] {es : List E} {cmp : Comparator E} {o : Owner}
  {scene : Scene (TrackedQueue E) E}

/-- Every request but an attachment comes to an exact outcome. -/
theorem exists_exact {p : Profile E} [Std.TransCmp p.order] (request : QueueRequest E α)
    (hcount : request.Countable es) (hattaches : request.attaches = false) :
    ∃ outcome, ComesTo p es request.run outcome ∧ outcome.Exact request.cascades es := by
  have hweeded (doomed : List E) (c : Bool) :
      (if c then Outcome.silent false es else TrackedQueue.weeded es doomed).Exact true es := by
    split
    · exact .silent false es
    · exact Outcome.Exact.weeded es doomed
  cases request with
  | add e =>
    exact ⟨_, TrackedQueue.comesTo_add p es e, .guarded (.joined p.order es [e]) _⟩
  | addAll new =>
    refine ⟨_, TrackedQueue.comesTo_addAll p hcount, .guarded ?_ _⟩
    split
    · exact .silent false es
    · exact .joined p.order es new
  | poll => exact ⟨_, TrackedQueue.comesTo_poll p es, .polled es⟩
  | peek => exact ⟨_, TrackedQueue.comesTo_peek p es, .silent _ es⟩
  | length => exact ⟨_, TrackedQueue.comesTo_length p es, .silent _ es⟩
  | isEmpty => exact ⟨_, TrackedQueue.comesTo_isEmpty p es, .silent _ es⟩
  | contains e => exact ⟨_, TrackedQueue.comesTo_contains p es e, .silent _ es⟩
  | containsAll wanted =>
    exact ⟨_, TrackedQueue.comesTo_containsAll p es wanted, .silent _ es⟩
  | toList => exact ⟨_, TrackedQueue.comesTo_toList p es, .silent _ es⟩
  | snapshot => exact ⟨_, TrackedQueue.comesTo_snapshot p es, .silent _ es⟩
  | remove e =>
    exact ⟨_, TrackedQueue.comesTo_removeWith p es e true, .removed es e true⟩
  | removeWith e cascade =>
    exact ⟨_, TrackedQueue.comesTo_removeWith p es e cascade, .removed es e cascade⟩
  | removeAll doomed => exact ⟨_, TrackedQueue.comesTo_removeAll p es doomed, hweeded doomed _⟩
  | retainAll keep => exact ⟨_, TrackedQueue.comesTo_retainAll p es keep, hweeded _ _⟩
  | clear => exact ⟨_, TrackedQueue.comesTo_clear p es, .cleared es⟩
  | attachCopy target => cases hattaches

end QueueRequest

namespace TrackedQueue

variable [Element E] {cmp : Comparator E} [Std.TransCmp cmp] {o : Owner} {name : StoreName}
  {scene : Scene (TrackedQueue E) E}

/-- A request to a full queue comes to what the queue shows. -/
private theorem Full.exists_becomes (h : Full cmp o scene) (request : QueueRequest E α)
    (hcount : request.Countable scene.value.content.elements) :
    ∃ (p : Profile E) (outcome : Outcome E α), p.order = cmp ∧
      Becomes p o outcome scene (stateAfter request.run scene) ∧
      (request.attaches = false → outcome.Exact request.cascades scene.value.content.elements) := by
  let p : Profile E := ⟨cmp, scene.value.tracker.check⟩
  have hshows : Shows p o scene.value.content.elements scene := Full.shows h rfl
  by_cases hattaches : request.attaches = true
  · obtain ⟨outcome, houtcome⟩ := request.settles (p := p) hcount
    obtain ⟨after, hrun, hbecomes⟩ := houtcome o scene hshows
    rw [stateAfter_of_ended hrun]
    exact ⟨p, outcome, rfl, hbecomes, fun hnot => by rw [hattaches] at hnot; cases hnot⟩
  · obtain ⟨outcome, houtcome, hexact⟩ :=
      request.exists_exact (p := p) hcount (Bool.eq_false_iff.mpr hattaches)
    obtain ⟨after, hrun, hbecomes⟩ := houtcome o scene hshows
    rw [stateAfter_of_ended hrun]
    exact ⟨p, outcome, rfl, hbecomes, fun _ => hexact⟩

/-- A request to a full queue leaves it full and keeps its tracker. -/
private theorem Full.request (h : Full cmp o scene) (request : QueueRequest E α)
    (hcount : request.Countable scene.value.content.elements) :
    Full cmp o (stateAfter request.run scene) ∧
      (stateAfter request.run scene).value.tracker = scene.value.tracker := by
  obtain ⟨p, outcome, rfl, hbecomes, -⟩ := h.exists_becomes request hcount
  exact ⟨(hbecomes.full h).1, hbecomes.tracker⟩

/-- Where changes are made in the store right away, the store call loses what the operations lose
that come to the same. -/
private theorem Full.loses_of_immediate (h : Full cmp o scene)
    (hdispatch : scene.value.tracker.dispatch = .immediate name)
    (hdependent : (scene.session.rules name).dependent = true)
    (request : QueueRequest E α) (hcount : request.Countable scene.value.content.elements) :
    Loses none QueueContent.elements request.cascades scene (stateAfter request.run scene) ∧
      ((stateAfter request.run scene).session.rules name).dependent = true := by
  obtain ⟨p, outcome, rfl, hbecomes, hexact⟩ := h.exists_becomes request hcount
  obtain ⟨relations, -, hadvances⟩ := hbecomes.advances
  obtain ⟨hcontinues, hstock⟩ := hadvances.carried name hdispatch
  have hserves := h.inStore name hdispatch
  have hrules : (stateAfter request.run scene).session.rules name = scene.session.rules name :=
    hcontinues.rules
  have hdeleted (w : Scene (TrackedQueue E) E)
      (hw : w.value.tracker.dispatch = .immediate name) :
      deletedOnceFlushed none w = (w.session.store name).deleted := by
    unfold deletedOnceFlushed
    rw [hw]
  refine ⟨?_, by rw [hrules]; exact hdependent⟩
  have hafter := hdeleted (stateAfter request.run scene) (by rw [hbecomes.tracker, hdispatch])
  have hbefore := hdeleted scene hdispatch
  unfold Loses
  rw [hafter, hbefore]
  -- An attachment deletes nothing; any other request deletes what its operations lose.
  by_cases hattaches : request.attaches = true
  · cases request with
    | attachCopy target =>
      have hspares := (harmless_attachCopy target scene (.refl scene.session)).spares
      refine ⟨[], ?_, .nil fun hallowed => by cases hallowed⟩
      rw [List.append_nil]
      exact hspares.deleted name
    | _ => cases hattaches
  · have hlost := hexact (Bool.eq_false_iff.mpr hattaches)
    have hfits : (scene.session.rules name).Fits scene.value.content.elements := by
      intro other hother
      rw [hserves.order] at hother
      cases hother
      exact h.sorted
    rw [OperationKind.stockAll_eq] at hstock
    obtain ⟨held, -, hshelf⟩ := Option.map_eq_some_iff.mp hstock
    refine ⟨_, (congrArg Shelf.deleted hshelf).symm, ?_⟩
    rw [(hbecomes.full h).2]
    change LostForGood _ _ _ (OperationKind.losses _ ((scene.session.store name).contents o.id) _)
    rw [hserves.contents]
    exact hlost _ hdependent hfits

/-- A full queue that makes no changes in a store right away, with the given stores. -/
private structure Waits (cmp : Comparator E) (o : Owner) (stores : Table StoreName (Store E))
    (scene : Scene (TrackedQueue E) E) : Prop where
  full : Full cmp o scene
  later : ∀ name, scene.value.tracker.dispatch ≠ .immediate name
  stores_eq : scene.session.stores = stores

omit [DecidableEq E] [Element E] [Std.TransCmp cmp] in
private theorem Waits.apart {stores : Table StoreName (Store E)} (h : Waits cmp o stores scene) :
    Apart scene.value :=
  ⟨h.full.whole, h.later⟩

/-- Until a flush, no request but an attachment reaches a store. -/
private theorem Waits.request {stores : Table StoreName (Store E)} (h : Waits cmp o stores scene)
    (request : QueueRequest E α) (hcount : request.Countable scene.value.content.elements)
    (hattaches : request.attaches = false) : Waits cmp o stores (stateAfter request.run scene) := by
  obtain ⟨hfull, htracker⟩ := h.full.request request hcount
  refine ⟨hfull, ?_, ?_⟩
  · rw [htracker]
    exact h.later
  · exact (request.told h.apart hattaches).stores_eq.trans h.stores_eq

private theorem keeps_waits_attachCopy {stores : Table StoreName (Store E)} (target : List E) :
    Keeps (Waits cmp o stores) (attachCopy target) := by
  have hattach : Keeps (Waits cmp o stores) (Tracked.attach target) := by
    intro scene h
    have hstores := scene.value.tracker.stores_attach scene.session target
    refine ⟨⟨h.full.owner, h.full.order, h.full.sorted, h.full.whole, ?_⟩, h.later,
      hstores.trans h.stores_eq⟩
    exact fun name hname => absurd hname (h.later name)
  have helements : Keeps (Waits cmp o stores) toList := fun scene h =>
    h.request .toList trivial rfl
  have hremove (e : E) : Keeps (Waits cmp o stores) (removeWith e false) := fun scene h =>
    h.request (.removeWith e false) trivial rfl
  have hadd (e : E) : Keeps (Waits cmp o stores) (add e) := fun scene h =>
    h.request (.add e) trivial rfl
  exact hattach.bind fun _ => Container.keeps_reconcile helements hremove hadd target

omit [Std.TransCmp cmp] in
/-- Every request keeps a queue in sync that holds all its elements in memory. -/
private theorem Synced.request {before : Session E} (h : Synced cmp o name before scene)
    (hwhole : scene.value.isAuthoritative = true) (request : QueueRequest E α) :
    Synced cmp o name before (stateAfter request.run scene) := by
  have hapart : Apart scene.value := by
    refine ⟨hwhole, fun other hother => ?_⟩
    rw [h.dispatch] at hother
    cases hother
  by_cases hlooks : request.looks = true
  · rw [request.quiet hapart hlooks]
    exact h
  · cases request with
    | add e => exact keeps_add e scene h
    | addAll new => exact keeps_addAll new scene h
    | poll => exact keeps_poll scene h
    | remove e => exact keeps_removeWith e true scene h
    | removeWith e cascade => exact keeps_removeWith e cascade scene h
    | removeAll doomed => exact keeps_removeAll doomed scene h
    | retainAll keep => exact keeps_retainAll keep scene h
    | clear => exact keeps_clear scene h
    | attachCopy target => exact keeps_attachCopy target scene h
    | _ => exact absurd rfl hlooks

omit [Element E] [Std.TransCmp cmp] in
/-- The store of a loaded queue lags behind its elements by what waits. -/
private theorem Synced.behind {before : Session E} (h : Synced cmp o name before scene)
    (hwhole : scene.value.isAuthoritative = true) :
    scene.session.Behind name (some name) o.id scene.value.content.elements := by
  have hloaded : scene.value.content.loaded = true := by
    unfold isAuthoritative hasStore at hwhole
    rw [Tracker.channel, h.dispatch, h.owner] at hwhole
    exact (Bool.and_eq_true_iff.mp hwhole).2
  have hbehind := h.follows.behind
  unfold known at hbehind
  rwa [if_pos hloaded] at hbehind

/-- Where changes are queued, what waits makes due the deletion of what is lost. -/
private theorem Full.loses_of_queued {before : Session E} (h : Full cmp o scene)
    (hsynced : Synced cmp o name before scene)
    (hdependent : (scene.session.rules name).dependent = true)
    (request : QueueRequest E α) (hcount : request.Countable scene.value.content.elements) :
    Loses none QueueContent.elements request.cascades scene (stateAfter request.run scene) ∧
      ((stateAfter request.run scene).session.rules name).dependent = true := by
  have hlater : ∀ other, scene.value.tracker.dispatch ≠ .immediate other := by
    intro other hother
    rw [hsynced.dispatch] at hother
    cases hother
  have hwaits : Waits cmp o scene.session.stores scene := ⟨h, hlater, rfl⟩
  have hafter := hsynced.request h.whole request
  have hbehind := hsynced.behind h.whole
  have hbehind' := hafter.behind (h.request request hcount).1.whole
  have hstores : (stateAfter request.run scene).session.stores = scene.session.stores := by
    by_cases hattaches : request.attaches = true
    · cases request with
      | attachCopy target => exact (keeps_waits_attachCopy target scene hwaits).stores_eq
      | _ => cases hattaches
    · exact (hwaits.request request hcount (Bool.eq_false_iff.mpr hattaches)).stores_eq
  have hrules : (stateAfter request.run scene).session.rules name = scene.session.rules name := by
    rw [Session.rules, Session.store_of_stores_eq hstores name, Session.rules]
  refine ⟨?_, by rw [hrules]; exact hdependent⟩
  unfold Loses
  rw [Tracked.deletedOnceFlushed_of_behind hafter.dispatch hbehind' rfl,
    Tracked.deletedOnceFlushed_of_behind hsynced.dispatch hbehind rfl]
  by_cases hattaches : request.attaches = true
  · cases request with
    | attachCopy target =>
      obtain ⟨operations, hpending, hgentle⟩ :=
        (harmless_attachCopy target scene (.refl scene.session)).pending
      have hdue := hbehind.dueDeletions_of_gentle hpending hstores hgentle
      refine ⟨[], ?_, .nil fun hallowed => by cases hallowed⟩
      rw [List.append_nil]
      exact hdue
    | _ => cases hattaches
  · exact (request.told hwaits.apart (Bool.eq_false_iff.mpr hattaches)).dueDeletions hsynced.owner
      hsynced.dispatch hbehind hdependent

/-- A full queue whose deletions are looked after: by the queue itself in memory, and elsewhere by a
store of dependent elements. -/
inductive Tended (cmp : Comparator E) (o : Owner) (scene : Scene (TrackedQueue E) E) : Prop where
  | memory (inMemory : InMemory o scene)
  | immediate {name : StoreName} (dispatch : scene.value.tracker.dispatch = .immediate name)
      (dependent : (scene.session.rules name).dependent = true)
  | queued {name : StoreName} {before : Session E} (synced : Synced cmp o name before scene)
      (dependent : (scene.session.rules name).dependent = true)

/-- Whatever the dispatch is, a request to a full queue deletes exactly what it loses, once the
session is flushed. -/
theorem Tended.request (h : Tended cmp o scene) (hfull : Full cmp o scene)
    (request : QueueRequest E α) (hcount : request.Countable scene.value.content.elements) :
    Tended cmp o (stateAfter request.run scene) ∧
      Loses none QueueContent.elements request.cascades scene (stateAfter request.run scene) := by
  have htracker := (hfull.request request hcount).2
  cases h with
  | memory hmemory =>
    exact ⟨.memory (hmemory.of_tracker_eq htracker),
      hmemory.loses htracker (request.deletesLost hmemory) none⟩
  | immediate hdispatch hdependent =>
    obtain ⟨hloses, hafter⟩ := hfull.loses_of_immediate hdispatch hdependent request hcount
    refine ⟨.immediate ?_ hafter, hloses⟩
    rw [htracker]
    exact hdispatch
  | queued hsynced hdependent =>
    obtain ⟨hloses, hafter⟩ := hfull.loses_of_queued hsynced hdependent request hcount
    exact ⟨.queued (hsynced.request hfull.whole request) hafter, hloses⟩

omit [Element E] [Std.TransCmp cmp] in
/-- A flush deletes what was due, and nothing else. -/
theorem Tended.flush (h : Tended cmp o scene) (hwhole : scene.value.isAuthoritative = true)
    (hqueues : scene.value.tracker.isQueued = true) (default : Option StoreName) :
    let flushed : Scene (TrackedQueue E) E :=
      { scene with session := stateAfter (Session.flush default) scene.session }
    Tended cmp o flushed ∧
      deletedOnceFlushed none flushed = deletedOnceFlushed none scene := by
  cases h with
  | memory hmemory =>
    rw [Tracker.isQueued, hmemory.dispatch] at hqueues
    cases hqueues
  | immediate hdispatch hdependent =>
    rw [Tracker.isQueued, hdispatch] at hqueues
    cases hqueues
  | queued hsynced hdependent =>
    rename_i name before
    have hbehind := hsynced.behind hwhole
    have hname : (some name).or default = some name := rfl
    obtain ⟨after, hflush, hnil, hdeleted, hcontinues, -⟩ := hbehind.flush_deletions hname
    obtain ⟨after', hflush', -, -, hsynced'⟩ := hsynced.flush_default default
    obtain rfl : after = after' := by
      rw [hflush] at hflush'
      cases hflush'
      rfl
    have hbehind' := hsynced'.behind hwhole
    rw [stateAfter_of_ok hflush]
    refine ⟨.queued hsynced' ?_, ?_⟩
    · dsimp only
      rw [hcontinues.rules_eq]
      exact hdependent
    · rw [Tracked.deletedOnceFlushed_of_behind hsynced'.dispatch hbehind' rfl,
        Tracked.deletedOnceFlushed_of_behind hsynced.dispatch hbehind rfl, ← hdeleted]
      exact Session.dueDeletions_of_idle hnil name o.id

end TrackedQueue

end TrackedFields
