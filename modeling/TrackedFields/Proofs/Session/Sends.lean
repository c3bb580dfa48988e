import TrackedFields.Proofs.Session.Flushed
import TrackedFields.Proofs.Tracked.Balance
import TrackedFields.Tracker.Forward

/-!
# What a session passes on

A field makes its changes in a store right away, or it queues them for that store. Between two
moments its session tells the owner of relation changes, and passes operations on: the store has
carried them out, or they wait behind all others.
-/

namespace TrackedFields

namespace Tracker

/-- A field makes its changes in a store right away, or queues them for it. -/
def Feeds (t : Tracker) (name : StoreName) : Prop :=
  t.dispatch = .immediate name ∨ t.dispatch = .queued (some name)

/-- A field that queues its changes queues them for its store. -/
theorem Feeds.queued {t : Tracker} {name : StoreName} (h : t.Feeds name)
    (hqueued : t.isQueued = true) : t.dispatch = .queued (some name) := by
  refine h.resolve_left fun hname => ?_
  rw [isQueued, hname] at hqueued
  cases hqueued

/-- What joins the queue for some changes, joins it for none if the field does not queue them. -/
theorem queued_if {E : Type} (t : Tracker) (kinds : List (OperationKind E)) :
    t.queued (if t.isQueued then kinds else []) = t.queued kinds := by
  by_cases hqueued : t.isQueued = true
  · rw [if_pos hqueued]
  · rw [if_neg hqueued, queued_nil, queued_of_not_isQueued (Bool.eq_false_iff.mpr hqueued)]

end Tracker

namespace Session

variable {E α : Type} [DecidableEq E]

/-- What a session passed on between two moments: the owner was told of relation changes, and
operations were carried out by the store, or queued. -/
structure Sends (t : Tracker) (o : Owner) (name : StoreName) (relations : List (RelationChange E))
    (kinds : List (OperationKind E)) (s after : Session E) : Prop where
  managed : after.settings.manageRelationships = s.settings.manageRelationships
  told : s.settings.manageRelationships = true → after.changesOf o = s.changesOf o ++ relations
  continues : (s.store name).Continues (after.store name)
  made : t.dispatch = .immediate name → after.pending = s.pending ∧
    OperationKind.carryOutAll (s.rules name) ((s.store name).contents o.id) kinds =
      some ((after.store name).contents o.id)
  queued : t.dispatch = .queued (some name) → after.pending = s.pending ++ t.queued kinds ∧
    (after.store name).view = (s.store name).view

/-- Between two moments nothing was queued or replayed, and a store shows what it showed, whether it
was called or not. -/
structure Calm (name : StoreName) (s after : Session E) : Prop where
  pending : after.pending = s.pending
  managed : after.settings.manageRelationships = s.settings.manageRelationships
  continues : (s.store name).Continues (after.store name)
  view : (after.store name).view = (s.store name).view

variable {t : Tracker} {o : Owner} {name : StoreName} {relations more : List (RelationChange E)}
  {kinds later : List (OperationKind E)} {s mid after : Session E} {changes : Nat}

omit [DecidableEq E] in
/-- Requests that leave the queue, all stores and the settings alone stay calm. -/
theorem Calm.of_stores_eq (hpending : after.pending = s.pending) (hstores : after.stores = s.stores)
    (hmanaged : after.settings.manageRelationships = s.settings.manageRelationships)
    (name : StoreName) : Calm name s after := by
  have hstore : after.store name = s.store name := store_of_stores_eq hstores name
  refine ⟨hpending, hmanaged, ?_, ?_⟩
  · rw [hstore]
    exact ⟨rfl, id⟩
  · rw [hstore]

omit [DecidableEq E] in
/-- A call of a store that shows nothing stays calm. -/
theorem Calm.afterCalls {store : Store E} (hcontinues : (s.store name).Continues store)
    (hview : store.view = (s.store name).view) : Calm name s (s.afterCalls name store) := by
  have hstore : (s.afterCalls name store).store name = store := by
    rw [store_afterCalls, if_pos rfl]
  refine ⟨rfl, rfl, ?_, ?_⟩
  · rw [hstore]
    exact hcontinues
  · rw [hstore]
    exact hview

omit [DecidableEq E] in
/-- Attaching elements stays calm. -/
theorem Calm.attach (t : Tracker) (es : List E) (name : StoreName) (s : Session E) :
    Calm name s (t.attach es s) := by
  unfold Tracker.attach
  split <;> exact ⟨rfl, rfl, ⟨rfl, id⟩, rfl⟩

omit [DecidableEq E] in
/-- In calm, a store keeps its rules. -/
theorem Calm.rules (h : Calm name s after) : after.rules name = s.rules name := h.continues.rules

omit [DecidableEq E] in
/-- In calm, a store keeps its contents. -/
theorem Calm.contents_eq (h : Calm name s after) (owner : ObjectId) :
    (after.store name).contents owner = (s.store name).contents owner :=
  congrFun (congrArg Store.View.contents h.view) owner

/-- Nothing is passed on between a moment and itself. -/
theorem Sends.refl (t : Tracker) (o : Owner) (name : StoreName) (s : Session E) :
    Sends t o name [] [] s s := by
  refine ⟨rfl, fun _ => (List.append_nil _).symm, ⟨rfl, id⟩, fun _ => ⟨rfl, rfl⟩,
    fun _ => ⟨?_, rfl⟩⟩
  rw [Tracker.queued_nil, List.append_nil]

/-- What is passed on is passed on one after the other. -/
theorem Sends.trans (h : Sends t o name relations kinds s mid)
    (h' : Sends t o name more later mid after) :
    Sends t o name (relations ++ more) (kinds ++ later) s after := by
  have hrules : mid.rules name = s.rules name := h.continues.rules
  refine ⟨h'.managed.trans h.managed, fun hmanaged => ?_, h.continues.trans h'.continues,
    fun hname => ?_, fun hname => ?_⟩
  · rw [h'.told (h.managed.trans hmanaged), h.told hmanaged, List.append_assoc]
  · obtain ⟨hpending, hcarried⟩ := h.made hname
    obtain ⟨hpending', hcarried'⟩ := h'.made hname
    refine ⟨hpending'.trans hpending, ?_⟩
    rw [OperationKind.carryOutAll_append, hcarried, Option.bind_some, ← hrules]
    exact hcarried'
  · obtain ⟨hpending, hview⟩ := h.queued hname
    obtain ⟨hpending', hview'⟩ := h'.queued hname
    refine ⟨?_, hview'.trans hview⟩
    rw [hpending', hpending, Tracker.queued_append, List.append_assoc]

/-- A store that no operation was passed on to holds what it held. -/
theorem Sends.contents_eq (h : Sends t o name relations [] s after) (hfeeds : t.Feeds name) :
    (after.store name).contents o.id = (s.store name).contents o.id := by
  rcases hfeeds with hname | hname
  · obtain ⟨-, hcarried⟩ := h.made hname
    exact (Option.some.inj hcarried).symm
  · obtain ⟨-, hview⟩ := h.queued hname
    exact congrFun (congrArg Store.View.contents hview) o.id

omit [DecidableEq E] in
/-- What an owner hears decides whether relations are managed, and which changes it is told of. -/
private theorem told_of_heard (relations : List (RelationChange E)) (changes : Nat)
    (hhearing : after.hearing o.id = s.hearing o.id)
    (hheard : after.heard o.id =
      s.heard o.id ++ (s.hearing o.id).news o.field relations changes) :
    after.settings.manageRelationships = s.settings.manageRelationships ∧
      (s.settings.manageRelationships = true →
        after.changesOf o = s.changesOf o ++ relations) :=
  ⟨congrArg Hearing.managed hhearing, fun hmanaged => changesOf_of_heard hmanaged hheard⟩

omit [DecidableEq E] in
private theorem told_of_silent (hhearing : after.hearing o.id = s.hearing o.id)
    (hheard : after.heard o.id = s.heard o.id) :
    after.settings.manageRelationships = s.settings.manageRelationships ∧
      (s.settings.manageRelationships = true → after.changesOf o = s.changesOf o ++ []) :=
  told_of_heard [] 0 hhearing (hheard.trans (Hearing.append_news_nil _ _ _).symm)

/-- Requests that reach no store pass on what they queue. -/
theorem Sends.of_stores_eq
    (hmanaged : after.settings.manageRelationships = s.settings.manageRelationships)
    (htold : s.settings.manageRelationships = true →
      after.changesOf o = s.changesOf o ++ relations)
    (hstores : after.stores = s.stores) (hpending : after.pending = s.pending ++ t.queued kinds)
    (hkinds : t.isQueued = false → kinds = []) : Sends t o name relations kinds s after := by
  have hstore : after.store name = s.store name := store_of_stores_eq hstores name
  refine ⟨hmanaged, htold, ?_, fun hname => ?_, fun _ => ⟨hpending, ?_⟩⟩
  · rw [hstore]
    exact ⟨rfl, id⟩
  · have hnone : kinds = [] := hkinds (by rw [Tracker.isQueued, hname])
    rw [hpending, hnone, hstore, Tracker.queued_nil, List.append_nil]
    exact ⟨rfl, rfl⟩
  · rw [hstore]

/-- A report tells the owner of the relation changes, and queues the operations of a field that
queues its changes. -/
theorem Sends.announce (howner : t.owner = some o) (name : StoreName) (report : Report E)
    (s : Session E) :
    Sends t o name report.relations (if t.isQueued then report.operations else []) s
      (t.announce report s) := by
  obtain ⟨hmanaged, htold⟩ :=
    told_of_heard _ _ (t.hearing_announce s report o.id) (t.heard_announce s howner report)
  refine .of_stores_eq hmanaged htold (t.stores_announce s report) ?_ fun hqueued => ?_
  · rw [Tracker.pending_announce, Tracker.queued_if]
  · rw [hqueued, if_neg Bool.false_ne_true]

/-- The end of a change passes nothing on. -/
theorem Sends.changed (howner : t.owner = some o) (name : StoreName) (s : Session E) :
    Sends t o name [] [] s (t.changed s) := by
  obtain ⟨hmanaged, htold⟩ :=
    told_of_heard _ _ (t.hearing_changed s o.id) (t.heard_changed s howner)
  refine .of_stores_eq hmanaged htold (t.stores_changed s) ?_ fun _ => rfl
  rw [Tracker.pending_changed, Tracker.queued_nil, List.append_nil]

/-- A mark passes nothing on. -/
theorem Sends.markDirty (t : Tracker) (o : Owner) (name : StoreName) (s : Session E) :
    Sends t o name [] [] s (t.markDirty s) := by
  have hjournal : (t.markDirty s).settings = s.settings ∧
      (t.markDirty s).relationsOf o.id = s.relationsOf o.id := by
    unfold Tracker.markDirty
    cases t.owner with
    | none => exact ⟨rfl, rfl⟩
    | some owner =>
      unfold Owner.markDirty Session.markDirty updateEntity relationsOf
      dsimp only
      split
      · split <;> exact ⟨rfl, by simp [record]⟩
      · exact ⟨rfl, rfl⟩
  obtain ⟨hsettings, hrelations⟩ := hjournal
  refine .of_stores_eq (congrArg Settings.manageRelationships hsettings) (fun _ => ?_)
    (t.stores_markDirty s) ?_ fun _ => rfl
  · unfold changesOf
    rw [hrelations, List.append_nil]
  · rw [Tracker.pending_markDirty, Tracker.queued_nil, List.append_nil]

/-- Queued operations are passed on, and nobody is told. -/
theorem Sends.enqueue (t : Tracker) (o : Owner) (name : StoreName)
    (kinds : List (OperationKind E)) (s : Session E) :
    Sends t o name [] (if t.isQueued then kinds else []) s (t.enqueue kinds s) := by
  have hhearing : (t.enqueue kinds s).hearing o.id = s.hearing o.id := by
    unfold Tracker.enqueue
    split <;> simp
  have hheard : (t.enqueue kinds s).heard o.id = s.heard o.id := by
    unfold Tracker.enqueue
    split <;> simp
  obtain ⟨hmanaged, htold⟩ := told_of_silent hhearing hheard
  refine .of_stores_eq hmanaged htold (t.stores_enqueue s kinds) ?_ fun hqueued => ?_
  · rw [Tracker.pending_enqueue, Tracker.queued_if]
  · rw [hqueued, if_neg Bool.false_ne_true]

/-- A store call is not heard; what the store carries out counts if it was called for a change that
is made right away, and a store that shows nothing of the call may be called any time. -/
theorem Sends.afterCalls (t : Tracker) {store : Store E}
    (hcontinues : (s.store name).Continues store)
    (hmade : t.dispatch = .immediate name →
      OperationKind.carryOutAll (s.rules name) ((s.store name).contents o.id) kinds =
        some (store.contents o.id))
    (hqueued : t.dispatch = .queued (some name) → kinds = [] ∧ store.view = (s.store name).view) :
    Sends t o name [] kinds s (s.afterCalls name store) := by
  have hstore : (s.afterCalls name store).store name = store := by
    rw [store_afterCalls, if_pos rfl]
  obtain ⟨hmanaged, htold⟩ :=
    told_of_silent (s.hearing_afterCalls name store o.id) (s.heard_afterCalls name store o.id)
  refine ⟨hmanaged, htold, ?_, fun hname => ⟨rfl, ?_⟩, fun hname => ?_⟩
  · rw [hstore]
    exact hcontinues
  · rw [hstore]
    exact hmade hname
  · obtain ⟨hnone, hview⟩ := hqueued hname
    rw [hstore, hnone, Tracker.queued_nil, List.append_nil]
    exact ⟨rfl, hview⟩

/-- A change that is forwarded is carried out by the store if changes are made there right away. -/
theorem exists_forwarded {answer : α} (howner : t.owner = some o) (hfeeds : t.Feeds name)
    (operation : String) (action : ObjectId → StoreAction E α)
    (haction : (s.store name).Carries o.id (action o.id) answer kinds) :
    ∃ mid, t.forward operation action s =
        (if t.isQueued then .skipped else .applied answer, mid) ∧
      Sends t o name [] (if t.isQueued then [] else kinds) s mid := by
  rcases hfeeds with hname | hname
  · have hqueued : t.isQueued = false := by rw [Tracker.isQueued, hname]
    obtain ⟨store, hcall, hcontinues, hstock⟩ := haction
    have hchannel : t.channel = some (name, o.id) := by rw [Tracker.channel, hname, howner]
    have hcarried := OperationKind.map_elements_stockAll (s.rules name) ((s.store name).shelf o.id)
      kinds
    refine ⟨s.afterCalls name store, ?_, .afterCalls t hcontinues (fun _ => ?_) fun hother => ?_⟩
    · simp only [Tracker.forward, hname, Tracker.call, hchannel, access_ok hcall, hqueued,
        Bool.false_eq_true, if_false]
    · rw [hqueued, if_neg Bool.false_ne_true]
      refine hcarried.symm.trans ?_
      change Option.map _ (OperationKind.stockAll (s.store name).rules _ kinds) = _
      rw [hstock]
      rfl
    · rw [hname] at hother
      cases hother
  · have hqueued : t.isQueued = true := by rw [Tracker.isQueued, hname]
    refine ⟨s, ?_, ?_⟩
    · rw [hqueued, Tracker.forward, hname]
      rfl
    · rw [hqueued, if_pos rfl]
      exact .refl t o name s

/-- A change that is forwarded and then reported. -/
theorem Sends.reported {first : List (OperationKind E)} (h : Sends t o name [] first s mid)
    (howner : t.owner = some o) (report : Report E) :
    Sends t o name report.relations (first ++ if t.isQueued then report.operations else []) s
      (t.changed (t.announce report mid)) := by
  have hreport := (h.trans (.announce howner name report mid)).trans (.changed howner name _)
  rwa [List.append_nil, List.append_nil, List.nil_append] at hreport

/-- A change that is reported with the operations that the store carries out, and then forwarded. -/
theorem exists_reported {answer : α} (s : Session E) (report : Report E)
    (howner : t.owner = some o) (hfeeds : t.Feeds name) (operation : String)
    (action : ObjectId → StoreAction E α) (hoperations : report.operations = kinds)
    (haction : (s.store name).Carries o.id (action o.id) answer kinds) :
    ∃ forwarded mid, t.forward operation action (t.announce report s) = (forwarded, mid) ∧
      Sends t o name report.relations kinds s (t.changed mid) := by
  have hannounced : ((t.announce report s).store name).Carries o.id (action o.id) answer kinds := by
    rwa [store_of_stores_eq (t.stores_announce s report) name]
  obtain ⟨mid, hforward, hsends⟩ :=
    exists_forwarded howner hfeeds operation action hannounced
  have hboth :=
    ((Sends.announce howner name report s).trans hsends).trans (.changed howner name mid)
  rw [hoperations, List.append_nil, List.append_nil, List.append_nil] at hboth
  refine ⟨_, mid, hforward, ?_⟩
  cases hqueued : t.isQueued with
  | true => simpa only [hqueued, if_true, List.append_nil] using hboth
  | false => simpa only [hqueued, Bool.false_eq_true, if_false, List.nil_append] using hboth

end Session

end TrackedFields
