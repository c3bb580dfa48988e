import TrackedFields.Proofs.Session.Replay
import TrackedFields.Proofs.Store.CarryOut

/-!
# A store that lags behind

While changes wait in the queue, a store lags behind the container in memory. It lags by no more
than the queue if replaying the queue on its container gives the container in memory. A container
that queues, with each change, operations that repeat this change keeps that true, and then a
flush lets the store catch up.
-/

namespace TrackedFields

namespace Session

variable {E : Type} [DecidableEq E]

/-- A reliable store lags behind a container in memory by what waits in the queue. All operations
in the queue are for this container and name the same store, or none. -/
structure Behind (s : Session E) (name : StoreName) (store : Option StoreName) (owner : ObjectId)
    (es : List E) : Prop where
  inOrder : (s.views name).InOrder (s.rules name)
  reliable : (s.store name).Reliable
  waiting : ∀ operation ∈ s.pending, operation.owner = owner ∧ operation.store = store
  catches_up : OperationKind.carryOutAll (s.rules name) ((s.views name).contents owner)
    (s.pending.map Operation.kind) = some es

variable {s after : Session E} {name : StoreName} {store : Option StoreName} {owner : ObjectId}
  {es next : List E}

/-- A store that holds what the container holds is not behind. -/
theorem behind_of_contents (hin : (s.views name).InOrder (s.rules name))
    (hreliable : (s.store name).Reliable) (hpending : s.pending = [])
    (hcontents : (s.store name).contents owner = es) : s.Behind name store owner es := by
  refine ⟨hin, hreliable, ?_, ?_⟩
  · rw [hpending]
    intro operation h
    cases h
  · rw [hpending]
    exact congrArg some hcontents

/-- What a session hears apart from its queue does not matter, nor does a store call that shows
nothing. -/
theorem Behind.congr (h : s.Behind name store owner es) (hpending : after.pending = s.pending)
    (hview : after.views name = s.views name)
    (hcontinues : (s.store name).Continues (after.store name)) :
    after.Behind name store owner es := by
  have hrules : after.rules name = s.rules name := hcontinues.rules
  constructor
  case inOrder =>
    rw [hview, hrules]
    exact h.inOrder
  case reliable => exact hcontinues.reliable h.reliable
  case waiting =>
    rw [hpending]
    exact h.waiting
  case catches_up =>
    rw [hpending, hrules, hview]
    exact h.catches_up

/-- A request that leaves the queue and the stores alone does not matter. -/
theorem Behind.of_stores_eq (h : s.Behind name store owner es)
    (hpending : after.pending = s.pending) (hstores : after.stores = s.stores) :
    after.Behind name store owner es := by
  have hstore : after.store name = s.store name := store_of_stores_eq hstores name
  refine h.congr hpending (congrArg Store.view hstore) ?_
  rw [hstore]
  exact ⟨rfl, id⟩

/-- A change of the container that is queued lets the store lag one change more. -/
theorem Behind.queue {t : Tracker} {o : Owner} (h : s.Behind name store o.id es)
    (howner : t.owner = some o) (hdispatch : t.dispatch = .queued store)
    {kinds : List (OperationKind E)}
    (hkinds : OperationKind.carryOutAll (s.rules name) es kinds = some next) :
    { s with pending := s.pending ++ t.queued kinds }.Behind name store o.id next := by
  have hqueued := Tracker.queued_eq_map howner hdispatch kinds
  have hmap := Tracker.map_kind_queued howner hdispatch kinds
  refine ⟨h.inOrder, h.reliable, ?_, ?_⟩
  · intro operation hmem
    rcases List.mem_append.mp hmem with hmem | hmem
    · exact h.waiting operation hmem
    · rw [hqueued] at hmem
      obtain ⟨kind, -, rfl⟩ := List.mem_map.mp hmem
      exact ⟨rfl, rfl⟩
  · have hcaught := h.catches_up
    change OperationKind.carryOutAll (s.rules name) ((s.views name).contents o.id)
      ((s.pending ++ t.queued kinds).map Operation.kind) = some next
    rw [List.map_append, hmap, OperationKind.carryOutAll_append, hcaught]
    exact hkinds

/-- The container in memory fits into the store that lags behind it. -/
theorem Behind.fits (h : s.Behind name store owner es) : (s.rules name).Fits es :=
  OperationKind.fits_carryOutAll (fun cmp hcmp => (h.inOrder cmp hcmp).1) (h.inOrder.fits owner)
    h.catches_up

/-- A flush lets the store catch up. -/
theorem Behind.flush (h : s.Behind name store owner es) {default : Option StoreName}
    (hname : store.or default = some name) :
    ∃ after, Session.flush default s = .ok s.pending.length after ∧ after.pending = [] ∧
      (after.store name).contents owner = es ∧ s.Continues after ∧
      after.Behind name store owner es := by
  obtain ⟨v, heffect, hcontents⟩ := OperationKind.effects_of_carryOutAll
    (fun operation hmem => (h.waiting operation hmem).1) h.catches_up
  have hstore : ∀ operation ∈ s.pending, operation.store.or default = some name := by
    intro operation hmem
    rw [(h.waiting operation hmem).2]
    exact hname
  obtain ⟨after, hflush, hnil, hviews, hcontinues, hin⟩ :=
    flush_reliable h.inOrder h.reliable hstore heffect
  have hes : (after.store name).contents owner = es := by
    change (after.views name).contents owner = es
    rw [hviews, Function.update_self, hcontents]
  have hrules : after.rules name = s.rules name := (hcontinues name).rules
  refine ⟨after, hflush, hnil, hes, hcontinues,
    behind_of_contents ?_ ((hcontinues name).reliable h.reliable) hnil hes⟩
  rw [hviews, Function.update_self, hrules]
  exact hin

end Session

end TrackedFields
