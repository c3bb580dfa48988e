import TrackedFields.Proofs.Session.Replay

/-!
# Exactly once, in order

The history of a session in which operations are enqueued, flushes are attempted and datastores
begin and cease to reject calls, in any order. However often a flush was stopped and tried again,
the operations performed so far are the first ones ever enqueued, each performed once, and the
stores show what these operations make of what they showed in the beginning.
-/

namespace TrackedFields

open Store (Rules View)

/-- What can happen to the queue of a session and to the stores behind it. -/
inductive QueueEvent (E : Type) where
  | enqueue (operation : Operation E)
  /-- A flush with or without a default store. -/
  | attempt (default : Option StoreName)
  /-- From now on, the calls of a store pass or are rejected by other plans. -/
  | outage (name : StoreName) (reads writes : Outage)

/-- A session with a record of its queue. -/
structure History (E : Type) where
  session : Session E
  /-- All operations ever enqueued, in order. -/
  enqueued : List (Operation E) := []
  /-- The operations performed so far, in order, with the stores they were performed on. -/
  performed : List (Delivery E) := []

namespace History

variable {E : Type} [DecidableEq E]

/-- The history after one more event. -/
def step (h : History E) : QueueEvent E → History E
  | .enqueue operation => { h with
      session := h.session.enqueue operation
      enqueued := h.enqueued ++ [operation] }
  | .attempt default => { h with
      session := stateAfter (Session.flush default) h.session
      performed := h.performed ++
        Session.deliveries default h.session.pending h.session }
  | .outage name reads writes => { h with
      session := h.session.putStore name { h.session.store name with reads, writes } }

/-- The history of a session through some events. -/
def run (start : Session E) (events : List (QueueEvent E)) : History E :=
  events.foldl step { session := start }

/-- A history keeps its promises to the session that it began with. -/
structure Faithful (start : Session E) (h : History E) : Prop where
  rules : h.session.rules = start.rules
  inOrder : h.session.InOrder
  split : h.enqueued = h.performed.map Delivery.operation ++ h.session.pending
  views : Delivery.applyAll start.rules start.views h.performed = some h.session.views
  targets : ∀ d ∈ h.performed, ∀ name, d.operation.store = some name → d.target = name

variable {start : Session E} {h : History E}

omit [DecidableEq E] in
private theorem store_outage (s : Session E) (name : StoreName) (reads writes : Outage) :
    (s.putStore name { s.store name with reads, writes }).views = s.views ∧
      (s.putStore name { s.store name with reads, writes }).rules = s.rules := by
  have hstore (other : StoreName) :
      (s.putStore name { s.store name with reads, writes }).store other =
        if other = name then { s.store name with reads, writes } else s.store other :=
    s.stores.getD_set name other _ {}
  constructor
  · funext other
    rw [Session.views, hstore]
    split
    · next hother => rw [hother]; rfl
    · rfl
  · funext other
    rw [Session.rules, hstore]
    split
    · next hother => rw [hother]; rfl
    · rfl

/-- What a flush performs joins what was performed before. -/
private theorem Faithful.attempt (hf : Faithful start h) (default : Option StoreName) :
    ∃ mid, mid.rules = start.rules ∧ mid.InOrder ∧
      Delivery.applyAll start.rules start.views (h.step (.attempt default)).performed =
        some mid.views ∧
      h.enqueued = (h.step (.attempt default)).performed.map Delivery.operation ++ mid.pending ∧
      ((mid.pending = [] ∧ Session.flush default h.session =
          .ok (Session.deliveries default h.session.pending h.session).length mid) ∨
        ∃ e after, Session.flush default h.session = .error e after ∧
          Session.Blocked default mid e after) := by
  obtain ⟨mid, hcontinues, hin, hviews, hsplit, hend⟩ := Session.flush_cases default hf.inOrder
  refine ⟨mid, hcontinues.rules_eq.trans hf.rules, hin, ?_, ?_, hend⟩
  · rw [step, Delivery.applyAll_append, hf.views, Option.bind_some, ← hf.rules]
    exact hviews
  · rw [step, List.map_append, List.append_assoc, ← hsplit]
    exact hf.split

/-- One event keeps a history faithful. -/
theorem Faithful.step (hf : Faithful start h) (event : QueueEvent E) :
    Faithful start (h.step event) := by
  cases event with
  | enqueue operation =>
    refine ⟨hf.rules, hf.inOrder, ?_, hf.views, hf.targets⟩
    change h.enqueued ++ [operation] =
      h.performed.map Delivery.operation ++ (h.session.pending ++ [operation])
    rw [hf.split, List.append_assoc]
  | attempt default =>
    -- What was performed by then is split off what was enqueued, in order.
    obtain ⟨mid, hrules, hin, hviews, hsplit, hend⟩ := hf.attempt default
    have hleft : (h.step (.attempt default)).session.pending = mid.pending ∧
        (h.step (.attempt default)).session.views = mid.views ∧
        (h.step (.attempt default)).session.rules = mid.rules := Session.left_of_end hend
    obtain ⟨hpending, hviewsLeft, hrulesLeft⟩ := hleft
    constructor
    case rules => rw [hrulesLeft, hrules]
    case inOrder =>
      intro name
      rw [hviewsLeft, hrulesLeft]
      exact hin name
    case split =>
      rw [hpending]
      exact hsplit
    case views =>
      rw [hviewsLeft]
      exact hviews
    case targets =>
      intro d hd name hname
      rcases List.mem_append.mp hd with hd | hd
      · exact hf.targets d hd name hname
      · have htarget := Session.target_of_mem_deliveries hd
        rw [hname] at htarget
        exact (Option.some.inj htarget).symm
  | outage name reads writes =>
    obtain ⟨hviews, hrules⟩ := store_outage h.session name reads writes
    refine ⟨hrules.trans hf.rules, ?_, hf.split, ?_, hf.targets⟩
    · intro other
      change ((h.session.putStore name _).views other).InOrder
        ((h.session.putStore name _).rules other)
      rw [hviews, hrules]
      exact hf.inOrder other
    · change Delivery.applyAll start.rules start.views h.performed =
        some (h.session.putStore name _).views
      rw [hviews, hf.views]

/-- A history is faithful from the beginning on. -/
theorem faithful_run (hin : start.InOrder) (hpending : start.pending = [])
    (events : List (QueueEvent E)) : Faithful start (run start events) := by
  have hsteps (h : History E) (hf : Faithful start h) : Faithful start (events.foldl step h) := by
    induction events generalizing h with
    | nil => exact hf
    | cons event events ih => exact ih (h.step event) (hf.step event)
  exact hsteps _ ⟨rfl, hin, hpending.symm, rfl, by simp⟩

/-- The queue and the stores at one moment of a history, and what the next attempt to flush does,
whatever default store it has. -/
structure ExactlyOnce (start : Session E) (h : History E) : Prop where
  /-- The operations performed are the first ones enqueued; the others wait. -/
  prefix_performed : h.performed.map Delivery.operation =
    h.enqueued.take (h.enqueued.length - h.session.pending.length)
  waiting : h.session.pending = h.enqueued.drop h.performed.length
  /-- An operation with a store of its own is performed on that store. -/
  own_store : ∀ d ∈ h.performed, ∀ name, d.operation.store = some name → d.target = name
  /-- The stores show what the operations performed make of what they showed in the beginning. -/
  views_eq : Delivery.applyAll start.rules start.views h.performed = some h.session.views
  /-- An attempt succeeds exactly if it empties the queue. -/
  ok_iff : ∀ default, (∃ m after, Session.flush default h.session = .ok m after) ↔
    (h.step (.attempt default)).session.pending = []
  /-- A successful attempt tells how many operations it performed. -/
  count : ∀ default m after, Session.flush default h.session = .ok m after →
    (h.step (.attempt default)).performed.length = h.performed.length + m
  /-- An attempt that is stopped gives the error of the operation that is now the first to wait,
  which failed on a session that shows exactly what was performed before it, and shows the same
  afterwards. -/
  stopped : ∀ default e after, Session.flush default h.session = .error e after →
    ∃ operation rest mid, after.pending = operation :: rest ∧ mid.pending = operation :: rest ∧
      Delivery.applyAll start.rules start.views (h.step (.attempt default)).performed =
        some mid.views ∧
      Session.replay default operation mid = .error e after ∧ after.views = mid.views

/-- Operations are replayed exactly once and in order, through all outages. -/
theorem exactlyOnce_run (start : Session E) (hin : start.InOrder) (hpending : start.pending = [])
    (events : List (QueueEvent E)) : ExactlyOnce start (run start events) := by
  have hf := faithful_run hin hpending events
  generalize run start events = h at hf
  have hlength : h.enqueued.length = h.performed.length + h.session.pending.length := by
    rw [hf.split, List.length_append, List.length_map]
  constructor
  case prefix_performed =>
    rw [hlength, Nat.add_sub_cancel, hf.split, ← List.length_map Delivery.operation,
      List.take_left]
  case waiting => rw [hf.split, ← List.length_map Delivery.operation, List.drop_left]
  case own_store => exact hf.targets
  case views_eq => exact hf.views
  case ok_iff =>
    intro default
    obtain ⟨mid, -, -, -, -, ⟨hnil, hok⟩ | ⟨e, after, herror, hblocked⟩⟩ := hf.attempt default
    · have hafter : (h.step (.attempt default)).session = mid := stateAfter_of_ok hok
      rw [hafter]
      exact ⟨fun _ => hnil, fun _ => ⟨_, _, hok⟩⟩
    · have hafter : (h.step (.attempt default)).session = after := stateAfter_of_error herror
      obtain ⟨operation, rest, hcons, -⟩ := hblocked.head
      rw [hafter, hblocked.pending, hcons, herror]
      constructor
      · rintro ⟨m, last, h⟩
        cases h
      · intro h
        cases h
  case count =>
    intro default m after hflush
    obtain ⟨mid, -, -, -, -, ⟨-, hok⟩ | ⟨e, last, herror, -⟩⟩ := hf.attempt default
    · rw [hok] at hflush
      cases hflush
      exact List.length_append
    · rw [herror] at hflush
      cases hflush
  case stopped =>
    intro default e after hflush
    obtain ⟨mid, -, -, hviews, -, ⟨-, hok⟩ | ⟨e', last, herror, hblocked⟩⟩ := hf.attempt default
    · rw [hok] at hflush
      cases hflush
    · rw [herror] at hflush
      cases hflush
      obtain ⟨operation, rest, hcons, hreplay, -⟩ := hblocked.head
      exact ⟨operation, rest, mid, hblocked.pending.trans hcons, hcons, hviews, hreplay,
        hblocked.views⟩

/-- Two operations are performed by two attempts, of which the first one lacks a store and the
second one runs into an outage. -/
theorem exactlyOnce_through_outage :
    let start : Session Nat := {}
    let operation (store : Option StoreName) (kind : OperationKind Nat) : Operation Nat :=
      { owner := .ofNat 7, field := ⟨3⟩, store, kind }
    let events : List (QueueEvent Nat) := [
      .enqueue (operation (some "books") (.collectionAdd 2)),
      .enqueue (operation none (.collectionAdd 1)),
      .enqueue (operation none (.collectionRemove 2 true)),
      .attempt none,
      .outage "books" .never (.after 1),
      .attempt (some "books")]
    start.InOrder ∧ start.pending = [] ∧ (run start events).performed.length = 2 ∧
      (run start events).session.pending.length = 1 ∧ ExactlyOnce start (run start events) := by
  intro start operation events
  have hin : start.InOrder := fun name => (start.views name).inOrder_of_none rfl
  exact ⟨hin, rfl, by decide, by decide, exactlyOnce_run start hin rfl events⟩

end History

end TrackedFields
