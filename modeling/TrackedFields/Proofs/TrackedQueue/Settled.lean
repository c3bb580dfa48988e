import TrackedFields.Proofs.TrackedQueue.Reconciled

/-!
# What a queue holds once it is settled

A queue that lets its changes wait without keeping its content in memory holds what its store holds
after a flush. If the flush gets stuck, the queue is blocked: whatever it passes on by value then
makes no difference. Otherwise that is carried out on what the queue holds.
-/

namespace TrackedFields.TrackedQueue

variable {E : Type} [DecidableEq E] [Element E] {o : Owner} {name : StoreName}
  {relations : List (RelationChange E)} {kinds : List (OperationKind E)} {remaining : List E}
  {scene after : Scene (TrackedQueue E) E}

/-! ### What is held in the end -/

/-- A queue once the changes that it lets wait have been flushed, as far as they can be. -/
def settled (scene : Scene (TrackedQueue E) E) : Scene (TrackedQueue E) E :=
  if scene.value.tracker.isQueued then
    { scene with session := stateAfter (Session.flush none) scene.session }
  else scene

/-- What a queue holds, with all that waits: what it lists, at once if it keeps its content in
memory, and else when it is settled. -/
def value (scene : Scene (TrackedQueue E) E) : List E :=
  if scene.value.content.useCache then listed scene else listed (settled scene)

/-- A queue that goes by its store, while what waits for that cannot be flushed. -/
structure Blocked (scene : Scene (TrackedQueue E) E) : Prop where
  hasStore : scene.value.hasStore = true
  useCache : scene.value.content.useCache = false
  isQueued : scene.value.tracker.isQueued = true
  stuck : ¬ ∃ n s, Session.flush none scene.session = .ok n s ∧ s.pending = []

omit [Element E] in
/-- A settled queue is as it was. -/
@[simp] theorem value_settled (scene : Scene (TrackedQueue E) E) :
    (settled scene).value = scene.value := by
  unfold settled
  split <;> rfl

omit [Element E] in
/-- A served queue that is settled is served. -/
theorem Served.settled (h : Served scene) : Served (settled scene) := by
  unfold TrackedQueue.settled
  split
  · exact h.flush none
  · exact h

omit [Element E] in
/-- A whole queue holds the elements in memory. -/
theorem value_of_whole (h : scene.value.isAuthoritative = true) :
    value scene = scene.value.content.elements ∧ listed (settled scene) = value scene := by
  have hlisted (s : Session E) : listed { scene with session := s } =
      scene.value.content.elements := (eq_listed_of_toList (toList_of_whole h s)).symm
  have hnow : listed scene = scene.value.content.elements := hlisted scene.session
  have hsettled : listed (settled scene) = scene.value.content.elements := by
    unfold settled
    split
    · exact hlisted _
    · exact hnow
  have hvalue : value scene = scene.value.content.elements := by
    unfold value
    split
    · exact hnow
    · exact hsettled
  exact ⟨hvalue, hsettled.trans hvalue.symm⟩

omit [Element E] in
/-- A whole queue is not blocked. -/
theorem not_blocked_of_whole (h : scene.value.isAuthoritative = true) : ¬ Blocked scene := by
  intro hblocked
  have huse := (cached_of_whole h hblocked.hasStore).1
  exact Bool.eq_false_iff.mp hblocked.useCache huse

omit [Element E] in
/-- A queue for which nothing waits is not blocked. -/
theorem not_blocked_of_nil (h : scene.session.pending = []) : ¬ Blocked scene := by
  intro hblocked
  refine hblocked.stuck ⟨0, scene.session, ?_, h⟩
  change Session.replayAll none scene.session.pending scene.session = .ok 0 scene.session
  rw [h]
  rfl

omit [Element E] in
/-- A queue is not blocked and holds what it lists, unless it goes by its store while its changes
wait. -/
theorem not_blocked_of_direct (h : scene.value.content.useCache = true ∨
      scene.value.hasStore = false ∨ scene.value.tracker.isQueued = false) :
    ¬ Blocked scene ∧ value scene = listed scene := by
  rcases h with huse | hstore | hnow
  · exact ⟨fun hblocked => Bool.eq_false_iff.mp hblocked.useCache huse, if_pos huse⟩
  · have hwhole : scene.value.isAuthoritative = true := by
      rw [isAuthoritative, hstore]
      rfl
    refine ⟨not_blocked_of_whole hwhole, (value_of_whole hwhole).1.trans ?_⟩
    exact eq_listed_of_toList (toList_of_whole hwhole scene.session)
  · refine ⟨fun hblocked => Bool.eq_false_iff.mp hnow hblocked.isQueued, ?_⟩
    rw [value, settled, hnow, if_neg Bool.false_ne_true, ite_self]

namespace Fed

omit [DecidableEq E] [Element E] in
/-- What a fed queue lists is what its store holds. -/
theorem listed_eq (h : Fed o name scene) : listed scene = held o name scene := by
  unfold listed
  rw [h.channel]
  dsimp only
  rw [h.useCache]
  rfl

omit [Element E] in
/-- What a fed queue holds is what its store holds when the queue is settled. -/
theorem value_eq (h : Fed o name scene) : value scene = held o name (settled scene) := by
  unfold value listed
  rw [h.useCache, value_settled, h.channel]
  dsimp only
  rw [h.useCache]
  rfl

omit [Element E] in
/-- What a fed queue that lets its changes wait comes to hold, and when it is blocked. -/
theorem value_of_queued (h : Fed o name scene) (hserved : Served scene)
    (hqueued : scene.value.tracker.isQueued = true) :
    value scene = OperationKind.carryOutFar (scene.session.rules name) (held o name scene)
        (scene.session.pending.map Operation.kind) ∧
      (Blocked scene ↔ OperationKind.carryOutAll (scene.session.rules name) (held o name scene)
        (scene.session.pending.map Operation.kind) = none) := by
  have hdedicated := hserved.dedicated h.channel hqueued
  refine ⟨?_, ?_⟩
  · rw [h.value_eq, settled, if_pos hqueued]
    exact (hdedicated.flushed none).contents
  · have hpasses := hdedicated.flush_passes_iff
    rw [← Option.not_isSome_iff_eq_none]
    constructor
    · exact fun hblocked hsome => hblocked.stuck (hpasses.mpr hsome)
    · intro hnone
      refine ⟨?_, h.useCache, hqueued, fun hok => hnone (hpasses.mp hok)⟩
      rw [hasStore, h.channel]
      rfl

end Fed

omit [Element E] in
/-- What a fed queue passes on by value is made of what it holds, unless it is blocked; then it
stays so, and holds the same. -/
theorem Passes.made_of_value (hpasses : Passes o name relations kinds remaining scene after)
    (h : Fed o name scene) (hserved : Served scene) (hserved' : Served after)
    (hkinds : ∀ kind ∈ kinds, kind.ByValue) :
    (Blocked after ↔ Blocked scene) ∧
      (¬ Blocked scene → OperationKind.carryOutAll (scene.session.rules name)
        (value scene) kinds = some (value after)) ∧
      (Blocked scene → value after = value scene) := by
  have hafter := hpasses.fed h
  have hrules : after.session.rules name = scene.session.rules name :=
    hpasses.sends.continues.rules
  cases hqueued : scene.value.tracker.isQueued with
  | false =>
    -- The value is what the store holds, and nothing can be blocked.
    have hqueued' : after.value.tracker.isQueued = false := by
      rw [hpasses.tracker]
      exact hqueued
    have hname := h.feeds.resolve_right fun hname => by
      rw [Tracker.isQueued, hname] at hqueued
      cases hqueued
    have hnot {now : Scene (TrackedQueue E) E} (hnow : now.value.tracker.isQueued = false) :
        ¬ Blocked now := (not_blocked_of_direct (.inr (.inr hnow))).1
    refine ⟨iff_of_false (hnot hqueued') (hnot hqueued), fun _ => ?_,
      fun hblocked => absurd hblocked (hnot hqueued)⟩
    rw [h.value_eq, hafter.value_eq, settled, settled, hqueued, hqueued',
      if_neg Bool.false_ne_true, if_neg Bool.false_ne_true]
    exact (hpasses.sends.made hname).2
  | true =>
    -- The value is what the store comes to hold, as far as what waits can be carried out.
    have hqueued' : after.value.tracker.isQueued = true := by
      rw [hpasses.tracker]
      exact hqueued
    have hname := h.feeds.queued hqueued
    obtain ⟨hpending, hview⟩ := hpasses.sends.queued hname
    have hheld : held o name after = held o name scene :=
      congrFun (congrArg Store.View.contents hview) o.id
    obtain ⟨hvalue, hblocked⟩ := h.value_of_queued hserved hqueued
    obtain ⟨hvalue', hblocked'⟩ := hafter.value_of_queued hserved' hqueued'
    rw [hrules, hheld, hpending, List.map_append,
      Tracker.map_kind_queued h.owner hname] at hvalue' hblocked'
    rw [hblocked, hblocked', hvalue, hvalue']
    cases hcarried : OperationKind.carryOutAll (scene.session.rules name) (held o name scene)
        (scene.session.pending.map Operation.kind) with
    | none =>
      rw [OperationKind.carryOutAll_append, hcarried,
        OperationKind.carryOutFar_append_of_none hcarried]
      exact ⟨Iff.rfl, fun hsome => absurd rfl hsome, fun _ => rfl⟩
    | some next =>
      obtain ⟨last, hlast⟩ := OperationKind.exists_carryOutAll_of_byValue hkinds next
      rw [OperationKind.carryOutAll_append, hcarried, Option.bind_some, hlast,
        OperationKind.carryOutFar_append_of_some hcarried,
        OperationKind.carryOutFar_of_some hcarried, OperationKind.carryOutFar_of_some hlast]
      exact ⟨iff_of_false (Option.some_ne_none last) (Option.some_ne_none next), fun _ => hlast,
        fun hnone => absurd hnone (Option.some_ne_none next)⟩

end TrackedFields.TrackedQueue
