import Mathlib
import TrackedFields.Proofs.TrackedQueue.Shadowing

/-!
# Removing heads without a cache

A priority queue that queues its changes and does not keep its content in memory answers the removal
of the head from memory, but always queues the removal of the head of the stored container. So a
later flush passes if and only if every such removal found an element in what the store was to hold
by then, and what it takes from the store are the elements found so, whatever was answered.
-/

namespace TrackedFields.TrackedQueue

variable {E : Type} [DecidableEq E]

/-- What there is to say about the removal of a head. -/
structure PollRecord (E : Type) where
  answer : Option E
  /-- The head of what the store would have held if all that waited had been flushed before. -/
  found : Option E

/-- What the removal of the head would answer and find. -/
def pollRecord (name : StoreName) (id : ObjectId) (scene : Scene (TrackedQueue E) E) :
    PollRecord E where
  answer :=
    match poll scene with
    | .ok answer _ => answer
    | .error _ _ => none
  found := (scene.session.due name id).bind List.head?

/-- The elements that removals of heads found, up to the first one that found none. -/
def foundFirst : List (PollRecord E) → List E
  | [] => []
  | record :: records =>
    match record.found with
    | some e => e :: foundFirst records
    | none => []

variable [Element E]

/-- A run of calls, with what there is to say about each removal of the head. -/
inductive PollRun (name : StoreName) (id : ObjectId) (start : Scene (TrackedQueue E) E) :
    List (PollRecord E) → Scene (TrackedQueue E) E → Prop where
  | start : PollRun name id start [] start
  | call {records : List (PollRecord E)} {scene : Scene (TrackedQueue E) E} (call : Call E)
      (other : call ≠ .poll) (run : PollRun name id start records scene) :
      PollRun name id start records (stateAfter call.run scene)
  | poll {records : List (PollRecord E)} {scene : Scene (TrackedQueue E) E}
      (run : PollRun name id start records scene) :
      PollRun name id start (records ++ [pollRecord name id scene]) (stateAfter poll scene)

omit [DecidableEq E] [Element E] in
/-- A queue that queues its changes for a reliable store and does not keep its content in memory,
while nothing waits. -/
structure Uncached (o : Owner) (name : StoreName) (scene : Scene (TrackedQueue E) E) : Prop where
  owner : scene.value.tracker.owner = some o
  dispatch : scene.value.tracker.dispatch = .queued (some name)
  useCache : scene.value.content.useCache = false
  inOrder : (scene.session.views name).InOrder (scene.session.rules name)
  reliable : (scene.session.store name).Reliable
  pending : scene.session.pending = []

omit [DecidableEq E] [Element E] in
/-- As long as nothing waits, such a queue shadows its own session. -/
theorem Uncached.shadowing {o : Owner} {name : StoreName} {scene : Scene (TrackedQueue E) E}
    (h : Uncached o name scene) : Shadowing o name scene.session [] scene := by
  refine ⟨h.owner, h.dispatch, h.useCache, ?_, rfl, ⟨rfl, id⟩⟩
  rw [h.pending, Tracker.queued_nil]

omit [DecidableEq E] [Element E] in
/-- As long as each removal finds an element, one more adds what it finds. -/
theorem foundFirst_concat {records : List (PollRecord E)}
    (h : ∀ record ∈ records, record.found.isSome = true) (record : PollRecord E) :
    foundFirst (records ++ [record]) = foundFirst records ++ record.found.toList := by
  induction records with
  | nil =>
    cases hfound : record.found <;> simp [foundFirst, hfound]
  | cons first records ih =>
    obtain ⟨e, hfound⟩ := Option.isSome_iff_exists.mp (h first List.mem_cons_self)
    rw [List.cons_append, foundFirst, foundFirst, hfound]
    exact congrArg (e :: ·) (ih fun record hmem => h record (List.mem_cons_of_mem _ hmem))

omit [DecidableEq E] [Element E] in
/-- Once a removal has found no element, the others do not count. -/
theorem foundFirst_append {records : List (PollRecord E)}
    (h : ¬ ∀ record ∈ records, record.found.isSome = true) (more : List (PollRecord E)) :
    foundFirst (records ++ more) = foundFirst records := by
  induction records with
  | nil => exact absurd (fun record hmem => by cases hmem) h
  | cons first records ih =>
    rw [List.cons_append, foundFirst, foundFirst]
    cases hfound : first.found with
    | none => rfl
    | some e =>
      refine congrArg (e :: ·) (ih fun hall => h fun record hmem => ?_)
      rcases List.mem_cons.mp hmem with rfl | hmem
      · rw [hfound]
        rfl
      · exact hall record hmem

omit [DecidableEq E] [Element E] in
/-- If each removal found an element, what was found counts, and nothing else. -/
theorem mem_foundFirst {records : List (PollRecord E)}
    (h : ∀ record ∈ records, record.found.isSome = true) (e : E) :
    e ∈ foundFirst records ↔ ∃ record ∈ records, record.found = some e := by
  induction records with
  | nil => simp [foundFirst]
  | cons first records ih =>
    obtain ⟨a, hfound⟩ := Option.isSome_iff_exists.mp (h first List.mem_cons_self)
    have hrest := ih fun record hmem => h record (List.mem_cons_of_mem _ hmem)
    rw [foundFirst, hfound]
    simp only [List.mem_cons, hrest, exists_eq_or_imp, hfound, Option.some.injEq]
    exact or_congr_left eq_comm

/-- Operations account for removals of heads from a container: they can be carried out as a whole if
and only if each removal found an element, and they take the elements found up to the first
failure. -/
structure Accounts (rules : Store.Rules E) (es : List E) (records : List (PollRecord E))
    (kinds : List (OperationKind E)) : Prop where
  passes : (OperationKind.carryOutAll rules es kinds).isSome = true ↔
    ∀ record ∈ records, record.found.isSome = true
  taken : OperationKind.headsTaken rules es kinds = foundFirst records

section Accounting

variable {rules : Store.Rules E} {es : List E} {records : List (PollRecord E)}
  {kinds more : List (OperationKind E)}

omit [Element E] in
private theorem Accounts.append_byValue (h : Accounts rules es records kinds)
    (hmore : ∀ kind ∈ more, kind.ByValue) : Accounts rules es records (kinds ++ more) := by
  constructor
  · rw [← h.passes, OperationKind.carryOutAll_append]
    cases OperationKind.carryOutAll rules es kinds with
    | none => rfl
    | some next =>
      obtain ⟨last, hlast⟩ := OperationKind.exists_carryOutAll_of_byValue hmore next
      rw [Option.bind_some, hlast]
      rfl
  · rw [OperationKind.headsTaken_append, h.taken]
    split
    · rw [List.append_nil]
    · rw [OperationKind.headsTaken_of_byValue hmore, List.append_nil]

omit [Element E] in
/-- The removal of a head accounts for one that finds the head of what is left by then. -/
private theorem Accounts.append_head (h : Accounts rules es records kinds) {record : PollRecord E}
    (hfound : record.found = (OperationKind.carryOutAll rules es kinds).bind List.head?) :
    Accounts rules es (records ++ [record]) (kinds ++ [.listRemoveAt 0]) := by
  cases hcarried : OperationKind.carryOutAll rules es kinds with
  | none =>
    -- An earlier removal found no element, and the operations stop there.
    have hstopped : ¬ ∀ record ∈ records, record.found.isSome = true := by
      rw [← h.passes, hcarried]
      exact Bool.false_ne_true
    constructor
    · rw [OperationKind.carryOutAll_append, hcarried]
      refine iff_of_false Bool.false_ne_true fun hall => hstopped fun record hmem => ?_
      exact hall record (List.mem_append_left _ hmem)
    · rw [OperationKind.headsTaken_append, hcarried, List.append_nil, h.taken,
        foundFirst_append hstopped]
  | some next =>
    rw [hcarried, Option.bind_some] at hfound
    have hall : ∀ record ∈ records, record.found.isSome = true := by
      rw [← h.passes, hcarried]
      rfl
    have hsingle : (OperationKind.carryOutAll rules es (kinds ++ [.listRemoveAt 0])).isSome =
        record.found.isSome := by
      rw [OperationKind.carryOutAll_append, hcarried, Option.bind_some,
        OperationKind.carryOutAll_cons, hfound, ← OperationKind.isSome_carryOut_head rules next]
      cases OperationKind.carryOut rules next (.listRemoveAt 0) <;> rfl
    constructor
    · rw [hsingle, List.forall_mem_append, List.forall_mem_singleton]
      exact ⟨fun hlast => ⟨hall, hlast⟩, And.right⟩
    · rw [OperationKind.headsTaken_append, hcarried, h.taken, foundFirst_concat hall, hfound,
        ← OperationKind.headsTaken_head rules next]

end Accounting

section Runs

variable {o : Owner} {name : StoreName} {before : Session E} {kinds : List (OperationKind E)}
  {start scene : Scene (TrackedQueue E) E} {records : List (PollRecord E)}

/-- What a run has queued accounts for its removals of heads. -/
private theorem PollRun.accounted (hstart : Uncached o name start)
    (run : PollRun name o.id start records scene) :
    ∃ kinds, Shadowing o name start.session kinds scene ∧
      Accounts (start.session.rules name) ((start.session.store name).contents o.id) records
        kinds := by
  induction run with
  | start => exact ⟨[], hstart.shadowing, iff_of_true rfl (by simp), rfl⟩
  | call call other run ih =>
    obtain ⟨kinds, hshadowing, haccounts⟩ := ih
    obtain ⟨more, hvalue, hafter⟩ := call.extends_run other _
      ⟨[], by simp, by rw [List.append_nil]; exact hshadowing⟩
    exact ⟨kinds ++ more, hafter, haccounts.append_byValue hvalue⟩
  | poll run ih =>
    obtain ⟨kinds, hshadowing, haccounts⟩ := ih
    obtain ⟨after, hpoll, hafter⟩ := hshadowing.poll
    obtain ⟨hrules, hcontents, hkinds⟩ := hshadowing.meets
    have hdue := (hshadowing.dedicated hstart.inOrder hstart.reliable).due_eq
    rw [hrules, hcontents, hkinds] at hdue
    refine ⟨kinds ++ [.listRemoveAt 0], ?_, haccounts.append_head ?_⟩
    · rw [stateAfter_of_ok hpoll]
      exact hafter
    · rw [pollRecord, hdue]

end Runs

/-- What a flush does after a run on a queue that does not keep its content in memory. It passes,
and lets nothing wait, if and only if each removal of a head found an element. It takes the elements
found, up to the first removal that found none. So the flush passes, and takes only elements that
were answered, if and only if each removal found an element and that element was answered by some
removal of the run. -/
theorem flush_after_polls {o : Owner} {name : StoreName} {start scene : Scene (TrackedQueue E) E}
    {records : List (PollRecord E)} (hstart : Uncached o name start)
    (run : PollRun name o.id start records scene) :
    ((∃ n after, Session.flush none scene.session = .ok n after ∧ after.pending = []) ↔
        ∀ record ∈ records, record.found.isSome = true) ∧
      Session.headsTaken none scene.session.pending scene.session = foundFirst records ∧
      (((∃ n after, Session.flush none scene.session = .ok n after ∧ after.pending = []) ∧
          ∀ e ∈ Session.headsTaken none scene.session.pending scene.session,
            ∃ record ∈ records, record.answer = some e) ↔
        ∀ record ∈ records, ∃ e, record.found = some e ∧
          ∃ other ∈ records, other.answer = some e) := by
  obtain ⟨kinds, hshadowing, haccounts⟩ := run.accounted hstart
  have hdedicated := hshadowing.dedicated hstart.inOrder hstart.reliable
  obtain ⟨hrules, hcontents, hkinds⟩ := hshadowing.meets
  have hpasses : (∃ n after, Session.flush none scene.session = .ok n after ∧
      after.pending = []) ↔ ∀ record ∈ records, record.found.isSome = true := by
    rw [hdedicated.flush_passes_iff, hrules, hcontents, hkinds]
    exact haccounts.passes
  have htaken : Session.headsTaken none scene.session.pending scene.session =
      foundFirst records := by
    rw [hdedicated.headsTaken_eq, hrules, hcontents, hkinds]
    exact haccounts.taken
  refine ⟨hpasses, htaken, ?_⟩
  rw [hpasses, htaken]
  constructor
  · rintro ⟨hall, hanswered⟩ record hmem
    obtain ⟨e, hfound⟩ := Option.isSome_iff_exists.mp (hall record hmem)
    exact ⟨e, hfound, hanswered e ((mem_foundFirst hall e).mpr ⟨record, hmem, hfound⟩)⟩
  · intro hboth
    have hall : ∀ record ∈ records, record.found.isSome = true := by
      intro record hmem
      obtain ⟨e, hfound, -⟩ := hboth record hmem
      rw [hfound]
      rfl
    refine ⟨hall, fun e htaken => ?_⟩
    obtain ⟨record, hmem, hfound⟩ := (mem_foundFirst hall e).mp htaken
    obtain ⟨other, hother, hanswered⟩ := hboth record hmem
    obtain rfl : e = other := Option.some.inj (hfound.symm.trans hother)
    exact hanswered

/-- A removal that finds the element that was added before, and answers it. -/
theorem flush_after_polls_of_known_heads :
    let cmp : Comparator Int32 := compareOn Int32.toInt
    let o : Owner := { id := .ofNat 7, descriptor := { name := "scores", ordinal := ⟨2⟩ } }
    let start : Scene (TrackedQueue Int32) Int32 := {
      value := {
        tracker := { owner := some o, dispatch := .queued (some "scores"), allowNulls := false }
        content := { order := cmp, useCache := false, lazily := true } }
      session := {
        entities := Table.empty.set o.id { typeName := "Game" }
        stores := Table.empty.set "scores" (Store.seed { order := some cmp } o.id [4]) } }
    let added := stateAfter (Call.run (.add (2 : Int32))) start
    let polled := stateAfter poll added
    let records := [pollRecord "scores" o.id added]
    Uncached o "scores" start ∧ PollRun "scores" o.id start records polled ∧
      (∃ n after, Session.flush none polled.session = .ok n after ∧ after.pending = []) ∧
      Session.headsTaken none polled.session.pending polled.session = [2] ∧
      ∃ record ∈ records, record.answer = some 2 := by
  intro cmp o start added polled records
  have hstart : Uncached o "scores" start :=
    ⟨rfl, rfl, rfl, Store.inOrder_seed_new cmp false o.id [4], ⟨rfl, rfl⟩, rfl⟩
  have hrun : PollRun "scores" o.id start records polled :=
    .poll (.call (Call.add (2 : Int32)) nofun .start)
  have hrecord : pollRecord "scores" o.id added = ⟨some 2, some 2⟩ := by cbv
  have hrecords : records = [⟨some 2, some 2⟩] := congrArg ([·]) hrecord
  obtain ⟨hpasses, htaken, -⟩ := flush_after_polls hstart hrun
  rw [hrecords] at hpasses htaken
  refine ⟨hstart, hrun, hpasses.mpr ?_, htaken, _, List.mem_singleton_self _, ?_⟩
  · intro record hmem
    obtain rfl := List.mem_singleton.mp hmem
    rfl
  · rw [hrecord]

/-- Two removals answer nothing: the first one takes the only stored element nevertheless, and the
second one blocks the queue of the session. -/
theorem polls_block_flush :
    let cmp : Comparator Int32 := compareOn Int32.toInt
    let o : Owner := { id := .ofNat 7, descriptor := { name := "scores", ordinal := ⟨2⟩ } }
    let start : Scene (TrackedQueue Int32) Int32 := {
      value := {
        tracker := { owner := some o, dispatch := .queued (some "scores"), allowNulls := false }
        content := { order := cmp, useCache := false, lazily := true } }
      session := {
        entities := Table.empty.set o.id { typeName := "Game" }
        stores := Table.empty.set "scores" (Store.seed { order := some cmp } o.id [1]) } }
    let once := stateAfter poll start
    let twice := stateAfter poll once
    let records := [pollRecord "scores" o.id start, pollRecord "scores" o.id once]
    Uncached o "scores" start ∧ PollRun "scores" o.id start records twice ∧
      records.map PollRecord.answer = [none, none] ∧
      Session.headsTaken none twice.session.pending twice.session = [1] ∧
      ¬ ((∃ n after, Session.flush none twice.session = .ok n after ∧ after.pending = []) ∧
        ∀ e ∈ Session.headsTaken none twice.session.pending twice.session,
          ∃ record ∈ records, record.answer = some e) := by
  intro cmp o start once twice records
  have hin : (start.session.views "scores").InOrder (start.session.rules "scores") :=
    Store.inOrder_seed_new cmp false o.id [1]
  let removal : Operation Int32 := ⟨o.id, ⟨2⟩, some "scores", .listRemoveAt 0⟩
  have hwaiting : twice.session.pending = [removal, removal] := rfl
  have hidle : start.session.Dedicated "scores" o.id := ⟨hin, ⟨rfl, rfl⟩, nofun⟩
  have hdedicated : twice.session.Dedicated "scores" o.id := by
    refine hidle.of_stores_eq rfl ?_
    rw [hwaiting]
    simp [removal]
  refine ⟨⟨rfl, rfl, rfl, hin, ⟨rfl, rfl⟩, rfl⟩, .poll (.poll .start), ?_, ?_, ?_⟩
  · cbv
  · rw [hdedicated.headsTaken_eq, hwaiting]
    cbv
  · have hblocked : OperationKind.carryOutAll (twice.session.rules "scores")
        ((twice.session.store "scores").contents o.id)
        ([removal, removal].map Operation.kind) = none := by cbv
    rw [hdedicated.flush_passes_iff, hwaiting, hblocked]
    rintro ⟨hpasses, -⟩
    cases hpasses

end TrackedFields.TrackedQueue
