import Mathlib
import TrackedFields.Proofs.TrackedQueue.LockstepWithoutStore
import TrackedFields.Proofs.TrackedQueue.Requests

/-!
# Stores that fail

A loaded queue that makes its changes right away changes in memory whatever its store does. The
store has a say in the answers alone: a change is reported only if the store made it. So a store may
reject any of its calls, single writes of a bulk call included, and the queue goes on as one without
store.
-/

namespace TrackedFields

namespace QueueRequest

variable {E α : Type} [DecidableEq E]

/-- The write that a request makes in the store of a queue with the given elements in memory, after
the answer that reports no change. Other requests report no changes. -/
def write (owner : ObjectId) (held : List E) :
    QueueRequest E α → Option (α × StoreAction E α)
  | add e => some (false, Store.add owner e (some held.length))
  | addAll new => some (false, Store.addAll owner new (some held.length))
  | poll => some (none, Store.removeAt owner 0 (some held.length))
  | remove e => some (false, Store.remove owner e (some held.length) true)
  | removeWith e cascade => some (false, Store.remove owner e (some held.length) cascade)
  | removeAll doomed =>
    some (false, Store.removeAll owner (held.filter doomed.contains) (some held.length))
  | retainAll keep =>
    some (false, Store.removeAll owner (held.filter fun e => !keep.contains e) (some held.length))
  | _ => none

end QueueRequest

namespace TrackedQueue

variable {E α : Type} {o o' : Owner} {name : StoreName} {t : Tracker} {content : QueueContent E}
  {q' : TrackedQueue E} {s : Session E} {after : Scene (TrackedQueue E) E}

/-- A change that is forwarded answers what the store answers, or what stands for a failure. -/
private theorem Paired.exists_forwarded (h : Paired o o' name ⟨t, content⟩ q') (operation : String)
    (action : ObjectId → StoreAction E α) (s : Session E) :
    ∃ forwarded mid, t.forward operation action s = (forwarded, mid) ∧
      ∀ inMemory failed, forwarded.answer inMemory failed ≠ failed →
        action o.id (s.store name) = .ok (forwarded.answer inMemory failed) (mid.store name) := by
  have hdispatch : t.dispatch = .immediate name := h.dispatch
  have hchannel : t.channel = some (name, o.id) := h.channel
  cases haction : action o.id (s.store name) with
  | ok answer store =>
    refine ⟨.applied answer, s.afterCalls name store, ?_, fun _ _ _ => ?_⟩
    · simp only [Tracker.forward, hdispatch, Tracker.call, hchannel, Session.access_ok haction]
    · rw [Session.store_afterCalls, if_pos rfl]
      rfl
  | error e store =>
    refine ⟨.failed, (s.afterCalls name store).record
      [.warned operation (t.place (s.afterCalls name store)) e], ?_, ?_⟩
    · simp only [Tracker.forward, hdispatch, Tracker.call, hchannel, Session.access_error haction]
    · exact fun _ _ hnot => absurd rfl hnot

private theorem Paired.hint (h : Paired o o' name ⟨t, content⟩ q') :
    TrackedQueue.hint ⟨t, content⟩ = some content.elements.length := if_pos h.useCache

variable [DecidableEq E]

/-- What a request reports happened in the store: the write answered the same. -/
def Vouched (name : StoreName) (q : TrackedQueue E) (action : Action E α) (write : StoreAction E α)
    (nothing : α) : Prop :=
  ∀ s answer after, action ⟨q, s⟩ = .ok answer after → answer ≠ nothing →
    write (s.store name) = .ok answer (after.session.store name)

private theorem Paired.poll (h : Paired o o' name ⟨t, content⟩ q') :
    Vouched name ⟨t, content⟩ TrackedQueue.poll
      (Store.removeAt o.id 0 (some content.elements.length)) none := by
  intro s answer after hrun hanswer
  obtain ⟨forwarded, mid, hforward, hvouched⟩ :=
    h.exists_forwarded "poll" (Store.removeAt · 0 (some content.elements.length)) s
  unfold TrackedQueue.poll at hrun
  simp only [bind_apply, h.ensureLoaded_eq, h.hint, current_apply, setElements_apply,
    forward_apply hforward, announce_apply, changed_apply, pure_apply] at hrun
  cases hrun
  rw [hvouched _ _ hanswer]
  exact congrArg _ (t.store_reported mid _ name).symm

private theorem Paired.removeWith (h : Paired o o' name ⟨t, content⟩ q') (e : E) (cascade : Bool) :
    Vouched name ⟨t, content⟩ (TrackedQueue.removeWith e cascade)
      (Store.remove o.id e (some content.elements.length) cascade) false := by
  intro s answer after hrun hanswer
  obtain ⟨forwarded, mid, hforward, hvouched⟩ :=
    h.exists_forwarded "remove" (Store.remove · e (some content.elements.length) cascade) s
  unfold TrackedQueue.removeWith at hrun
  simp only [bind_apply, h.ensureLoaded_eq, h.hint, h.isAuthoritative, Bool.or_true, Bool.true_or,
    if_true, current_apply, setElements_apply, forward_apply hforward, announce_apply,
    changed_apply, pure_apply] at hrun
  cases hrun
  rw [hvouched _ _ hanswer]
  exact congrArg _ (t.store_reported mid _ name).symm

private theorem Paired.removeListed (h : Paired o o' name ⟨t, content⟩ q') (doomed : List E) :
    Vouched name ⟨t, content⟩ (TrackedQueue.removeListed doomed)
      (Store.removeAll o.id (content.elements.filter doomed.contains)
        (some content.elements.length)) false := by
  intro s answer after hrun hanswer
  have hdispatch : t.dispatch = .immediate name := h.dispatch
  obtain ⟨forwarded, mid, hforward, hvouched⟩ := h.exists_forwarded "remove-all"
    (Store.removeAll · (content.elements.filter doomed.contains) (some content.elements.length))
    (t.announce (.removed (content.elements.filter doomed.contains) true) s)
  unfold TrackedQueue.removeListed at hrun
  simp only [bind_apply, h.ensureLoaded_eq, h.hint, h.isAuthoritative, if_true, hdispatch,
    current_apply, setElements_apply, forward_apply hforward, announce_apply,
    changed_apply, pure_apply] at hrun
  cases hrun
  have hwrite := hvouched _ _ hanswer
  rw [Session.store_of_stores_eq (t.stores_announce s _)] at hwrite
  rw [hwrite]
  exact congrArg _ (Session.store_of_stores_eq (t.stores_changed mid) name).symm

private theorem Paired.addUnchecked (h : Paired o o' name ⟨t, content⟩ q') (operation : String)
    (store : ObjectId → Option Nat → StoreAction E Bool) (new : List E) :
    Vouched name ⟨t, content⟩ (TrackedQueue.addUnchecked operation store new)
      (store o.id (some content.elements.length)) false := by
  intro s answer after hrun hanswer
  obtain ⟨forwarded, mid, hforward, hvouched⟩ :=
    h.exists_forwarded operation (store · (some content.elements.length)) s
  unfold TrackedQueue.addUnchecked at hrun
  simp only [bind_apply, h.ensureLoaded_eq, h.hint, current_apply, forward_apply hforward,
    setElements_apply, announce_apply, changed_apply, pure_apply] at hrun
  cases hrun
  rw [hvouched _ _ hanswer]
  exact congrArg _ (t.store_reported mid _ name).symm

omit [DecidableEq E] in
private theorem Vouched.of_checked {checked : Tracker → Except Failure Unit}
    {next : Unit → Action E α} {q : TrackedQueue E} {write : StoreAction E α} {nothing : α}
    (h : Vouched name q (next ()) write nothing) :
    Vouched name q (Tracked.tracker? >>= fun t => Tracked.require (checked t) >>= next) write
      nothing := by
  intro s answer after hrun hanswer
  change (Tracked.require (checked q.tracker) >>= next) ⟨q, s⟩ = _ at hrun
  cases hchecked : checked q.tracker with
  | error failure =>
    rw [hchecked] at hrun
    cases hrun
  | ok passed =>
    rw [hchecked] at hrun
    exact h s answer after hrun hanswer

omit [DecidableEq E] in
private theorem Vouched.ite {c : Prop} [Decidable c] {action : Action E α} {q : TrackedQueue E}
    {write : StoreAction E α} {nothing : α} (h : Vouched name q action write nothing) :
    Vouched name q (if c then pure nothing else action) write nothing := by
  split
  · intro s answer after hrun hanswer
    cases hrun
    exact absurd rfl hanswer
  · exact h

private theorem Paired.retainAll (h : Paired o o' name ⟨t, content⟩ q') (keep : List E) :
    Vouched name ⟨t, content⟩ (TrackedQueue.retainAll keep)
      (Store.removeAll o.id (content.elements.filter fun e => !keep.contains e)
        (some content.elements.length)) false := by
  have hdropped : content.elements.filter
      (content.elements.filter fun e => !keep.contains e).contains =
        content.elements.filter fun e => !keep.contains e := by
    apply List.filter_congr
    intro e he
    simp [he]
  have hremove := h.removeListed (content.elements.filter fun e => !keep.contains e)
  rw [hdropped] at hremove
  intro s answer after hrun
  unfold TrackedQueue.retainAll at hrun
  simp only [bind_apply, h.toList_eq, current_apply, h.isQueued, Bool.false_and, Bool.false_eq_true,
    if_false, List.append_nil] at hrun
  exact hremove.ite s answer after hrun

variable [Element E]

/-- An answer reports a change only if the store made it. -/
private theorem Paired.vouched (h : Paired o o' name ⟨t, content⟩ q') (request : QueueRequest E α)
    {nothing : α} {write : StoreAction E α}
    (hwrite : request.write o.id content.elements = some (nothing, write)) :
    Vouched name ⟨t, content⟩ request.run write nothing := by
  cases request with
  | add e =>
    cases hwrite
    exact (h.addUnchecked "add" (Store.add · e ·) [e]).of_checked
  | addAll new =>
    cases hwrite
    exact (h.addUnchecked "add-all" (Store.addAll · new ·) new).ite.of_checked
  | poll =>
    cases hwrite
    exact h.poll
  | remove e =>
    cases hwrite
    exact h.removeWith e true
  | removeWith e cascade =>
    cases hwrite
    exact h.removeWith e cascade
  | removeAll doomed =>
    cases hwrite
    exact (h.removeListed doomed).ite
  | retainAll keep =>
    cases hwrite
    exact h.retainAll keep
  | _ => cases hwrite

/-- Both queues get the same call. -/
inductive BothCalled : Scene (TrackedQueue E) E × Scene (TrackedQueue E) E →
    Scene (TrackedQueue E) E × Scene (TrackedQueue E) E → Prop where
  | call {scene scene' : Scene (TrackedQueue E) E} (call : Call E) :
      BothCalled (scene, scene') (stateAfter call.run scene, stateAfter call.run scene')

/-- What a queue with a store that may fail has in common with a queue without store, since two
earlier moments. -/
structure Softened (o o' : Owner) (name : StoreName)
    (start start' scene scene' : Scene (TrackedQueue E) E) : Prop where
  /-- Both hold the same. -/
  elements : scene.value.content.elements = scene'.value.content.elements
  /-- Both fields were marked equally often. -/
  marks : ∃ n,
    scene.session.marksOf o.id = start.session.marksOf o.id ++ List.replicate n o.field ∧
    scene'.session.marksOf o'.id = start'.session.marksOf o'.id ++ List.replicate n o'.field
  /-- A further call answers on both, or is refused by both for a null element. -/
  calls : ∀ call : Call E,
    (∃ after after', call.run scene = .ok () after ∧ call.run scene' = .ok () after') ∨
    ∃ after after', call.run scene = .error (.nullElement o.descriptor.name) after ∧
      call.run scene' = .error (.nullElement o'.descriptor.name) after'
  /-- An answer reports a change only if the write made in the store did. -/
  vouched : ∀ (α : Type) (request : QueueRequest E α) (nothing : α) (write : StoreAction E α),
    request.write o.id scene.value.content.elements = some (nothing, write) →
    ∀ answer after, request.run scene = .ok answer after → answer ≠ nothing →
      write (scene.session.store name) = .ok answer (after.session.store name)
  /-- A head that is handed out was taken from the store. -/
  head : ∀ e after, poll scene = .ok (some e) after → ∃ rest,
    (scene.session.store name).contents o.id = e :: rest ∧
    (after.session.store name).contents o.id = (scene.session.store name).arrange rest

/-- A store that fails is noticed in the answers alone. Take a loaded queue that keeps its content
in memory and makes its changes right away in a store, whatever the store holds and whichever calls
it rejects, and a queue without store that holds the same, refuses the same and has its owner in
memory exactly if the first one has. After any run of calls made to both, they hold the same, their
fields were marked equally often, no further call fails but for a null element, which both refuse,
and an answer reports a change only if the store made it. -/
theorem store_failures_invisible (o o' : Owner) (name : StoreName)
    (start start' scene scene' : Scene (TrackedQueue E) E)
    (hstart : Paired o o' name start.value start'.value)
    (halive : start.session.isAlive o.id = start'.session.isAlive o'.id)
    (hrun : Relation.ReflTransGen BothCalled (start, start') (scene, scene')) :
    Softened o o' name start start' scene scene' := by
  -- The queues stay companions through the run, by induction on it.
  have hcompanions : Companions o o' name start.session start'.session scene scene' := by
    generalize hpair : (scene, scene') = pair at hrun
    induction hrun generalizing scene scene' with
    | refl =>
      cases hpair
      exact ⟨hstart, 0, .refl o _, .refl o' _⟩
    | tail _ step ih =>
      cases step with
      | call call =>
        cases hpair
        exact call.inStep.stateAfter (ih _ _ rfl)
  have hqueues := hcompanions.queues
  have hvouched {α : Type} (request : QueueRequest E α) {nothing : α} {write : StoreAction E α}
      (hwrite : request.write o.id scene.value.content.elements = some (nothing, write)) :
      ∀ answer after, request.run scene = .ok answer after → answer ≠ nothing →
        write (scene.session.store name) = .ok answer (after.session.store name) :=
    hqueues.vouched request hwrite scene.session
  refine ⟨hqueues.elements, ?_, ?_, fun α request nothing write => hvouched request, ?_⟩
  · obtain ⟨n, hn, hn'⟩ := hcompanions.marks
    rw [hn.marks, hn'.marks, ← halive]
    split
    · exact ⟨n, rfl, rfl⟩
    · exact ⟨0, rfl, rfl⟩
  · intro call
    have hend := call.inStep scene scene' hcompanions
    generalize call.run scene = result, call.run scene' = result' at hend
    cases hend with
    | ok _ _ => exact .inl ⟨_, _, rfl, rfl⟩
    | error failures _ =>
      obtain ⟨rfl, rfl⟩ := failures
      exact .inr ⟨_, _, rfl, rfl⟩
  · intro x after hpoll
    have hwrite := hvouched .poll rfl (some x) after hpoll (Option.some_ne_none x)
    rw [Store.removeAt_eq] at hwrite
    split at hwrite
    · cases hwrite
    · injection hwrite with hhead hstore
      rw [← hstore, Store.contents_written, if_pos rfl]
      cases hcontents : (scene.session.store name).contents o.id with
      | nil =>
        rw [hcontents] at hhead
        cases hhead
      | cons y rest =>
        rw [hcontents] at hhead
        cases hhead
        exact ⟨rest, rfl, rfl⟩

/-- A store that rejects every second write: of two elements added in bulk it takes one, and so the
next head to leave it is not the one that leaves the memory. -/
theorem store_failures_invisible_every_second_write :
    let cmp : Comparator Int32 := compareOn Int32.toInt
    let o : Owner := { id := .ofNat 7, descriptor := { name := "books", ordinal := ⟨3⟩ } }
    let session : Session Int32 := {
      entities := Table.empty.set o.id { typeName := "Library" }
      stores := Table.empty.set "books" (Store.seed {
        order := some cmp
        writes := ⟨fun n => n % 2 == 1⟩ } o.id [5, 7]) }
    let queue (dispatch : Dispatch) : Scene (TrackedQueue Int32) Int32 := {
      value := {
        tracker := { owner := some o, dispatch, allowNulls := false }
        content := {
          order := cmp
          useCache := true
          lazily := true
          elements := [5, 7]
          loaded := true } }
      session }
    let start := queue (.immediate "books")
    let start' := queue .memory
    let run (scene : Scene (TrackedQueue Int32) Int32) :=
      stateAfter (Call.run .poll) (stateAfter (Call.run (.addAll [4, 3])) scene)
    (run start).value.content.elements = [4, 5, 7] ∧
    ((run start).session.store "books").contents o.id = [5, 7] ∧
    Paired o o "books" start.value start'.value ∧
    start.session.isAlive o.id = start'.session.isAlive o.id ∧
    Relation.ReflTransGen BothCalled (start, start') (run start, run start') ∧
    Softened o o "books" start start' (run start) (run start') := by
  intro cmp o session queue start start' run
  have hpaired : Paired o o "books" start.value start'.value :=
    ⟨rfl, rfl, rfl, rfl, rfl, rfl, rfl, rfl, rfl⟩
  have hrun : Relation.ReflTransGen BothCalled (start, start') (run start, run start') :=
    (Relation.ReflTransGen.refl.tail (.call (.addAll [4, 3]))).tail (.call .poll)
  exact ⟨by cbv, by cbv, hpaired, rfl, hrun,
    store_failures_invisible o o "books" start start' _ _ hpaired rfl hrun⟩

end TrackedQueue

end TrackedFields
