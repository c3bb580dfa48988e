import Mathlib
import TrackedFields.Proofs.TrackedQueue.Requests

/-!
# The way to the datastore cannot be seen

Priority queues that hold all their elements in memory may differ in how changes reach the
datastore: not at all, in the queue of the session, or right away. As long as they are used alike,
they answer alike, hold the same and tell their owners the same, also if the waiting changes are
flushed in between.
-/

namespace TrackedFields

namespace Session

variable {E : Type} [DecidableEq E]

private theorem keeps_hearing_replay (default : Option StoreName) (operation : Operation E)
    (id : ObjectId) (hearing : Hearing) :
    Keeps (fun s : Session E => s.hearing id = hearing) (replay default operation) := by
  intro s h
  unfold replay
  split
  · exact h
  · next name _ =>
    unfold stateAfter EStateM.adaptExcept access
    cases operation.kind.perform operation.owner (s.store name) with
    | ok answer store => exact h
    | error e store => exact h

/-- A flush does not change who hears of a change. -/
theorem keeps_hearing_flush (default : Option StoreName) (id : ObjectId) (hearing : Hearing) :
    Keeps (fun s : Session E => s.hearing id = hearing) (flush default) := by
  have hall (operations : List (Operation E)) :
      Keeps (fun s : Session E => s.hearing id = hearing) (replayAll default operations) := by
    induction operations with
    | nil => exact Keeps.pure 0
    | cons operation rest ih =>
      apply (keeps_hearing_replay default operation id hearing).bind
      intro _
      have hpop : Keeps (fun s : Session E => s.hearing id = hearing)
          (modify fun s => { s with pending := rest } : EStateM ReplayError (Session E) PUnit) :=
        Keeps.of_modify fun _ h => h
      exact hpop.bind fun _ => ih.bind fun n => Keeps.pure (n + 1)
  exact fun s h => hall s.pending s h

end Session

namespace TrackedQueue

variable {E : Type}

/-- A queue that holds all its elements in memory, in order. If it makes its changes right away,
then in a reliable store of its own order that holds the same. -/
structure Full (cmp : Comparator E) (o : Owner) (scene : Scene (TrackedQueue E) E) : Prop where
  owner : scene.value.tracker.owner = some o
  order : scene.value.content.order = cmp
  sorted : cmp.Sorted scene.value.content.elements
  whole : scene.value.isAuthoritative = true
  inStore : ∀ name, scene.value.tracker.dispatch = .immediate name →
    scene.session.Serves name o.id cmp scene.value.content.elements

/-- Full queues that differ only in how changes reach the datastore: their fields have the same
name, number and null policy, they hold the same, and changes of them are heard alike. -/
structure Matching {ι : Type} (cmp : Comparator E) (owners : ι → Owner)
    (scenes : ι → Scene (TrackedQueue E) E) : Prop where
  full : ∀ i, Full cmp (owners i) (scenes i)
  fieldName : ∀ i j, (owners i).descriptor.name = (owners j).descriptor.name
  field : ∀ i j, (owners i).field = (owners j).field
  allowNulls : ∀ i j, (scenes i).value.tracker.allowNulls = (scenes j).value.tracker.allowNulls
  elements : ∀ i j, (scenes i).value.content.elements = (scenes j).value.content.elements
  hearing : ∀ i j, (scenes i).session.hearing (owners i).id =
    (scenes j).session.hearing (owners j).id

variable [DecidableEq E] [Element E] {cmp : Comparator E} {o : Owner}
  {scene after : Scene (TrackedQueue E) E}

omit [DecidableEq E] in
/-- A full queue shows what it holds in memory. -/
theorem Full.shows {p : Profile E} (h : Full p.order o scene)
    (hcheck : scene.value.tracker.check = p.check) :
    Shows p o scene.value.content.elements scene :=
  ⟨h.owner, hcheck, h.order, h.sorted, fun _ => rfl, h.inStore, fun _ => h.whole⟩

/-- A queue stays full, whatever an action comes to. -/
theorem Becomes.full {α : Type} {p : Profile E} {outcome : Outcome E α}
    (hbecomes : Becomes p o outcome scene after) (h : Full p.order o scene) :
    Full p.order o after ∧ after.value.content.elements = outcome.elements := by
  have hshows := hbecomes.shows
  have hwhole : after.value.isAuthoritative = true :=
    isAuthoritative_of_continues hbecomes.tracker hbecomes.content h.whole
  have helements : after.value.content.elements = outcome.elements := hshows.inMemory hwhole
  refine ⟨⟨hshows.owner, hshows.order, ?_, hwhole, ?_⟩, helements⟩
  · rw [helements]
    exact hshows.sorted
  · intro name hname
    rw [helements]
    exact hshows.inStore name hname

/-- Of a full queue, the owner hears what an action comes to. -/
private theorem Becomes.heard {α : Type} {p : Profile E} {outcome : Outcome E α}
    (hbecomes : Becomes p o outcome scene after) (h : Full p.order o scene) :
    after.session.heard o.id = scene.session.heard o.id ++
      (scene.session.hearing o.id).news o.field outcome.relations outcome.changes := by
  obtain ⟨relations, hrelations, hadvances⟩ := hbecomes.advances
  rw [hadvances.heard, hrelations h.whole]

variable {ι : Type} {owners : ι → Owner} {scenes : ι → Scene (TrackedQueue E) E}

/-- Matching queues answer a request alike, tell their owners the same and stay matching. -/
theorem Matching.request {α : Type} [Nonempty ι] [Std.TransCmp cmp]
    (h : Matching cmp owners scenes) (request : QueueRequest E α)
    (hcount : ∀ i, request.Countable (scenes i).value.content.elements) :
    ∃ (result : Except Failure α) (news : News E) (afters : ι → Scene (TrackedQueue E) E),
      (∀ i, request.run (scenes i) = ended result (afters i)) ∧
      (∀ i, (afters i).session.heard (owners i).id =
        (scenes i).session.heard (owners i).id ++ news) ∧
      Matching cmp owners afters := by
  obtain ⟨k⟩ : Nonempty ι := inferInstance
  let p : Profile E := ⟨cmp, (scenes k).value.tracker.check⟩
  have hshows (i : ι) : Shows p (owners i) (scenes k).value.content.elements (scenes i) := by
    have hcheck : (scenes i).value.tracker.check = p.check := by
      apply Tracker.check_congr
      · rw [Tracker.fieldName, Tracker.fieldName, (h.full i).owner, (h.full k).owner]
        exact congrArg some (h.fieldName i k)
      · exact h.allowNulls i k
    rw [h.elements k i]
    exact Full.shows (p := p) (h.full i) hcheck
  obtain ⟨outcome, houtcome⟩ := request.settles (p := p) (hcount k)
  choose afters hrun hbecomes using fun i => houtcome (owners i) (scenes i) (hshows i)
  let news : News E := ((scenes k).session.hearing (owners k).id).news (owners k).field
    outcome.relations outcome.changes
  have hheard (i : ι) : (afters i).session.heard (owners i).id =
      (scenes i).session.heard (owners i).id ++ news := by
    rw [(hbecomes i).heard (h.full i), h.hearing i k, h.field i k]
  have hhearing (i : ι) : (afters i).session.hearing (owners i).id =
      (scenes i).session.hearing (owners i).id := by
    obtain ⟨_, -, hadvances⟩ := (hbecomes i).advances
    exact hadvances.hearing
  refine ⟨outcome.result, news, afters, hrun, hheard, ?_, h.fieldName, h.field, ?_, ?_, ?_⟩
  · exact fun i => ((hbecomes i).full (h.full i)).1
  · intro i j
    rw [(hbecomes i).tracker, (hbecomes j).tracker]
    exact h.allowNulls i j
  · intro i j
    rw [((hbecomes i).full (h.full i)).2, ((hbecomes j).full (h.full j)).2]
  · intro i j
    rw [hhearing i, hhearing j]
    exact h.hearing i j

variable [DecidableEq ι]

omit [Element E] in
/-- Matching queues stay matching when the session of one that queues its changes is flushed. -/
theorem Matching.flush (h : Matching cmp owners scenes) {k : ι}
    (hqueues : (scenes k).value.tracker.isQueued = true) (default : Option StoreName) :
    Matching cmp owners (Function.update scenes k { scenes k with
      session := stateAfter (Session.flush default) (scenes k).session }) := by
  let flushed : Scene (TrackedQueue E) E :=
    { scenes k with session := stateAfter (Session.flush default) (scenes k).session }
  have hvalue (i : ι) : (Function.update scenes k flushed i).value = (scenes i).value := by
    by_cases hi : i = k
    · subst hi
      rw [Function.update_self]
    · rw [Function.update_of_ne hi]
  have hhearing (i : ι) : (Function.update scenes k flushed i).session.hearing (owners i).id =
      (scenes i).session.hearing (owners i).id := by
    by_cases hi : i = k
    · subst hi
      rw [Function.update_self]
      exact Session.keeps_hearing_flush default (owners i).id _ (scenes i).session rfl
    · rw [Function.update_of_ne hi]
  -- No queue but the flushed one is in another session, and that one keeps no store in step.
  refine ⟨fun i => ?_, h.fieldName, h.field, ?_, ?_, ?_⟩
  · have hfull := h.full i
    refine ⟨?_, ?_, ?_, ?_, ?_⟩
    · rw [hvalue]
      exact hfull.owner
    · rw [hvalue]
      exact hfull.order
    · rw [hvalue]
      exact hfull.sorted
    · rw [hvalue]
      exact hfull.whole
    · intro name hname
      by_cases hi : i = k
      · subst hi
        rw [hvalue] at hname
        rw [Tracker.isQueued, hname] at hqueues
        cases hqueues
      · rw [Function.update_of_ne hi] at hname ⊢
        exact hfull.inStore name hname
  · intro i j
    rw [hvalue, hvalue]
    exact h.allowNulls i j
  · intro i j
    rw [hvalue, hvalue]
    exact h.elements i j
  · intro i j
    rw [hhearing, hhearing]
    exact h.hearing i j

/-- Several queues are asked the same, or the session of one that queues its changes is flushed. -/
inductive MatchStep : (ι → Scene (TrackedQueue E) E) → (ι → Scene (TrackedQueue E) E) → Prop where
  | request {scenes : ι → Scene (TrackedQueue E) E} {α : Type} (request : QueueRequest E α)
      (countable : ∀ i, request.Countable (scenes i).value.content.elements) :
      MatchStep scenes fun i => stateAfter request.run (scenes i)
  | flush {scenes : ι → Scene (TrackedQueue E) E} (k : ι)
      (queues : (scenes k).value.tracker.isQueued = true) (default : Option StoreName) :
      MatchStep scenes (Function.update scenes k { scenes k with
        session := stateAfter (Session.flush default) (scenes k).session })

/-- The way to the datastore cannot be seen. Let several queues, each in a session of its own, hold
all their elements in memory, and let them differ at most in how changes reach the datastore: not at
all, in the queue of the session, or right away in a reliable store that holds the same. After any
run of requests made to all of them, with flushes of the queued ones in between, they hold the same,
any further request is answered alike, and their owners hear the same of it: the same relation
changes in the same order, as many dirty marks and as many updates. -/
theorem dispatch_invisible [Nonempty ι] (cmp : Comparator E) [Std.TransCmp cmp]
    (owners : ι → Owner) (start scenes : ι → Scene (TrackedQueue E) E)
    (hstart : Matching cmp owners start) (hrun : Relation.ReflTransGen MatchStep start scenes) :
    (∀ i j, (scenes i).value.content.elements = (scenes j).value.content.elements) ∧
      ∀ (α : Type) (request : QueueRequest E α),
        (∀ i, request.Countable (scenes i).value.content.elements) →
        ∃ (result : Except Failure α) (news : News E), ∀ i, ∃ after,
          request.run (scenes i) = ended result after ∧
          after.session.heard (owners i).id =
            (scenes i).session.heard (owners i).id ++ news := by
  have hmatching : Matching cmp owners scenes := by
    induction hrun with
    | refl => exact hstart
    | tail _ step ih =>
      cases step with
      | request request countable =>
        obtain ⟨_, _, afters, hanswer, -, hmatching⟩ := ih.request request countable
        have hafters := funext fun i => stateAfter_of_ended (hanswer i)
        rw [hafters]
        exact hmatching
      | flush k queues default => exact ih.flush queues default
  refine ⟨hmatching.elements, fun α request hcount => ?_⟩
  obtain ⟨result, news, afters, hanswer, hheard, -⟩ := hmatching.request request hcount
  exact ⟨result, news, fun i => ⟨afters i, hanswer i, hheard i⟩⟩

/-- A queue in memory, one that queues its changes and one that makes them right away, with elements
that often compare equal; the second one is flushed between two changes. -/
theorem dispatch_invisible_among_ties :
    let cmp : Comparator Int32 := compareOn fun e => e.toInt / 10
    let o : Owner := { id := .ofNat 7, descriptor := { name := "books", ordinal := ⟨3⟩ } }
    let session : Session Int32 := {
      entities := Table.empty.set o.id { typeName := "Library" }
      stores := Table.empty.set "books" (Store.seed { order := some cmp } o.id [25, 11, 27]) }
    let queue (dispatch : Dispatch) : Scene (TrackedQueue Int32) Int32 := {
      value := {
        tracker := { owner := some o, dispatch, allowNulls := false }
        content := {
          order := cmp
          useCache := true
          lazily := true
          elements := [11, 25, 27]
          loaded := true } }
      session }
    let start : Fin 3 → Scene (TrackedQueue Int32) Int32
      | 0 => queue .memory
      | 1 => queue (.queued (some "books"))
      | 2 => queue (.immediate "books")
    let added := fun i => stateAfter (QueueRequest.run (.add 22)) (start i)
    let flushed := Function.update added 1 { added 1 with
      session := stateAfter (Session.flush none) (added 1).session }
    let scenes := fun i => stateAfter (QueueRequest.run .poll) (flushed i)
    (∀ i, (scenes i).value.content.elements = [25, 27, 22]) ∧
    Matching cmp (fun _ => o) start ∧ Relation.ReflTransGen MatchStep start scenes ∧
      (∀ i j, (scenes i).value.content.elements = (scenes j).value.content.elements) ∧
        ∀ (α : Type) (request : QueueRequest Int32 α),
          (∀ i, request.Countable (scenes i).value.content.elements) →
          ∃ (result : Except Failure α) (news : News Int32), ∀ i, ∃ after,
            request.run (scenes i) = ended result after ∧
            after.session.heard o.id = (scenes i).session.heard o.id ++ news := by
  intro cmp o session queue start added flushed scenes
  have hsorted : cmp.Sorted [11, 25, 27] := by
    change List.Pairwise _ _
    decide
  have hserves : session.Serves "books" o.id cmp [11, 25, 27] := ⟨rfl, ⟨rfl, rfl⟩, by cbv⟩
  have hfull (dispatch : Dispatch) (hwhole : (queue dispatch).value.isAuthoritative = true)
      (hname : ∀ name, dispatch = .immediate name → name = "books") :
      Full cmp o (queue dispatch) := by
    refine ⟨rfl, rfl, hsorted, hwhole, ?_⟩
    intro name hdispatch
    rw [hname name hdispatch]
    exact hserves
  have hstart : Matching cmp (fun _ => o) start := by
    refine ⟨?_, fun _ _ => rfl, fun _ _ => rfl, ?_, ?_, ?_⟩
    · intro i
      fin_cases i
      · exact hfull .memory rfl (by simp)
      · exact hfull (.queued (some "books")) rfl (by simp)
      · exact hfull (.immediate "books") rfl fun name h => (Dispatch.immediate.inj h).symm
    all_goals
      intro i j
      fin_cases i <;> fin_cases j <;> rfl
  have hadd (i : Fin 3) : (QueueRequest.add 22).Countable (start i).value.content.elements :=
    trivial
  have hrun : Relation.ReflTransGen MatchStep start scenes :=
    ((Relation.ReflTransGen.refl.tail (.request (.add 22) hadd)).tail
      (.flush 1 rfl none)).tail (.request .poll fun _ => trivial)
  have helements : ∀ i, (scenes i).value.content.elements = [25, 27, 22] := by
    intro i
    fin_cases i <;> cbv
  exact ⟨helements, hstart, hrun, dispatch_invisible cmp (fun _ => o) start scenes hstart hrun⟩

end TrackedQueue

end TrackedFields
