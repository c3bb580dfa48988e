import Mathlib
import TrackedFields.Proofs.TrackedQueue.Losses

/-!
# Deletions do not depend on the dispatch

A container in memory decides by what it holds in the end; a store decides operation by operation,
by what its own container holds in between. Both decide alike, as long as the store arranges its
containers no other way than its operations mean it: a store behind a list keeps the order of
arrival, one behind a queue the order of the queue, and one behind a set any order.
-/

namespace TrackedFields

open Store (Rules)
open Tracked (Alike InMemory Loses Agreed DeletesLost deletedOnceFlushed)

variable {E : Type} [DecidableEq E]

/-! ### Twins -/

namespace Tracked

variable {C : Type} {elements : C → List E} {allowed : Bool} {o : Owner}
  {default : Option StoreName} {Queues : Scene (Tracked C) E → Prop}
  {memory queued : Scene (Tracked C) E}

/-- Containers alike, one in memory and one in a state in which it queues its changes, that have
deleted the same once their sessions are flushed. -/
structure Twins (Queues : Scene (Tracked C) E → Prop) (o : Owner) (default : Option StoreName)
    (memory queued : Scene (Tracked C) E) : Prop where
  alike : Alike memory queued
  inMemory : InMemory o memory
  queues : Queues queued
  agreed : Agreed default memory queued

/-- Twins stay twins under a call that deletes on either side what it loses there. -/
theorem Twins.step (h : Twins Queues o default memory queued)
    {action : TrackedAction (Tracked C) E Unit}
    (halike : Alike (stateAfter action memory) (stateAfter action queued))
    (htracker : (stateAfter action memory).value.tracker = memory.value.tracker)
    (hdeletes : DeletesLost elements allowed memory (stateAfter action memory))
    (hqueues : Queues (stateAfter action queued))
    (hloses : Loses default elements allowed queued (stateAfter action queued)) :
    Twins Queues o default (stateAfter action memory) (stateAfter action queued) :=
  ⟨halike, h.inMemory.of_tracker_eq htracker, hqueues,
    h.agreed.step (h.inMemory.loses htracker hdeletes default) hloses
      (congrArg elements h.alike.content) (congrArg elements halike.content)⟩

/-- Twins stay twins through calls each of which keeps them twins. -/
theorem Twins.run {M : Type} {run : M → TrackedAction (Tracked C) E Unit} {ms : List M}
    (hstep : ∀ m ∈ ms, ∀ memory queued, Twins Queues o default memory queued →
      Twins Queues o default (stateAfter (run m) memory) (stateAfter (run m) queued))
    (h : Twins Queues o default memory queued) :
    Twins Queues o default (ms.foldl (fun scene m => stateAfter (run m) scene) memory)
      (ms.foldl (fun scene m => stateAfter (run m) scene) queued) := by
  induction ms generalizing memory queued with
  | nil => exact h
  | cons m ms ih =>
    exact ih (fun m hm => hstep m (List.mem_cons_of_mem _ hm))
      (hstep m List.mem_cons_self memory queued h)

end Tracked

open Tracked (Twins)

variable [Element E] {o : Owner} {name : StoreName} {stores : Table StoreName (Store E)}

/-! ### Lists -/

/-- A change of two lists alike, other than an attachment, deletes the same of both. -/
private theorem TrackedList.Mutator.twins (horder : (stores.getD name {}).order = none)
    (hdependent : (stores.getD name {}).dependent = true) (m : TrackedList.Mutator E)
    (hm : ∀ target, m ≠ .attachCopy target) {memory queued : Scene (TrackedList E) E}
    (h : Twins (InSync id o none name stores) o (some name) memory queued) :
    Twins (InSync id o none name stores) o (some name) (stateAfter m.run memory)
      (stateAfter m.run queued) := by
  have hfaithful := m.faithful hm
  have hsync := h.queues
  have hafter := m.keeps horder queued hsync
  have hrules : (queued.session.rules name).dependent = true := by
    rw [hsync.rules_eq]
    exact hdependent
  refine h.step (hfaithful.alike h.alike) (hfaithful.told memory).tracker_eq
    ((hfaithful.told memory).deletesLost h.inMemory) hafter ?_
  unfold Loses
  rw [Tracked.deletedOnceFlushed_of_behind hafter.dispatch hafter.behind rfl,
    Tracked.deletedOnceFlushed_of_behind hsync.dispatch hsync.behind rfl]
  exact (hfaithful.told queued).dueDeletions hsync.owner hsync.dispatch hsync.behind hrules

/-! ### Sets -/

/-- A change of two sets alike deletes the same of both. -/
private theorem TrackedSet.Mutator.twins (hdependent : (stores.getD name {}).dependent = true)
    (m : TrackedSet.Mutator E) {memory queued : Scene (TrackedSet E) E}
    (h : Twins (TrackedSet.Followed o name stores) o (some name) memory queued) :
    Twins (TrackedSet.Followed o name stores) o (some name) (stateAfter m.run memory)
      (stateAfter m.run queued) := by
  have hfollowed := h.queues
  have hafter := m.followed queued hfollowed
  obtain ⟨held, -, hbehind⟩ := hfollowed.behind
  obtain ⟨held', -, hbehind'⟩ := hafter.behind
  have hrules : (queued.session.rules name).dependent = true := by
    rw [Session.rules, Session.store, hfollowed.stores_eq]
    exact hdependent
  refine h.step (m.alike h.alike) (m.tracker_eq memory) (m.deletesLost h.inMemory) hafter ?_
  unfold Loses
  rw [Tracked.deletedOnceFlushed_of_behind hafter.dispatch hbehind' rfl,
    Tracked.deletedOnceFlushed_of_behind hfollowed.dispatch hbehind rfl]
  exact m.dues hfollowed hrules

/-! ### Queues -/

namespace TrackedQueue

variable {cmp : Comparator E} {scene : Scene (TrackedQueue E) E} {ι : Type}
  {owners : ι → Owner} {scenes afters : ι → Scene (TrackedQueue E) E}

/-- A full queue of dependent elements: it lives in memory, it makes its changes right away in a
store of dependent elements, or it is settled with such a store. -/
inductive Entrusted (cmp : Comparator E) (o : Owner) (scene : Scene (TrackedQueue E) E) : Prop where
  | memory (inMemory : InMemory o scene)
  | immediate {name : StoreName} (dispatch : scene.value.tracker.dispatch = .immediate name)
      (dependent : (scene.session.store name).dependent = true)
  | queued {name : StoreName} (settled : Settled cmp o name scene)
      (dependent : (scene.session.store name).dependent = true)

omit [Element E] in
private theorem Entrusted.tended (h : Entrusted cmp o scene) : Tended cmp o scene := by
  cases h with
  | memory inMemory => exact .memory inMemory
  | immediate dispatch dependent => exact .immediate dispatch dependent
  | queued settled dependent => exact .queued settled.synced dependent

/-- Matching queues whose deletions are looked after and that have deleted the same once their
sessions are flushed. -/
private structure Concordant (cmp : Comparator E) (owners : ι → Owner)
    (scenes : ι → Scene (TrackedQueue E) E) : Prop where
  matching : Matching cmp owners scenes
  tended : ∀ i, Tended cmp (owners i) (scenes i)
  agreed : ∀ i j, Agreed none (scenes i) (scenes j)

/-- A request to all of them, or a flush of one, keeps queues concordant. -/
private theorem Concordant.step [DecidableEq ι] [Nonempty ι] [Std.TransCmp cmp]
    (h : Concordant cmp owners scenes) (step : MatchStep scenes afters) :
    Concordant cmp owners afters := by
  cases step with
  | request request countable =>
    obtain ⟨result, news, afters, hanswer, -, hmatching⟩ := h.matching.request request countable
    have hafters : (fun i => stateAfter request.run (scenes i)) = afters :=
      funext fun i => stateAfter_of_ended (hanswer i)
    have hstep (i : ι) := (h.tended i).request (h.matching.full i) request (countable i)
    rw [← hafters] at hmatching
    exact ⟨hmatching, fun i => (hstep i).1, fun i j => (h.agreed i j).step (hstep i).2 (hstep j).2
      (h.matching.elements i j) (hmatching.elements i j)⟩
  | flush k queues default =>
    obtain ⟨htended, hdeleted⟩ := (h.tended k).flush (h.matching.full k).whole queues default
    let flushed : Scene (TrackedQueue E) E :=
      { scenes k with session := stateAfter (Session.flush default) (scenes k).session }
    have hsame (i : ι) : deletedOnceFlushed none (Function.update scenes k flushed i) =
        deletedOnceFlushed none (scenes i) := by
      by_cases hi : i = k
      · subst hi
        rw [Function.update_self]
        exact hdeleted
      · rw [Function.update_of_ne hi]
    refine ⟨h.matching.flush queues default, fun i => ?_, fun i j e => ?_⟩
    · by_cases hi : i = k
      · subst hi
        rw [Function.update_self]
        exact htended
      · rw [Function.update_of_ne hi]
        exact h.tended i
    · rw [hsame i, hsame j]
      exact h.agreed i j e

/-- Concordant queues stay so through any run of steps. -/
private theorem Concordant.run [DecidableEq ι] [Nonempty ι] [Std.TransCmp cmp]
    (h : Concordant cmp owners scenes) (hrun : Relation.ReflTransGen MatchStep scenes afters) :
    Concordant cmp owners afters := by
  induction hrun with
  | refl => exact h
  | tail _ step ih => exact ih.step step

end TrackedQueue

/-! ### All containers -/

/-- The dispatch does not decide what is deleted. Let a container of dependent elements live in
memory, and another one of the same field queue its changes for a reliable store of dependent
elements that holds the same: a store without order behind a list, one of any order behind a set,
and one of the order of the queue behind a queue. After any run of changes of both, attaching a list
apart, a flush carries out whatever waits, and then the store has deleted the same elements that the
session was asked to delete for the container in memory. The same is true of any number of full
queues, also of those that make their changes right away, and with flushes in between. -/
theorem dispatch_deletions_agree (o : Owner) (name : StoreName) :
    (∀ memory queued : Scene (TrackedList E) E, Alike memory queued → InMemory o memory →
      TrackedList.Settled o name queued → (queued.session.store name).dependent = true →
      Agreed (some name) memory queued →
      ∀ ms : List (TrackedList.Mutator E), (∀ m ∈ ms, ∀ target, m ≠ .attachCopy target) →
        let run := ms.foldl fun scene m => stateAfter m.run scene
        Agreed (some name) (run memory) (run queued) ∧
          ∃ flushed, Session.flush (some name) (run queued).session =
            .ok (run queued).session.pending.length flushed) ∧
    (∀ memory queued : Scene (TrackedSet E) E, Alike memory queued → InMemory o memory →
      TrackedSet.Settled o name queued → (queued.session.store name).dependent = true →
      Agreed (some name) memory queued →
      ∀ ms : List (TrackedSet.Mutator E),
        let run := ms.foldl fun scene m => stateAfter m.run scene
        Agreed (some name) (run memory) (run queued) ∧
          ∃ flushed, Session.flush (some name) (run queued).session =
            .ok (run queued).session.pending.length flushed) ∧
    ∀ (ι : Type) [DecidableEq ι] [Nonempty ι] (cmp : Comparator E) [Std.TransCmp cmp]
      (owners : ι → Owner) (start scenes : ι → Scene (TrackedQueue E) E),
      TrackedQueue.Matching cmp owners start →
      (∀ i, TrackedQueue.Entrusted cmp (owners i) (start i)) →
      (∀ i j, Agreed none (start i) (start j)) →
      Relation.ReflTransGen TrackedQueue.MatchStep start scenes →
      (∀ i j, Agreed none (scenes i) (scenes j)) ∧
        ∀ i, (scenes i).value.tracker.isQueued = true →
          ∃ flushed, Session.flush none (scenes i).session =
            .ok (scenes i).session.pending.length flushed := by
  refine ⟨?_, ?_, ?_⟩
  · intro memory queued halike hmemory hsettled hdependent hagreed ms hms run
    have hin : (queued.session.views name).InOrder (queued.session.rules name) :=
      Store.View.inOrder_of_none _ hsettled.order
    have hsync : InSync id o none name queued.session.stores queued :=
      ⟨hsettled.owner, hsettled.dispatch, rfl,
        Session.behind_of_contents hin hsettled.reliable hsettled.pending hsettled.contents⟩
    have htwins : Twins (InSync id o none name queued.session.stores) o (some name)
        (run memory) (run queued) := by
      apply Twins.run _ ⟨halike, hmemory, hsync, hagreed⟩
      exact fun m hm memory queued h => m.twins hsettled.order hdependent (hms m hm) h
    obtain ⟨flushed, hflush, -⟩ := htwins.queues.behind.flush_deletions rfl
    exact ⟨htwins.agreed, flushed, hflush⟩
  · intro memory queued halike hmemory hsettled hdependent hagreed ms run
    have htwins : Twins (TrackedSet.Followed o name queued.session.stores) o (some name)
        (run memory) (run queued) := by
      apply Twins.run _ ⟨halike, hmemory, hsettled.followed, hagreed⟩
      exact fun m _ memory queued h => m.twins hdependent h
    obtain ⟨held, -, hbehind⟩ := htwins.queues.behind
    obtain ⟨flushed, hflush, -⟩ := hbehind.flush_deletions rfl
    exact ⟨htwins.agreed, flushed, hflush⟩
  · intro ι _ _ cmp _ owners start scenes hmatching hentrusted hagreed hrun
    have hconcordant : TrackedQueue.Concordant cmp owners scenes :=
      TrackedQueue.Concordant.run ⟨hmatching, fun i => (hentrusted i).tended, hagreed⟩ hrun
    refine ⟨hconcordant.agreed, fun i hqueues => ?_⟩
    cases hconcordant.tended i with
    | memory inMemory =>
      rw [Tracker.isQueued, inMemory.dispatch] at hqueues
      cases hqueues
    | immediate dispatch =>
      rw [Tracker.isQueued, dispatch] at hqueues
      cases hqueues
    | queued synced =>
      obtain ⟨flushed, hflush, -⟩ := synced.flush
      exact ⟨flushed, hflush⟩

/-- A list gives up one of two copies and then all that is left; a set, whose store is sorted, loses
a member, gains one and is attached; and three queues lose their head, the queued one after a flush.
-/
theorem dispatch_deletions_agree_among_ties :
    let cmp : Comparator Int32 := compareOn fun e => e.toInt / 10
    let o : Owner := {
      id := .ofNat 7
      descriptor := {
        name := "books"
        ordinal := ⟨3⟩
        contents := some (.ofElement {
          typeName := "Book", hasIdentity := true, dependent := true }) } }
    let holding (order : Option (Comparator Int32)) (es : List Int32) : Session Int32 := {
      stores := Table.empty.set "books" (Store.seed { order, dependent := true } o.id es) }
    let list (settings : Settings) : Scene (TrackedList Int32) Int32 :=
      ⟨⟨.unbacked o settings, [1, 2, 1]⟩, holding none [1, 2, 1]⟩
    let changes : List (TrackedList.Mutator Int32) := [.removeAt 0, .removeAll [1, 2]]
    let changed := changes.foldl fun scene m => stateAfter m.run scene
    let set (settings : Settings) : Scene (TrackedSet Int32) Int32 :=
      ⟨⟨.unbacked o settings, .ofList [25, 11]⟩, holding (some cmp) [25, 11]⟩
    let exchanges : List (TrackedSet.Mutator Int32) :=
      [.remove 25, .add 3, .attachCopy (.ofList [11, 4])]
    let exchanged := exchanges.foldl fun scene m => stateAfter m.run scene
    let queue (dispatch : Dispatch) : Scene (TrackedQueue Int32) Int32 := {
      value := {
        tracker := { owner := some o, dispatch, allowNulls := false }
        content := {
          order := cmp
          useCache := true
          lazily := true
          elements := [11, 25, 27]
          loaded := true } }
      session := holding (some cmp) [25, 11, 27] }
    let start : Fin 3 → Scene (TrackedQueue Int32) Int32
      | 0 => queue .memory
      | 1 => queue (.queued (some "books"))
      | 2 => queue (.immediate "books")
    let flushed := Function.update start 1 { start 1 with
      session := stateAfter (Session.flush none) (start 1).session }
    let polled := fun i => stateAfter (QueueRequest.run .poll) (flushed i)
    deletedOnceFlushed (some "books") (changed (list {})) = [2, 1] ∧
      Agreed (some "books") (changed (list {})) (changed (list .queued)) ∧
      deletedOnceFlushed (some "books") (exchanged (set {})) = [25] ∧
      Agreed (some "books") (exchanged (set {})) (exchanged (set .queued)) ∧
      deletedOnceFlushed none (polled 0) = [11] ∧
      ∀ i j, Agreed none (polled i) (polled j) := by
  intro cmp o holding list changes changed set exchanges exchanged queue start flushed polled
  obtain ⟨hlists, hsets, hqueues⟩ := dispatch_deletions_agree (E := Int32) o "books"
  have hlist : Agreed (some "books") (changed (list {})) (changed (list .queued)) := by
    have hplain : ∀ m ∈ changes, ∀ target, m ≠ .attachCopy target := by simp [changes]
    exact (hlists (list {}) (list .queued) ⟨rfl, rfl, rfl⟩ ⟨rfl, rfl, rfl⟩
      ⟨rfl, rfl, rfl, ⟨rfl, rfl⟩, rfl, rfl⟩ rfl (fun _ => .rfl) changes hplain).1
  have hset : Agreed (some "books") (exchanged (set {})) (exchanged (set .queued)) := by
    have hin : ((holding (some cmp) [25, 11]).store "books").view.InOrder ⟨some cmp, true⟩ :=
      Store.inOrder_seed_new cmp true o.id [25, 11]
    have hcontents : (((holding (some cmp) [25, 11]).store "books").contents o.id).Perm
        (ElementSet.ofList [25, 11]).toList := by
      have hheld : ((holding (some cmp) [25, 11]).store "books").contents o.id = [11, 25] := by cbv
      rw [hheld]
      exact .swap 25 11 []
    exact (hsets (set {}) (set .queued) ⟨rfl, rfl, rfl⟩ ⟨rfl, rfl, rfl⟩
      ⟨rfl, rfl, hin, ⟨rfl, rfl⟩, rfl, hcontents⟩ rfl (fun _ => .rfl) exchanges).1
  have hsorted : cmp.Sorted [11, 25, 27] := by
    change List.Pairwise _ _
    decide
  have hserves : (holding (some cmp) [25, 11, 27]).Serves "books" o.id cmp [11, 25, 27] :=
    ⟨rfl, ⟨rfl, rfl⟩, by cbv⟩
  have hfull (dispatch : Dispatch) (hwhole : (queue dispatch).value.isAuthoritative = true)
      (hname : ∀ name, dispatch = .immediate name → name = "books") :
      TrackedQueue.Full cmp o (queue dispatch) := by
    refine ⟨rfl, rfl, hsorted, hwhole, ?_⟩
    intro name hdispatch
    rw [hname name hdispatch]
    exact hserves
  have hmatching : TrackedQueue.Matching cmp (fun _ => o) start := by
    refine ⟨?_, fun _ _ => rfl, fun _ _ => rfl, ?_, ?_, ?_⟩
    · intro i
      fin_cases i
      · exact hfull .memory rfl (by simp)
      · exact hfull (.queued (some "books")) rfl (by simp)
      · exact hfull (.immediate "books") rfl fun name h => (Dispatch.immediate.inj h).symm
    all_goals
      intro i j
      fin_cases i <;> fin_cases j <;> rfl
  have hentrusted (i : Fin 3) : TrackedQueue.Entrusted cmp o (start i) := by
    have hin := Store.inOrder_seed_new cmp true o.id [25, 11, 27]
    fin_cases i
    · exact .memory ⟨rfl, rfl, rfl⟩
    · exact .queued ⟨rfl, rfl, rfl, rfl, rfl, hin, ⟨rfl, rfl⟩, rfl, fun _ => hserves.contents⟩ rfl
    · exact .immediate rfl rfl
  have hagreed (i j : Fin 3) : Agreed none (start i) (start j) := by
    have hnone (i : Fin 3) : deletedOnceFlushed none (start i) = [] := by
      fin_cases i <;> rfl
    intro e
    rw [hnone i, hnone j]
  have hrun : Relation.ReflTransGen TrackedQueue.MatchStep start polled :=
    (Relation.ReflTransGen.refl.tail (.flush 1 rfl none)).tail (.request .poll fun _ => trivial)
  have hqueue := (hqueues (Fin 3) cmp (fun _ => o) start polled hmatching hentrusted hagreed hrun).1
  exact ⟨by cbv, hlist, by decide +kernel, hset, by cbv, hqueue⟩

/-- A store with an order of its own decides differently. A queue takes its head, but its store,
which keeps the order of arrival, takes another element; the store call does so as well as the
replay. A list takes the element at a position, but its store, which is sorted, has another one
there. -/
theorem dispatch_deletions_differ_by_order :
    let cmp : Comparator Int32 := compareOn fun e => e.toInt
    let o : Owner := {
      id := .ofNat 7
      descriptor := {
        name := "books"
        ordinal := ⟨3⟩
        contents := some (.ofElement {
          typeName := "Book", hasIdentity := true, dependent := true }) } }
    let holding (order : Option (Comparator Int32)) (es : List Int32) : Session Int32 := {
      stores := Table.empty.set "books" (Store.seed { order, dependent := true } o.id es) }
    let queue (dispatch : Dispatch) : Scene (TrackedQueue Int32) Int32 := {
      value := {
        tracker := { owner := some o, dispatch, allowNulls := false }
        content := {
          order := cmp
          useCache := true
          lazily := true
          elements := [2, 3]
          loaded := true } }
      session := holding none [2, 3] }
    let polled (dispatch : Dispatch) : List Int32 := deletedOnceFlushed none
      (stateAfter (QueueRequest.run (E := Int32) .poll)
        (stateAfter (QueueRequest.run (.add 1)) (queue dispatch)))
    let list (settings : Settings) : Scene (TrackedList Int32) Int32 :=
      ⟨⟨.unbacked o settings, [1, 2]⟩, holding (some cmp) [1, 2]⟩
    let shortened (settings : Settings) : List Int32 := deletedOnceFlushed (some "books")
      (stateAfter (TrackedList.Mutator.run (.removeAt 2))
        (stateAfter (TrackedList.Mutator.run (.add 0)) (list settings)))
    ((holding none [2, 3]).store "books").Reliable ∧
      ((holding none [2, 3]).store "books").contents o.id = [2, 3] ∧
      polled .memory = [1] ∧ polled (.queued (some "books")) = [2] ∧
      polled (.immediate "books") = [2] ∧
      ((holding (some cmp) [1, 2]).store "books").Reliable ∧
      ((holding (some cmp) [1, 2]).store "books").contents o.id = [1, 2] ∧
      shortened {} = [0] ∧ shortened .queued = [2] := by
  refine ⟨⟨rfl, rfl⟩, rfl, ?_, ?_, ?_, ⟨rfl, rfl⟩, ?_, ?_, ?_⟩
  all_goals cbv

end TrackedFields
