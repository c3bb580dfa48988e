import TrackedFields.Proofs.TrackedList.Attach
import TrackedFields.Proofs.TrackedList.Trim

/-!
# What attaching deletes

Attaching never deletes a record by itself, whatever the container and its dispatch. What sets and
queues leave in the queue deletes nothing either, when it is replayed. What a list leaves in the
queue does: the records of the members whose first occurrences were surplus are deleted by the store
when the removals by position are replayed.
-/

namespace TrackedFields

open Store (Rules View)

variable {E : Type} [DecidableEq E]

namespace Session

/-- No record is deleted between two moments, nor when what joined the queue in between is replayed
later, whatever the stores and however the replay ends. -/
structure NeverDeletes (before after : Session E) : Prop where
  spares : before.Spares after
  replay : ∃ operations, after.pending = before.pending ++ operations ∧
    ∀ (default : Option StoreName) (later : Session E),
      later.Spares (stateAfter (replayAll default operations) later)

/-- Harmless requests never delete a record. -/
theorem Harmless.neverDeletes {before after : Session E} (h : before.Harmless after) :
    before.NeverDeletes after := by
  obtain ⟨operations, hpending, hgentle⟩ := h.pending
  refine ⟨h.spares, operations, hpending, fun default later => ?_⟩
  exact keeps_replayAll default hgentle later (.refl later)

end Session

namespace TrackedList

variable {before : Session E}

/-- A rearrangement is harmless. -/
theorem harmless_reorder (arrange : List E → List E) :
    Keeps (Tracked.Harmless before) (reorder arrange) := by
  apply Tracked.harmless_mutate
  intro tracker es answer next report hplan
  obtain ⟨-, rfl⟩ := made_of_reorder hplan
  refine ⟨rfl, ?_⟩
  intro kind hmem
  obtain ⟨move, -, rfl⟩ := List.mem_map.mp hmem
  exact rfl

/-- A rearrangement disturbs neither stores nor records. -/
theorem undisturbed_reorder (arrange : List E → List E) :
    Keeps (Tracked.Undisturbed before) (reorder arrange) := by
  apply Tracked.undisturbed_mutate
  intro tracker es answer next report hplan
  obtain ⟨-, rfl⟩ := made_of_reorder hplan
  rfl

/-- Removing by position without cascading disturbs neither stores nor records. -/
theorem undisturbed_removeAtWith (index : Nat) :
    Keeps (Tracked.Undisturbed before) (removeAtWith (E := E) index false) := by
  apply Tracked.undisturbed_mutate
  intro tracker es answer next report hplan
  obtain ⟨-, -, rfl⟩ := made_of_removeAt hplan
  rfl

variable [Element E]

/-- Inserting is harmless. -/
theorem harmless_insert (index : Nat) (e : E) :
    Keeps (Tracked.Harmless before) (insert index e) := by
  apply Tracked.harmless_mutate
  intro tracker es answer next report hplan
  obtain ⟨-, -, rfl, rfl⟩ := made_of_insert hplan
  refine ⟨rfl, ?_⟩
  intro kind hmem
  obtain rfl := List.mem_singleton.mp hmem
  exact trivial

/-- Inserting disturbs neither stores nor records. -/
theorem undisturbed_insert (index : Nat) (e : E) :
    Keeps (Tracked.Undisturbed before) (insert index e) := by
  apply Tracked.undisturbed_mutate
  intro tracker es answer next report hplan
  obtain ⟨-, -, rfl, rfl⟩ := made_of_insert hplan
  rfl

/-- Attaching a list disturbs neither stores nor records. -/
theorem undisturbed_attachCopy (target : List E) :
    Keeps (Tracked.Undisturbed before) (attachCopy target) :=
  attachCopy_keeps (Tracked.undisturbed_attach target) undisturbed_removeAtWith undisturbed_insert
    fun arrange _ => undisturbed_reorder arrange

/-- What attaching a list queues: removals by position, of which the effect is known, and then
gentle operations. -/
theorem pending_attachCopy (target : List E) (scene : Scene (TrackedList E) E) :
    ∃ kinds operations,
      (stateAfter (attachCopy target) scene).session.pending =
        scene.session.pending ++ scene.value.tracker.queued kinds ++ operations ∧
      (∀ operation ∈ operations, operation.kind.Gentle) ∧
      ∀ (rules : Rules E) (owner : ObjectId) (v : View E), rules.Fits scene.value.content →
        rules.dependent = true → v.contents owner = scene.value.content →
        ∃ w lost, kinds.foldlM (fun v kind => kind.effect rules owner v) v = some w ∧
          w.deleted = v.deleted ++ lost ∧
          ∀ x, x ∈ lost ↔ Doomed target scene.value.content x := by
  let attached : Scene (TrackedList E) E :=
    { scene with session := scene.value.tracker.attach target scene.session }
  let trimmed := stateAfter (trim target scene.value.content.length) attached
  have hroom : Room target scene.value.content [] := fun _ => Nat.zero_le _
  obtain ⟨kinds, hqueued, heffect⟩ := trim_front target scene.value.content [] attached
    (List.append_nil scene.value.content).symm hroom
  have htail : Keeps (Tracked.Harmless trimmed.session)
      (fill target 0 target >>= fun _ => reorder fun es => overlay es target) :=
    (fill_keeps harmless_insert target 0 target).bind fun _ => harmless_reorder _
  have hharmless : trimmed.session.Harmless (stateAfter (attachCopy target) scene).session := by
    have hpasses : stateAfter (attachCopy target) scene =
        stateAfter (trim target scene.value.content.length >>= fun _ =>
          fill target 0 target >>= fun _ => reorder fun es => overlay es target) attached := rfl
    rw [hpasses, stateAfter_bind]
    cases htrim : trim target scene.value.content.length attached with
    | ok answer after =>
      have hafter : trimmed = after := stateAfter_of_ok htrim
      rw [hafter] at htail ⊢
      exact htail after (.refl after.session)
    | error e after =>
      have hafter : trimmed = after := stateAfter_of_error htrim
      rw [hafter]
      exact .refl after.session
  obtain ⟨operations, hpending, hgentle⟩ := hharmless.pending
  refine ⟨kinds, operations, ?_, hgentle, ?_⟩
  · rw [hpending, hqueued.pending]
    congr 2
    exact scene.value.tracker.pending_attach scene.session target
  · rw [List.append_nil] at heffect
    exact heffect

/-- A list of a field that queues its changes for a reliable store of dependent elements which
holds what the list holds, while nothing waits; a flush with the given default reaches the
store. -/
structure Held (o : Owner) (store : Option StoreName) (default : Option StoreName)
    (name : StoreName) (scene : Scene (TrackedList E) E) : Prop where
  owner : scene.value.tracker.owner = some o
  dispatch : scene.value.tracker.dispatch = .queued store
  target : store.or default = some name
  pending : scene.session.pending = []
  inOrder : (scene.session.views name).InOrder (scene.session.rules name)
  reliable : (scene.session.store name).Reliable
  dependent : (scene.session.store name).dependent = true
  contents : (scene.session.store name).contents o.id = scene.value.content

/-- What the flush after attaching a list deletes: exactly the members whose first occurrences are
surplus. -/
theorem flush_after_attachCopy {o : Owner} {store default : Option StoreName} {name : StoreName}
    {scene : Scene (TrackedList E) E} (h : Held o store default name scene) (target : List E) :
    ∃ lost,
      ((stateAfter (Session.flush default)
          (stateAfter (attachCopy target) scene).session).store name).deleted =
        (scene.session.store name).deleted ++ lost ∧
      ∀ e, e ∈ lost ↔ Doomed target scene.value.content e := by
  obtain ⟨kinds, operations, hpending, hgentle, heffect⟩ := pending_attachCopy target scene
  have hundisturbed : Tracked.Undisturbed scene.session (stateAfter (attachCopy target) scene) :=
    undisturbed_attachCopy target scene ⟨rfl, rfl⟩
  have hstores := hundisturbed.1
  generalize (stateAfter (attachCopy target) scene).session = s at hpending hstores
  have hstore : s.store name = scene.session.store name :=
    Session.store_of_stores_eq hstores name
  have hviews : s.views name = scene.session.views name := congrArg Store.view hstore
  have hrules : s.rules name = scene.session.rules name := congrArg Store.rules hstore
  have hqueued := Tracker.queued_eq_map h.owner h.dispatch kinds
  have hfits : (scene.session.rules name).Fits scene.value.content := by
    rw [← h.contents]
    exact h.inOrder.fits o.id
  obtain ⟨w, lost, hw, hlost, hiff⟩ := heffect (scene.session.rules name) o.id
    (scene.session.views name) hfits h.dependent h.contents
  rw [h.pending, List.nil_append] at hpending
  have htargets : ∀ operation ∈ scene.value.tracker.queued kinds,
      operation.store.or default = some name := by
    intro operation hmem
    rw [hqueued] at hmem
    obtain ⟨kind, -, rfl⟩ := List.mem_map.mp hmem
    exact h.target
  have hremovals : (scene.value.tracker.queued kinds).foldlM
      (fun v operation => operation.kind.effect (s.rules name) operation.owner v)
      (s.views name) = some w := by
    rw [hqueued, List.foldlM_map, hrules, hviews]
    exact hw
  -- The removals are carried out; what is replayed after them deletes nothing.
  obtain ⟨mid, hrun, -, hmid, -⟩ := Session.replayAll_append _ operations s
    (by rw [hviews, hrules]; exact h.inOrder) (by rw [hstore]; exact h.reliable) hpending htargets
    hremovals
  have hflush : stateAfter (Session.flush default) s =
      stateAfter (Session.replayAll default operations >>= fun n =>
        pure (n + (scene.value.tracker.queued kinds).length)) mid := by
    unfold stateAfter
    rw [← hrun, ← hpending]
    rfl
  have hspares : mid.Spares (stateAfter (Session.flush default) s) := by
    rw [hflush]
    exact ((Session.keeps_replayAll default hgentle).bind fun _ => Keeps.pure _) mid (.refl mid)
  refine ⟨lost, ?_, hiff⟩
  calc
    ((stateAfter (Session.flush default) s).store name).deleted = (mid.views name).deleted :=
      hspares.deleted name
    _ = w.deleted := by rw [hmid, Function.update_self]
    _ = (scene.session.store name).deleted ++ lost := hlost

/-- A list that does not queue its changes never deletes a record by attaching. -/
theorem neverDeletes_of_not_isQueued {scene : Scene (TrackedList E) E}
    (h : scene.value.tracker.isQueued = false) (target : List E) :
    scene.session.NeverDeletes (stateAfter (attachCopy target) scene).session := by
  have hundisturbed : Tracked.Undisturbed scene.session (stateAfter (attachCopy target) scene) :=
    undisturbed_attachCopy target scene ⟨rfl, rfl⟩
  have hidle : Tracked.Idle scene.session (stateAfter (attachCopy target) scene) :=
    attachCopy_keeps (Tracked.idle_attach target) (fun _ => Tracked.idle_mutate _)
      (fun _ _ => Tracked.idle_mutate _) (fun _ _ => Tracked.idle_mutate _) scene ⟨h, rfl⟩
  refine ⟨(Session.Spares.refl _).of_stores_eq hundisturbed.2 hundisturbed.1, [], ?_, ?_⟩
  · rw [List.append_nil]
    exact hidle.2
  · intro default later
    exact .refl later

end TrackedList

/-- What attaching deletes. Sets and queues never delete a record, neither by the call nor by the
later replay of what the call queued. A list never deletes one by the call. Where it does not queue
its changes, that is all; where it does, the flush that follows deletes exactly the members whose
first occurrences are surplus. So it deletes nothing exactly if the target has room for the first
occurrence of every member. -/
theorem attachCopy_deletions [Element E] (c : Scene (TrackedSet E) E) (ms : ElementSet E)
    (q : Scene (TrackedQueue E) E) (qs : List E) (l : Scene (TrackedList E) E) (es : List E) :
    c.session.NeverDeletes (stateAfter (TrackedSet.attachCopy ms) c).session ∧
    q.session.NeverDeletes (stateAfter (TrackedQueue.attachCopy qs) q).session ∧
    l.session.Spares (stateAfter (TrackedList.attachCopy es) l).session ∧
    (l.value.tracker.isQueued = false →
      l.session.NeverDeletes (stateAfter (TrackedList.attachCopy es) l).session) ∧
    ∀ o store default name, TrackedList.Held o store default name l →
      ∃ lost,
        ((stateAfter (Session.flush default)
            (stateAfter (TrackedList.attachCopy es) l).session).store name).deleted =
          (l.session.store name).deleted ++ lost ∧
        (∀ e, e ∈ lost ↔ TrackedList.Doomed es l.value.content e) ∧
        (lost = [] ↔ ∀ e ∈ l.value.content,
          TrackedList.countSame (l.value.content.take (l.value.content.idxOf e)) e <
            TrackedList.countSame es e) := by
  have hset : c.session.Harmless (stateAfter (TrackedSet.attachCopy ms) c).session :=
    TrackedSet.harmless_attachCopy ms c (.refl c.session)
  have hqueue : q.session.Harmless (stateAfter (TrackedQueue.attachCopy qs) q).session :=
    TrackedQueue.harmless_attachCopy qs q (.refl q.session)
  have hlist : Tracked.Undisturbed l.session (stateAfter (TrackedList.attachCopy es) l) :=
    TrackedList.undisturbed_attachCopy es l ⟨rfl, rfl⟩
  refine ⟨hset.neverDeletes, hqueue.neverDeletes,
    (Session.Spares.refl l.session).of_stores_eq hlist.2 hlist.1,
    fun h => TrackedList.neverDeletes_of_not_isQueued h es, ?_⟩
  intro o store default name hheld
  obtain ⟨lost, hdeleted, hlost⟩ := TrackedList.flush_after_attachCopy hheld es
  refine ⟨lost, hdeleted, hlost, ?_⟩
  rw [List.eq_nil_iff_forall_not_mem]
  constructor
  · intro hnone e hmem
    by_contra hfull
    exact hnone e ((hlost e).mpr ⟨hmem, Nat.le_of_not_lt hfull⟩)
  · intro hroom e hmem
    obtain ⟨hmember, hfull⟩ := (hlost e).mp hmem
    exact absurd (hroom e hmember) (Nat.not_lt.mpr hfull)

/-- A list gives up the second of two equal members; the flush deletes nothing. -/
theorem attachCopy_deletions_of_duplicate :
    let o : Owner := {
      id := .ofNat 7
      descriptor := {
        name := "books"
        ordinal := ⟨3⟩
        contents := some (.ofElement {
          typeName := "Book", hasIdentity := true, dependent := true }) } }
    let l : Scene (TrackedList Int32) Int32 := {
      value := { tracker := .unbacked o .queued, content := [1, 2, 1] }
      session := {
        stores := Table.empty.set "books" (Store.seed { dependent := true } o.id [1, 2, 1]) } }
    TrackedList.Held o none (some "books") "books" l ∧
      ((stateAfter (Session.flush (some "books"))
        (stateAfter (TrackedList.attachCopy [2, 1]) l).session).store "books").deleted = [] := by
  intro o l
  have hin : (l.session.views "books").InOrder (l.session.rules "books") :=
    View.inOrder_of_none _ rfl
  have hheld : TrackedList.Held o none (some "books") "books" l :=
    ⟨rfl, rfl, rfl, rfl, hin, ⟨rfl, rfl⟩, rfl, rfl⟩
  have hdeletions := attachCopy_deletions ⟨TrackedSet.unowned, {}⟩ .empty
    ⟨TrackedQueue.unowned fun a b => compare a.toInt b.toInt, {}⟩ [] l [2, 1]
  obtain ⟨lost, hdeleted, -, hnone⟩ := hdeletions.2.2.2.2 o none (some "books") "books" hheld
  have hroom : ∀ e ∈ l.value.content,
      TrackedList.countSame (l.value.content.take (l.value.content.idxOf e)) e <
        TrackedList.countSame [2, 1] e := by
    intro e hmem
    obtain rfl | rfl | rfl : e = 1 ∨ e = 2 ∨ e = 1 := by simpa [l] using hmem
    all_goals decide
  rw [hnone.mpr hroom] at hdeleted
  exact ⟨hheld, hdeleted⟩

/-- Attaching a list and flushing the session can delete a record: a member that the target lacks
leaves the store by position, and the store deletes it. -/
theorem attachCopy_deletes_by_flush :
    let o : Owner := {
      id := .ofNat 7
      descriptor := {
        name := "books"
        ordinal := ⟨3⟩
        contents := some (.ofElement {
          typeName := "Book", hasIdentity := true, dependent := true }) } }
    let l : Scene (TrackedList Int32) Int32 := {
      value := { tracker := .unbacked o .queued, content := [1, 2, 3] }
      session := {
        stores := Table.empty.set "books" (Store.seed { dependent := true } o.id [1, 2, 3]) } }
    let attached := (stateAfter (TrackedList.attachCopy [1, 3]) l).session
    (l.session.store "books").contents o.id = l.value.content ∧
      (attached.store "books").deleted = [] ∧
      ((stateAfter (Session.flush (some "books")) attached).store "books").deleted = [2] := by
  decide

end TrackedFields
