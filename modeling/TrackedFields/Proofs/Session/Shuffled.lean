import Mathlib
import TrackedFields.Proofs.Session.Replay

/-!
# Shuffled operations

Two queues with the same operations, in different orders. Operations of one owner do not commute:
positions count in the container as it is. Operations of different owners do, up to the order in
which dependent elements are deleted, since each one reads and writes one container only. So a
queue may be shuffled as long as every owner finds its own operations in its own order: the flush
passes as before, and the store shows the same containers and the same deletions.
-/

namespace TrackedFields

open Store (Rules View)

/-- Views that differ at most in the order of the deletions. -/
structure Store.View.Alike {E : Type} (v w : View E) : Prop where
  contents : v.contents = w.contents
  deleted : v.deleted.Perm w.deleted

namespace Store.View.Alike

variable {E : Type} {u v w : View E}

/-- A view is like itself. -/
theorem refl (v : View E) : v.Alike v := ⟨rfl, .refl _⟩

/-- Likeness carries on. -/
theorem trans (h : u.Alike v) (h' : v.Alike w) : u.Alike w :=
  ⟨h.contents.trans h'.contents, h.deleted.trans h'.deleted⟩

end Store.View.Alike

/-! ### Effects of different owners -/

/-- A view once the container of an owner was replaced by other elements, arranged, and some of
those that left it were deleted. -/
def Store.View.written {E : Type} [DecidableEq E] (v : View E) (rules : Rules E)
    (owner : ObjectId) (es gone : List E) : View E where
  contents other := if other = owner then rules.arrange es else v.contents other
  deleted := v.deleted ++
    if rules.dependent then gone.filter fun e => !(rules.arrange es).contains e else []

/-- A write to one container leaves the others alone. -/
theorem Store.View.contents_written_of_ne {E : Type} [DecidableEq E] (v : View E)
    (rules : Rules E) {owner other : ObjectId} (h : other ≠ owner) (es gone : List E) :
    (v.written rules owner es gone).contents other = v.contents other := if_neg h

namespace OperationKind

variable {E : Type} [DecidableEq E] {rules : Rules E} {v w after mid : View E}

/-- What it takes for an operation to have an effect, and what the effect is. -/
theorem effect_eq_some_iff {kind : OperationKind E} {owner : ObjectId} :
    kind.effect rules owner v = some after ↔
      ∃ es gone, kind.change (v.contents owner) = some (es, gone) ∧
        v.written rules owner es gone = after := by
  rw [effect, Option.map_eq_some_iff, Prod.exists]
  rfl

/-- An operation has like effects on like views. -/
theorem effect_alike {kind : OperationKind E} {owner : ObjectId} (h : v.Alike w)
    (heffect : kind.effect rules owner v = some after) :
    ∃ after', kind.effect rules owner w = some after' ∧ after.Alike after' := by
  obtain ⟨es, gone, hchange, rfl⟩ := effect_eq_some_iff.mp heffect
  rw [h.contents] at hchange
  refine ⟨w.written rules owner es gone, effect_eq_some_iff.mpr ⟨es, gone, hchange, rfl⟩, ?_, ?_⟩
  · unfold View.written
    rw [h.contents]
  · exact h.deleted.append_right _

/-- Operations of different owners commute, up to the order of the deletions. -/
theorem effect_swap {kind kind' : OperationKind E} {owner owner' : ObjectId}
    (howner : owner ≠ owner') (hfirst : kind.effect rules owner v = some mid)
    (hsecond : kind'.effect rules owner' mid = some after) :
    ∃ mid' after', kind'.effect rules owner' v = some mid' ∧
      kind.effect rules owner mid' = some after' ∧ after.Alike after' := by
  obtain ⟨es, gone, hchange, rfl⟩ := effect_eq_some_iff.mp hfirst
  obtain ⟨es', gone', hchange', rfl⟩ := effect_eq_some_iff.mp hsecond
  -- Neither operation finds a trace of the other one in its own container.
  rw [View.contents_written_of_ne _ _ howner.symm] at hchange'
  rw [← View.contents_written_of_ne v rules howner es' gone'] at hchange
  refine ⟨_, _, effect_eq_some_iff.mpr ⟨es', gone', hchange', rfl⟩,
    effect_eq_some_iff.mpr ⟨es, gone, hchange, rfl⟩, ?_, ?_⟩
  · funext other
    unfold View.written
    by_cases hother : other = owner
    · simp [hother, howner]
    · simp [hother]
  · unfold View.written
    simp only [List.append_assoc]
    exact List.perm_append_comm.append_left _

end OperationKind

namespace Operation

variable {E : Type} [DecidableEq E] {rules : Rules E} {v w after : View E}

/-- What operations make of the view of one store, one after the other. -/
def effectAll (rules : Rules E) (v : View E) (operations : List (Operation E)) :
    Option (View E) :=
  operations.foldlM (fun v operation => operation.kind.effect rules operation.owner v) v

/-- The first operation has its effect, then the others have theirs. -/
theorem effectAll_cons (rules : Rules E) (v : View E) (operation : Operation E)
    (operations : List (Operation E)) :
    effectAll rules v (operation :: operations) =
      (operation.kind.effect rules operation.owner v).bind fun mid =>
        effectAll rules mid operations :=
  List.foldlM_cons

/-- Operations have like effects on like views. -/
theorem effectAll_alike {operations : List (Operation E)} (h : v.Alike w)
    (heffect : effectAll rules v operations = some after) :
    ∃ after', effectAll rules w operations = some after' ∧ after.Alike after' := by
  induction operations generalizing v w with
  | nil =>
    cases heffect
    exact ⟨w, rfl, h⟩
  | cons operation operations ih =>
    rw [effectAll_cons] at heffect
    obtain ⟨mid, hmid, hrest⟩ := Option.bind_eq_some_iff.mp heffect
    obtain ⟨mid', hmid', halike⟩ := OperationKind.effect_alike h hmid
    rw [effectAll_cons, hmid']
    exact ih halike hrest

/-- An operation may wait for operations of other owners. -/
theorem effectAll_postpone {operation : Operation E} {before behind : List (Operation E)}
    (howners : ∀ other ∈ before, other.owner ≠ operation.owner)
    (heffect : effectAll rules v (operation :: (before ++ behind)) = some after) :
    ∃ after', effectAll rules v (before ++ operation :: behind) = some after' ∧
      after.Alike after' := by
  induction before generalizing v after with
  | nil => exact ⟨after, heffect, .refl after⟩
  | cons other before ih =>
    have hother : operation.owner ≠ other.owner := (howners other List.mem_cons_self).symm
    rw [effectAll_cons] at heffect
    obtain ⟨mid, hmid, hrest⟩ := Option.bind_eq_some_iff.mp heffect
    rw [List.cons_append, effectAll_cons] at hrest
    obtain ⟨both, hboth, hrest⟩ := Option.bind_eq_some_iff.mp hrest
    obtain ⟨mid', both', hmid', hboth', halike⟩ := OperationKind.effect_swap hother hmid hboth
    obtain ⟨next, hnext, hlike⟩ := effectAll_alike halike hrest
    -- Past the other operation, the operation still waits for the rest of them.
    have hwait : effectAll rules mid' (operation :: (before ++ behind)) = some next := by
      rw [effectAll_cons, hboth']
      exact hnext
    obtain ⟨last, hlast, hlike'⟩ :=
      ih (fun a ha => howners a (List.mem_cons_of_mem _ ha)) hwait
    refine ⟨last, ?_, hlike.trans hlike'⟩
    rw [List.cons_append, effectAll_cons, hmid']
    exact hlast

/-! ### Queues that agree owner by owner -/

/-- Queues in which every owner has the same operations in the same order. -/
def SameByOwner (first second : List (Operation E)) : Prop :=
  ∀ owner, first.filter (fun operation => operation.owner = owner) =
    second.filter (fun operation => operation.owner = owner)

/-- Such queues hold the same operations. -/
theorem SameByOwner.perm {first second : List (Operation E)} (h : SameByOwner first second) :
    first.Perm second := by
  apply List.perm_iff_count.mpr
  intro operation
  have hself : decide (operation.owner = operation.owner) = true := decide_eq_true rfl
  rw [← List.count_filter (p := fun other => other.owner = operation.owner) hself,
    ← List.count_filter (l := second) (p := fun other => other.owner = operation.owner) hself,
    h operation.owner]

omit [DecidableEq E] in
/-- The first operation of one queue stands in the other one behind operations of other owners
only; without it, the queues still agree. -/
theorem SameByOwner.split {operation : Operation E} {first second : List (Operation E)}
    (h : SameByOwner (operation :: first) second) :
    ∃ before behind, second = before ++ operation :: behind ∧
      (∀ other ∈ before, other.owner ≠ operation.owner) ∧ SameByOwner first (before ++ behind) := by
  have hown := h operation.owner
  rw [List.filter_cons_of_pos (by simp)] at hown
  obtain ⟨before, behind, rfl, hbefore, -, -⟩ := List.filter_eq_cons_iff.mp hown.symm
  refine ⟨before, behind, rfl, fun other hother => by simpa using hbefore other hother, ?_⟩
  intro owner
  have howner := h owner
  rw [List.filter_append] at howner ⊢
  by_cases heq : operation.owner = owner
  · -- No operation of this owner stands before the first one.
    have hnone : before.filter (fun other => other.owner = owner) = [] := by
      apply List.filter_eq_nil_iff.mpr
      intro other hother
      rw [← heq]
      exact hbefore other hother
    rw [List.filter_cons_of_pos (by simpa using heq), List.filter_cons_of_pos (by simpa using heq),
      hnone] at howner
    rw [hnone]
    exact (List.cons.inj howner).2
  · rw [List.filter_cons_of_neg (by simpa using heq), List.filter_cons_of_neg (by simpa using heq)]
      at howner
    exact howner

/-- Queues that agree owner by owner have like effects. -/
theorem effectAll_sameByOwner {first second : List (Operation E)} (h : SameByOwner first second)
    (heffect : effectAll rules v first = some after) :
    ∃ after', effectAll rules v second = some after' ∧ after.Alike after' := by
  induction first generalizing v second with
  | nil =>
    obtain rfl := List.nil_perm.mp h.perm
    exact ⟨after, heffect, .refl after⟩
  | cons operation first ih =>
    obtain ⟨before, behind, rfl, howners, hrest⟩ := h.split
    rw [effectAll_cons] at heffect
    obtain ⟨mid, hmid, heffect⟩ := Option.bind_eq_some_iff.mp heffect
    obtain ⟨next, hnext, halike⟩ := ih hrest heffect
    have hahead : effectAll rules v (operation :: (before ++ behind)) = some next := by
      rw [effectAll_cons, hmid]
      exact hnext
    obtain ⟨last, hlast, hlike⟩ := effectAll_postpone howners hahead
    exact ⟨last, hlast, halike.trans hlike⟩

end Operation

/-! ### Flushes -/

namespace Session

variable {E : Type} [DecidableEq E] {default : Option StoreName} {name : StoreName}

/-- Replaying an operation on a reliable store has its effect there, or fails. -/
theorem replay_passing {operation : Operation E} {s : Session E}
    (hreliable : (s.store name).Reliable) (hstore : operation.store.or default = some name) :
    (∃ after, replay default operation s = .ok () after ∧ (after.store name).Reliable ∧
      after.rules name = s.rules name ∧
      operation.kind.effect (s.rules name) operation.owner (s.views name) =
        some (after.views name)) ∨
    (∃ e after, replay default operation s = .error e after ∧
      operation.kind.effect (s.rules name) operation.owner (s.views name) = none) := by
  have hnow : (s.store name).writes.now = false := by rw [hreliable.writes, Outage.now_never]
  rcases operation.kind.perform_passing operation.owner hnow with
    ⟨store, hperform, hcontinues, heffect⟩ | ⟨e, store, hperform, hnone⟩
  · left
    have hself : (s.afterCalls name store).store name = store := by
      rw [store_afterCalls, if_pos rfl]
    refine ⟨s.afterCalls name store, ?_, ?_, ?_, ?_⟩
    · rw [replay, hstore]
      change EStateM.adaptExcept _ (access name _) s = _
      rw [EStateM.adaptExcept, access_ok hperform]
    · rw [hself]
      exact hcontinues.reliable hreliable
    · rw [rules, hself]
      exact hcontinues.rules
    · change _ = some ((s.afterCalls name store).store name).view
      rw [hself]
      exact heffect
  · right
    refine ⟨.failed operation.kind.name operation.field e, s.afterCalls name store, ?_, hnone⟩
    rw [replay, hstore]
    change EStateM.adaptExcept _ (access name _) s = _
    rw [EStateM.adaptExcept, access_error hperform]

/-- Replaying operations on a reliable store has their effects there, one after the other, or
fails. -/
theorem replayAll_passing {operations : List (Operation E)} {s : Session E}
    (hreliable : (s.store name).Reliable)
    (hstore : ∀ operation ∈ operations, operation.store.or default = some name) :
    (∃ after, replayAll default operations s = .ok operations.length after ∧
      Operation.effectAll (s.rules name) (s.views name) operations = some (after.views name)) ∨
    (∃ e after, replayAll default operations s = .error e after ∧
      Operation.effectAll (s.rules name) (s.views name) operations = none) := by
  induction operations generalizing s with
  | nil => exact .inl ⟨s, rfl, rfl⟩
  | cons operation rest ih =>
    rw [Operation.effectAll_cons]
    rcases replay_passing hreliable (hstore operation List.mem_cons_self) with
      ⟨mid, hreplay, hmid, hrules, heffect⟩ | ⟨e, mid, hreplay, hnone⟩
    · rw [replayAll_cons hreplay, heffect, bind_apply]
      have hrest : ∀ other ∈ rest, other.store.or default = some name :=
        fun other hother => hstore other (List.mem_cons_of_mem _ hother)
      rcases ih (s := { mid with pending := rest }) hmid hrest with
        ⟨after, hrun, hviews⟩ | ⟨e, after, hrun, hnone⟩
      · rw [hrun]
        exact .inl ⟨after, rfl, hrules ▸ hviews⟩
      · rw [hrun]
        exact .inr ⟨e, after, rfl, hrules ▸ hnone⟩
    · right
      refine ⟨e, mid, ?_, ?_⟩
      · rw [replayAll, bind_apply, hreplay]
      · rw [hnone]
        rfl

/-- Replay order matters within one owner only. A queue is flushed to a reliable store; then every
queue in which each owner finds the same operations in the same order can be flushed to that store
as well, and leaves every container as the first one did. The deletions are the same ones, up to
their order. -/
theorem flush_shuffled {s : Session E} {first second : List (Operation E)}
    (hreliable : (s.store name).Reliable)
    (hstore : ∀ operation ∈ first, operation.store.or default = some name)
    (hsame : Operation.SameByOwner first second) {n : Nat} {after : Session E}
    (h : flush default { s with pending := first } = .ok n after) :
    ∃ after', flush default { s with pending := second } = .ok n after' ∧
      (∀ owner, (after'.store name).contents owner = (after.store name).contents owner) ∧
      (after'.store name).deleted.Perm (after.store name).deleted := by
  have hperm := hsame.perm
  have hstore' : ∀ operation ∈ second, operation.store.or default = some name :=
    fun operation hmem => hstore operation (hperm.mem_iff.mpr hmem)
  rcases replayAll_passing (s := { s with pending := first }) hreliable hstore with
    ⟨after₁, hrun, heffect⟩ | ⟨e, after₁, hrun, -⟩
  · obtain ⟨rfl, rfl⟩ : first.length = n ∧ after₁ = after := by
      have hboth := hrun.symm.trans h
      cases hboth
      exact ⟨rfl, rfl⟩
    obtain ⟨v, hv, halike⟩ := Operation.effectAll_sameByOwner hsame heffect
    rcases replayAll_passing (s := { s with pending := second }) hreliable hstore' with
      ⟨after₂, hrun', heffect'⟩ | ⟨e, after₂, -, hnone⟩
    · obtain rfl : v = after₂.views name := Option.some.inj (hv.symm.trans heffect')
      refine ⟨after₂, ?_, fun owner => ?_, halike.deleted.symm⟩
      · rw [hperm.length_eq]
        exact hrun'
      · exact congrFun halike.contents.symm owner
    · cases hv.symm.trans hnone
  · cases hrun.symm.trans h

/-- A session with a reliable, sorted store of dependent elements for two owners. -/
private def twoOwners : Session Int32 :=
  let st : Store Int32 := { order := some fun a b => compare a.toInt b.toInt, dependent := true }
  Session.putStore {} "main" ((st.seed (.ofNat 1) [3, 1]).seed (.ofNat 2) [5, 4])

/-- An operation that waits for the store of the two owners. -/
private def waiting (owner : Nat) (kind : OperationKind Int32) : Operation Int32 :=
  { owner := .ofNat owner, field := ⟨0⟩, store := some "main", kind }

/-- The owners take turns. -/
private def turns : List (Operation Int32) :=
  [waiting 1 (.listRemoveAt 1), waiting 2 (.listSet 0 9 true), waiting 1 (.listAddAt 1 0),
    waiting 2 (.collectionRemove 5 true), waiting 1 .collectionClear]

/-- The same operations, those of the second owner first. -/
private def blocks : List (Operation Int32) :=
  [waiting 2 (.listSet 0 9 true), waiting 2 (.collectionRemove 5 true),
    waiting 1 (.listRemoveAt 1), waiting 1 (.listAddAt 1 0), waiting 1 .collectionClear]

private theorem sameByOwner_turns_blocks : Operation.SameByOwner turns blocks := by
  intro owner
  by_cases hone : ObjectId.ofNat 1 = owner
  · subst hone
    rfl
  · by_cases htwo : ObjectId.ofNat 2 = owner
    · subst htwo
      rfl
    · simp [turns, blocks, waiting, hone, htwo]

/-- Two owners with operations by position take turns in one queue, and come one after the other in
another one. Each container ends the same; the deletions come in another order. -/
theorem flush_shuffled_two_owners :
    ∃ after after', flush none { twoOwners with pending := turns } = .ok 5 after ∧
      flush none { twoOwners with pending := blocks } = .ok 5 after' ∧
      (after'.store "main").contents (.ofNat 1) = [] ∧
      (after'.store "main").contents (.ofNat 2) = [9] ∧
      (after.store "main").deleted = [3, 4, 5, 0, 1] ∧
      (after'.store "main").deleted = [4, 5, 3, 0, 1] ∧
      (after'.store "main").deleted.Perm (after.store "main").deleted := by
  have hreliable : (twoOwners.store "main").Reliable := ⟨rfl, rfl⟩
  have hstore : ∀ operation ∈ turns, operation.store.or none = some "main" := by decide
  have hpasses : (Operation.effectAll (twoOwners.rules "main") (twoOwners.views "main")
      turns).isSome = true := by cbv
  rcases replayAll_passing (s := { twoOwners with pending := turns }) hreliable hstore with
    ⟨after, hturns, -⟩ | ⟨e, after, -, hnone⟩
  · obtain ⟨after', hblocks, hcontents, hdeleted⟩ :=
      flush_shuffled hreliable hstore sameByOwner_turns_blocks hturns
    obtain rfl : stateAfter (flush none) { twoOwners with pending := turns } = after :=
      stateAfter_of_ok hturns
    obtain rfl : stateAfter (flush none) { twoOwners with pending := blocks } = after' :=
      stateAfter_of_ok hblocks
    exact ⟨_, _, hturns, hblocks, by cbv, by cbv, by cbv, by cbv, hdeleted⟩
  · change Operation.effectAll (twoOwners.rules "main") (twoOwners.views "main") turns = none
      at hnone
    rw [hnone] at hpasses
    cases hpasses

end Session

end TrackedFields
