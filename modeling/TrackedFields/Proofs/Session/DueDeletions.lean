import TrackedFields.Proofs.Session.Behind
import TrackedFields.Proofs.Session.Dedicated
import TrackedFields.Proofs.Store.Losses

/-!
# Deletions that are due

A store that lags behind a container has yet to delete what the waiting operations lose. A change
that is queued makes due what its operations lose on the container in memory; a flush deletes what
was due.
-/

namespace TrackedFields

open Store (Rules View)

namespace OperationKind

variable {E : Type} [DecidableEq E]

/-- The effects of operations of one owner, seen from the shelf of that owner. -/
theorem effects_of_stockAll {rules : Rules E} {owner : ObjectId} {operations : List (Operation E)}
    (howner : ∀ operation ∈ operations, operation.owner = owner) {v : View E} {shelf : Shelf E}
    (h : stockAll rules ⟨v.contents owner, v.deleted⟩ (operations.map Operation.kind) =
      some shelf) :
    ∃ after, operations.foldlM
        (fun v operation => operation.kind.effect rules operation.owner v) v = some after ∧
      after.contents owner = shelf.elements ∧ after.deleted = shelf.deleted := by
  induction operations generalizing v with
  | nil =>
    cases h
    exact ⟨v, rfl, rfl, rfl⟩
  | cons operation rest ih =>
    rw [List.map_cons, stockAll_cons, ← map_effect] at h
    obtain ⟨mid, hmid, hrest⟩ := Option.bind_eq_some_iff.mp h
    obtain ⟨w, hw, rfl⟩ := Option.map_eq_some_iff.mp hmid
    have hfirst : operation.owner = owner := howner operation List.mem_cons_self
    obtain ⟨after, hafter, hshelf⟩ :=
      ih (fun operation hmem => howner operation (List.mem_cons_of_mem _ hmem)) hrest
    refine ⟨after, ?_, hshelf⟩
    rw [List.foldlM_cons, hfirst, hw]
    exact hafter

end OperationKind

namespace Session

variable {E : Type} [DecidableEq E]

/-- The elements that a store will have deleted as soon as what waits is carried out for an owner.
-/
def dueDeletions (s : Session E) (name : StoreName) (owner : ObjectId) : List E :=
  (s.store name).deleted ++ OperationKind.losses (s.rules name) ((s.store name).contents owner)
    (s.pending.map Operation.kind)

variable {s after : Session E} {name : StoreName} {store : Option StoreName} {owner : ObjectId}
  {es : List E}

/-- While nothing waits, no deletion is due. -/
theorem dueDeletions_of_idle (h : s.pending = []) (name : StoreName) (owner : ObjectId) :
    s.dueDeletions name owner = (s.store name).deleted := by
  rw [dueDeletions, h]
  exact List.append_nil _

/-- Operations that join the queue make due what they lose on the container in memory. -/
theorem Behind.dueDeletions_append (h : s.Behind name store owner es)
    {operations : List (Operation E)} (hpending : after.pending = s.pending ++ operations)
    (hstores : after.stores = s.stores) :
    after.dueDeletions name owner = s.dueDeletions name owner ++
      OperationKind.losses (s.rules name) es (operations.map Operation.kind) := by
  have hcaught : OperationKind.carryOutAll (s.rules name) ((s.store name).contents owner)
      (s.pending.map Operation.kind) = some es := h.catches_up
  have hrules : after.rules name = s.rules name := by
    rw [rules, store_of_stores_eq hstores, rules]
  rw [dueDeletions, hrules, store_of_stores_eq hstores, hpending, List.map_append,
    OperationKind.losses_append hcaught, ← List.append_assoc]
  rfl

/-- Gentle operations that join the queue make no deletion due. -/
theorem Behind.dueDeletions_of_gentle (h : s.Behind name store owner es)
    {operations : List (Operation E)} (hpending : after.pending = s.pending ++ operations)
    (hstores : after.stores = s.stores)
    (hgentle : ∀ operation ∈ operations, operation.kind.Gentle) :
    after.dueDeletions name owner = s.dueDeletions name owner := by
  rw [h.dueDeletions_append hpending hstores, OperationKind.losses_of_gentle, List.append_nil]
  intro kind hmem
  obtain ⟨operation, hoperation, rfl⟩ := List.mem_map.mp hmem
  exact hgentle operation hoperation

/-- A flush deletes what was due. -/
theorem Behind.flush_deletions (h : s.Behind name store owner es) {default : Option StoreName}
    (hname : store.or default = some name) :
    ∃ after, Session.flush default s = .ok s.pending.length after ∧ after.pending = [] ∧
      (after.store name).deleted = s.dueDeletions name owner ∧ s.Continues after ∧
      after.Behind name store owner es := by
  obtain ⟨after, hflush, hnil, -, hcontinues, hbehind⟩ := h.flush hname
  have hshelf : OperationKind.stockAll (s.rules name)
      ⟨(s.views name).contents owner, (s.views name).deleted⟩ (s.pending.map Operation.kind) =
        some ⟨es, s.dueDeletions name owner⟩ := by
    rw [OperationKind.stockAll_eq, h.catches_up]
    rfl
  obtain ⟨v, heffect, -, hdeleted⟩ := OperationKind.effects_of_stockAll
    (fun operation hmem => (h.waiting operation hmem).1) hshelf
  have hstore : ∀ operation ∈ s.pending, operation.store.or default = some name := by
    intro operation hmem
    rw [(h.waiting operation hmem).2]
    exact hname
  obtain ⟨after', hflush', -, hviews, -, -⟩ := flush_reliable h.inOrder h.reliable hstore heffect
  obtain rfl : after = after' := by
    rw [hflush] at hflush'
    cases hflush'
    rfl
  refine ⟨after, hflush, hnil, ?_, hcontinues, hbehind⟩
  change (after.views name).deleted = _
  rw [hviews, Function.update_self, hdeleted]

end Session

end TrackedFields
