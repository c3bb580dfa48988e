import TrackedFields.Proofs.Session.Replay
import TrackedFields.Proofs.Store.Shelf

/-!
# Flushing for one owner

A session whose queue holds the operations of one owner for one reliable store. A replay then does
to the shelf of this owner what the operation does, and fails exactly if the container does not have
the position that the operation names. So a flush carries out everything that waits if each
operation finds its position, and otherwise stops at the first one that does not.
-/

namespace TrackedFields

open Store (Rules View)

namespace OperationKind

variable {E : Type} [DecidableEq E]

/-- The effect of an operation, seen from the shelf of its owner. -/
theorem map_effect (rules : Rules E) (owner : ObjectId) (kind : OperationKind E) (v : View E) :
    (kind.effect rules owner v).map (fun w => (⟨w.contents owner, w.deleted⟩ : Shelf E)) =
      stock rules ⟨v.contents owner, v.deleted⟩ kind := by
  unfold effect stock
  cases kind.change (v.contents owner) with
  | none => rfl
  | some result =>
    change some (Shelf.mk (if owner = owner then rules.arrange result.1 else _) _) = _
    rw [if_pos rfl]
    rfl

end OperationKind

namespace Session

variable {E : Type} [DecidableEq E]

/-- A session whose queue holds operations of one owner for one store only. The store is reliable
and keeps its containers by its rules. -/
structure Dedicated (s : Session E) (name : StoreName) (owner : ObjectId) : Prop where
  inOrder : (s.views name).InOrder (s.rules name)
  reliable : (s.store name).Reliable
  waiting : ∀ operation ∈ s.pending, operation.owner = owner ∧ operation.store = some name

variable {s : Session E} {name : StoreName} {owner : ObjectId} {shelf : Shelf E}
  {operation : Operation E} {rest : List (Operation E)}

omit [DecidableEq E] in
/-- A session stays dedicated as long as the stores are left alone and only like operations join the
queue. -/
theorem Dedicated.of_stores_eq {after : Session E} (h : s.Dedicated name owner)
    (hstores : after.stores = s.stores)
    (hwaiting : ∀ operation ∈ after.pending, operation.owner = owner ∧
      operation.store = some name) : after.Dedicated name owner := by
  have hstore : after.store name = s.store name := store_of_stores_eq hstores name
  refine ⟨?_, ?_, hwaiting⟩
  · rw [views, rules, hstore]
    exact h.inOrder
  · rw [hstore]
    exact h.reliable

/-- The session once the first waiting operation was carried out: the shelf is what that operation
makes of it. -/
structure Advanced (s after : Session E) (name : StoreName) (owner : ObjectId)
    (operation : Operation E) (rest : List (Operation E)) : Prop where
  dedicated : { after with pending := rest }.Dedicated name owner
  rules : after.rules name = s.rules name
  stock : OperationKind.stock (s.rules name) ((s.store name).shelf owner) operation.kind =
    some ((after.store name).shelf owner)

/-- How the replay of the first waiting operation ends: it is carried out, or its container does not
have the position that it names. -/
theorem Dedicated.replay_cases (h : s.Dedicated name owner) (default : Option StoreName)
    (hpending : s.pending = operation :: rest) :
    (∃ after, replay default operation s = .ok () after ∧
      Advanced s after name owner operation rest) ∨
    (∃ e after, replay default operation s = .error e after ∧ after.pending = s.pending ∧
      OperationKind.stock (s.rules name) ((s.store name).shelf owner) operation.kind = none) := by
  have hmem : operation ∈ s.pending := by
    rw [hpending]
    exact List.mem_cons_self
  obtain ⟨howner, hstore⟩ := h.waiting operation hmem
  have hname {target : StoreName} (htarget : operation.store.or default = some target) :
      name = target := by
    rw [hstore] at htarget
    exact Option.some.inj htarget
  have hin : ∀ target, operation.store.or default = some target →
      (s.views target).InOrder (s.rules target) := by
    intro target htarget
    rw [← hname htarget]
    exact h.inOrder
  have hstock := OperationKind.map_effect (s.rules name) owner operation.kind (s.views name)
  rcases Session.replay_cases default operation hin with
    ⟨target, after, htarget, hreplay, -, hcontinues, happly⟩ |
    ⟨e, after, hreplay, hkept, -, -, hreason⟩
  · -- Carried out: on the shelf the operation does what it does in the view.
    left
    obtain rfl := hname htarget
    obtain ⟨v, heffect, hviews⟩ := Option.map_eq_some_iff.mp happly
    have hview : after.views name = v := by rw [← hviews, Function.update_self]
    have heffect : operation.kind.effect (s.rules name) owner (s.views name) = some v := by
      rw [← howner]
      exact heffect
    refine ⟨after, hreplay, ⟨?_, (hcontinues name).reliable h.reliable, ?_⟩,
      (hcontinues name).rules, ?_⟩
    · change (after.views name).InOrder (after.rules name)
      rw [hview, hcontinues.rules_eq]
      exact OperationKind.inOrder_effect h.inOrder heffect
    · intro operation hmem
      apply h.waiting
      rw [hpending]
      exact List.mem_cons_of_mem _ hmem
    · rw [heffect, ← hview] at hstock
      exact hstock.symm
  · -- Not carried out: a reliable store rejects nothing, so there was nothing to act on.
    right
    have htarget : operation.store.or default = some name := by rw [hstore]; rfl
    refine ⟨e, after, hreplay, hkept, ?_⟩
    rcases hreason name htarget with hnow | hnone
    · rw [h.reliable.writes, Outage.now_never] at hnow
      cases hnow
    · have heffect : operation.kind.effect (s.rules name) owner (s.views name) = none := by
        rw [← howner]
        exact Option.map_eq_none_iff.mp hnone
      rw [heffect] at hstock
      exact hstock.symm

/-- A flush carries out all waiting operations if each finds the position that it names. -/
theorem Dedicated.flush (h : s.Dedicated name owner) (default : Option StoreName)
    (hstock : OperationKind.stockAll (s.rules name) ((s.store name).shelf owner)
      (s.pending.map Operation.kind) = some shelf) :
    ∃ after, Session.flush default s = .ok s.pending.length after ∧ after.pending = [] ∧
      (after.store name).shelf owner = shelf := by
  change ∃ after, replayAll default s.pending s = _ ∧ _
  induction hpending : s.pending generalizing s with
  | nil =>
    rw [hpending] at hstock
    exact ⟨s, rfl, hpending, Option.some.inj hstock⟩
  | cons operation rest ih =>
    rw [hpending, List.map_cons, OperationKind.stockAll_cons] at hstock
    rcases h.replay_cases default hpending with
      ⟨mid, hreplay, hmid⟩ | ⟨e, after, -, -, hnone⟩
    · rw [hmid.stock, Option.bind_some, ← hmid.rules] at hstock
      obtain ⟨after, hrun, hnil, hshelf⟩ := ih hmid.dedicated hstock rfl
      refine ⟨after, ?_, hnil, hshelf⟩
      rw [replayAll_cons hreplay, bind_apply, hrun]
      rfl
    · rw [hnone] at hstock
      cases hstock

/-- A flush stops before a waiting operation that names a position its container does not have. -/
theorem Dedicated.flush_blocked (h : s.Dedicated name owner) (default : Option StoreName)
    (hstock : OperationKind.stockAll (s.rules name) ((s.store name).shelf owner)
      (s.pending.map Operation.kind) = none) :
    ∃ e after, Session.flush default s = .error e after ∧ after.pending ≠ [] := by
  change ∃ e after, replayAll default s.pending s = _ ∧ _
  induction hpending : s.pending generalizing s with
  | nil =>
    rw [hpending] at hstock
    cases hstock
  | cons operation rest ih =>
    rw [hpending, List.map_cons, OperationKind.stockAll_cons] at hstock
    rcases h.replay_cases default hpending with
      ⟨mid, hreplay, hmid⟩ | ⟨e, after, hreplay, hkept, -⟩
    · rw [hmid.stock, Option.bind_some, ← hmid.rules] at hstock
      obtain ⟨e, after, hrun, hleft⟩ := ih hmid.dedicated hstock rfl
      refine ⟨e, after, ?_, hleft⟩
      rw [replayAll_cons hreplay, bind_apply, hrun]
    · refine ⟨e, after, ?_, ?_⟩
      · rw [replayAll, bind_apply, hreplay]
      · rw [hkept, hpending]
        exact List.cons_ne_nil operation rest

end Session

end TrackedFields
