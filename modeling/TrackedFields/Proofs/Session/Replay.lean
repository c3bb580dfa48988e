import Mathlib.Logic.Function.Basic
import TrackedFields.Proofs.Session.Frame
import TrackedFields.Proofs.Store.View
import TrackedFields.Session.Flush

/-!
# Replaying waiting operations

What the stores of a session show, and what replaying operations makes of it. A flush carries out
a prefix of the waiting operations, each once and in order; the stores then show what these
operations make of what they showed before, and the queue holds the rest. The operation that stops
a flush leaves no trace in what the stores show, whatever stopped it.
-/

namespace TrackedFields

open Store (Rules View)

/-- An operation together with the store that it is carried out on. -/
structure Delivery (E : Type) where
  target : StoreName
  operation : Operation E

namespace Delivery

variable {E : Type} [DecidableEq E]

/-- What a delivery makes of what all stores show; none if the container of the operation has no
such position. -/
def apply (rules : StoreName → Rules E) (views : StoreName → View E) (d : Delivery E) :
    Option (StoreName → View E) :=
  (d.operation.kind.effect (rules d.target) d.operation.owner (views d.target)).map
    (Function.update views d.target)

/-- What deliveries make of what all stores show, one after the other. -/
def applyAll (rules : StoreName → Rules E) (views : StoreName → View E) (ds : List (Delivery E)) :
    Option (StoreName → View E) :=
  ds.foldlM (Delivery.apply rules) views

/-- Deliveries apply one after the other. -/
theorem applyAll_append (rules : StoreName → Rules E) (views : StoreName → View E)
    (ds more : List (Delivery E)) :
    applyAll rules views (ds ++ more) =
      (applyAll rules views ds).bind (applyAll rules · more) :=
  List.foldlM_append

end Delivery

namespace Session

variable {E : Type}

/-- What all stores of a session show. -/
def views (s : Session E) (name : StoreName) : View E := (s.store name).view

/-- How the stores of a session keep their containers. -/
def rules (s : Session E) (name : StoreName) : Rules E := (s.store name).rules

/-- All stores keep their containers by their rules. -/
def InOrder (s : Session E) : Prop := ∀ name, (s.views name).InOrder (s.rules name)

/-- What no replay changes about the stores: their rules, and which of them are reliable. -/
def Continues (s after : Session E) : Prop :=
  ∀ name, (s.store name).Continues (after.store name)

/-- Every session continues itself. -/
theorem Continues.refl (s : Session E) : s.Continues s := fun _ => ⟨rfl, id⟩

/-- Replays one after the other continue a session. -/
theorem Continues.trans {s mid after : Session E} (h : s.Continues mid)
    (h' : mid.Continues after) : s.Continues after := fun name => (h name).trans (h' name)

/-- Rules last. -/
theorem Continues.rules_eq {s after : Session E} (h : s.Continues after) :
    after.rules = s.rules := funext fun name => (h name).rules

/-- A call that continues one store continues the session. -/
theorem continues_afterCalls {s : Session E} {name : StoreName} {store : Store E}
    (h : (s.store name).Continues store) : s.Continues (s.afterCalls name store) := by
  intro other
  rw [store_afterCalls]
  split
  · next hother => rw [hother]; exact h
  · exact ⟨rfl, id⟩

/-- A call shows in the store that is called. -/
theorem views_afterCalls (s : Session E) (name : StoreName) (store : Store E) :
    (s.afterCalls name store).views = Function.update s.views name store.view := by
  funext other
  rw [Function.update_apply, views, store_afterCalls]
  split
  · rfl
  · rfl

variable [DecidableEq E]

/-! ### Single replays -/

/-- A replay ends in one of two ways: the operation reaches a store and has its effect there, or
it fails and no store shows it. It fails only for want of a store, by an outage or at a position
that the container does not have. -/
theorem replay_cases (default : Option StoreName) (operation : Operation E) {s : Session E}
    (hin : ∀ target, operation.store.or default = some target →
      (s.views target).InOrder (s.rules target)) :
    (∃ target after, operation.store.or default = some target ∧
      replay default operation s = .ok () after ∧ after.pending = s.pending ∧
      s.Continues after ∧
      Delivery.apply s.rules s.views ⟨target, operation⟩ = some after.views) ∨
    (∃ e after, replay default operation s = .error e after ∧ after.pending = s.pending ∧
      s.Continues after ∧ after.views = s.views ∧
      ∀ target, operation.store.or default = some target →
        (s.store target).writes.now = true ∨
          Delivery.apply s.rules s.views ⟨target, operation⟩ = none) := by
  cases hstore : operation.store.or default with
  | none =>
    right
    refine ⟨.noStore operation.kind.name operation.owner operation.field, s, ?_, rfl, .refl s, rfl,
      by simp⟩
    rw [replay, hstore]
    rfl
  | some target =>
    rcases operation.kind.perform_cases operation.owner (hin target hstore) with
      ⟨store, hperform, hcontinues, heffect⟩ | ⟨e, store, hperform, hcontinues, hview, hreason⟩
    · left
      refine ⟨target, s.afterCalls target store, rfl, ?_, rfl, continues_afterCalls hcontinues, ?_⟩
      · rw [replay, hstore]
        change EStateM.adaptExcept _ (access target _) s = _
        rw [EStateM.adaptExcept, access_ok hperform]
      · rw [views_afterCalls, Delivery.apply]
        change Option.map _ (operation.kind.effect (s.store target).rules _ (s.store target).view) =
          _
        rw [heffect]
        rfl
    · right
      refine ⟨.failed operation.kind.name operation.field e, s.afterCalls target store, ?_, rfl,
        continues_afterCalls hcontinues, ?_, ?_⟩
      · rw [replay, hstore]
        change EStateM.adaptExcept _ (access target _) s = _
        rw [EStateM.adaptExcept, access_error hperform]
      · rw [views_afterCalls, hview]
        exact Function.update_eq_self target s.views
      · intro other hother
        obtain rfl : target = other := Option.some.inj hother
        refine hreason.imp id fun hnone => ?_
        rw [Delivery.apply]
        exact Option.map_eq_none_iff.mpr hnone

/-- Deliveries keep all containers by the rules. -/
theorem inOrder_of_apply {s after : Session E} {d : Delivery E} (hin : s.InOrder)
    (hcontinues : s.Continues after)
    (h : Delivery.apply s.rules s.views d = some after.views) : after.InOrder := by
  obtain ⟨v, heffect, hviews⟩ := Option.map_eq_some_iff.mp h
  intro name
  rw [hcontinues.rules_eq, ← hviews, Function.update_apply]
  split
  · next hname =>
    rw [hname]
    exact OperationKind.inOrder_effect (hin d.target) heffect
  · exact hin name

/-! ### Flushes that may stop -/

/-- The deliveries that replaying some operations makes before it stops. -/
def deliveries (default : Option StoreName) : List (Operation E) → Session E → List (Delivery E)
  | [], _ => []
  | operation :: rest, s =>
    match operation.store.or default, replay default operation s with
    | some target, .ok () after =>
      ⟨target, operation⟩ :: deliveries default rest { after with pending := rest }
    | _, _ => []

/-- When the first operation was carried out, the replay goes on with the others. -/
theorem replayAll_cons {default : Option StoreName} {operation : Operation E} {s after : Session E}
    (h : replay default operation s = .ok () after) (rest : List (Operation E)) :
    replayAll default (operation :: rest) s =
      (replayAll default rest >>= fun n => pure (n + 1)) { after with pending := rest } := by
  rw [replayAll, bind_apply, h]
  rfl

/-- A delivery goes to the store of its operation, or else to the default one. -/
theorem target_of_mem_deliveries {default : Option StoreName} {operations : List (Operation E)}
    {s : Session E} {d : Delivery E} (h : d ∈ deliveries default operations s) :
    d.operation.store.or default = some d.target := by
  induction operations generalizing s with
  | nil => cases h
  | cons operation rest ih =>
    unfold deliveries at h
    split at h
    · next target after htarget _ =>
      rcases List.mem_cons.mp h with rfl | h
      · exact htarget
      · exact ih h
    · cases h

/-- A session whose first waiting operation failed: it keeps waiting, and no store shows it. It
failed for want of a store, by an outage or at a position that the container does not have. -/
structure Blocked (default : Option StoreName) (s : Session E) (e : ReplayError)
    (after : Session E) : Prop where
  pending : after.pending = s.pending
  continues : s.Continues after
  views : after.views = s.views
  head : ∃ operation rest, s.pending = operation :: rest ∧
    replay default operation s = .error e after ∧
    ∀ target, operation.store.or default = some target →
      (s.store target).writes.now = true ∨
        Delivery.apply s.rules s.views ⟨target, operation⟩ = none

/-- How a replay of waiting operations ends. It carries out a prefix of them; either that is all,
or the next one fails and keeps waiting with those after it. -/
theorem replayAll_cases (default : Option StoreName) (operations : List (Operation E))
    (s : Session E) (hin : s.InOrder) (hpending : s.pending = operations) :
    ∃ mid, s.Continues mid ∧ mid.InOrder ∧
      Delivery.applyAll s.rules s.views (deliveries default operations s) = some mid.views ∧
      operations = (deliveries default operations s).map Delivery.operation ++ mid.pending ∧
      ((mid.pending = [] ∧
          replayAll default operations s = .ok (deliveries default operations s).length mid) ∨
        ∃ e after, replayAll default operations s = .error e after ∧
          Blocked default mid e after) := by
  induction operations generalizing s with
  | nil => exact ⟨s, .refl s, hin, rfl, hpending.symm, .inl ⟨hpending, rfl⟩⟩
  | cons operation rest ih =>
    rcases replay_cases default operation fun target _ => hin target with
      ⟨target, after, hstore, hreplay, -, hcontinues, happly⟩ |
      ⟨e, after, hreplay, hkept, hcontinues, hviews, hreason⟩
    · -- The operation is carried out; the rest is replayed on what it leaves.
      have hdeliveries : deliveries default (operation :: rest) s =
          ⟨target, operation⟩ :: deliveries default rest { after with pending := rest } := by
        rw [deliveries, hstore, hreplay]
      have hcontinues' : s.Continues { after with pending := rest } := hcontinues
      obtain ⟨mid, hmid, hmidIn, hfold, hsplit, hend⟩ :=
        ih { after with pending := rest } (inOrder_of_apply hin hcontinues happly) rfl
      refine ⟨mid, hcontinues'.trans hmid, hmidIn, ?_, ?_, ?_⟩
      · rw [hdeliveries, Delivery.applyAll, List.foldlM_cons, happly, ← hcontinues'.rules_eq]
        exact hfold
      · rw [hdeliveries, List.map_cons, List.cons_append, ← hsplit]
      · rw [replayAll_cons hreplay, bind_apply, hdeliveries]
        rcases hend with ⟨hnil, hok⟩ | ⟨e, last, herror, hblocked⟩
        · left
          refine ⟨hnil, ?_⟩
          rw [hok]
          rfl
        · right
          refine ⟨e, last, ?_, hblocked⟩
          rw [herror]
    · -- The operation fails; nothing has been carried out.
      have hdeliveries : deliveries default (operation :: rest) s = [] := by
        rw [deliveries, hreplay]
        split
        · next h => cases h
        · rfl
      rw [hdeliveries]
      refine ⟨s, .refl s, hin, rfl, hpending.symm, .inr ⟨e, after, ?_, hkept, hcontinues, hviews,
        operation, rest, hpending, hreplay, hreason⟩⟩
      rw [replayAll, bind_apply, hreplay]

/-- How a flush ends. -/
theorem flush_cases (default : Option StoreName) {s : Session E} (hin : s.InOrder) :
    ∃ mid, s.Continues mid ∧ mid.InOrder ∧
      Delivery.applyAll s.rules s.views (deliveries default s.pending s) = some mid.views ∧
      s.pending = (deliveries default s.pending s).map Delivery.operation ++ mid.pending ∧
      ((mid.pending = [] ∧
          flush default s = .ok (deliveries default s.pending s).length mid) ∨
        ∃ e after, flush default s = .error e after ∧ Blocked default mid e after) :=
  replayAll_cases default s.pending s hin rfl

/-- What is left by a flush that ends in one of these ways, stopped or not. -/
theorem left_of_end {default : Option StoreName} {s mid : Session E} {n : Nat}
    (h : (mid.pending = [] ∧ flush default s = .ok n mid) ∨
      ∃ e after, flush default s = .error e after ∧ Blocked default mid e after) :
    (stateAfter (flush default) s).pending = mid.pending ∧
      (stateAfter (flush default) s).views = mid.views ∧
      (stateAfter (flush default) s).rules = mid.rules := by
  rcases h with ⟨-, hok⟩ | ⟨e, after, herror, hblocked⟩
  · rw [stateAfter_of_ok hok]
    exact ⟨rfl, rfl, rfl⟩
  · rw [stateAfter_of_error herror]
    exact ⟨hblocked.pending, hblocked.views, hblocked.continues.rules_eq⟩

/-! ### Flushes against a reliable store -/

/-- An operation that has an effect on a reliable store is carried out there. -/
theorem replay_reliable {default : Option StoreName} {name : StoreName} {operation : Operation E}
    {s : Session E} (hin : (s.views name).InOrder (s.rules name))
    (hreliable : (s.store name).Reliable) (hstore : operation.store.or default = some name)
    {w : View E}
    (heffect : operation.kind.effect (s.rules name) operation.owner (s.views name) = some w) :
    ∃ after, replay default operation s = .ok () after ∧ s.Continues after ∧
      after.views = Function.update s.views name w := by
  have hinTarget : ∀ target, operation.store.or default = some target →
      (s.views target).InOrder (s.rules target) := by
    intro target htarget
    rw [hstore] at htarget
    cases htarget
    exact hin
  have happlies : Delivery.apply s.rules s.views ⟨name, operation⟩ =
      some (Function.update s.views name w) := by
    rw [Delivery.apply, heffect]
    rfl
  rcases replay_cases default operation hinTarget with
    ⟨target, after, htarget, hreplay, -, hcontinues, happly⟩ | ⟨e, after, -, -, -, -, hreason⟩
  · obtain rfl : name = target := Option.some.inj (hstore.symm.trans htarget)
    rw [happlies] at happly
    exact ⟨after, hreplay, hcontinues, (Option.some.inj happly).symm⟩
  · rcases hreason name hstore with hnow | hnone
    · rw [hreliable.writes, Outage.now_never] at hnow
      cases hnow
    · rw [happlies] at hnone
      cases hnone

/-- Operations that have an effect on a reliable store, one after the other, are all carried out,
and the replay goes on with the rest. -/
theorem replayAll_append {default : Option StoreName} {name : StoreName}
    (operations rest : List (Operation E)) (s : Session E)
    (hin : (s.views name).InOrder (s.rules name)) (hreliable : (s.store name).Reliable)
    (hpending : s.pending = operations ++ rest)
    (hstore : ∀ operation ∈ operations, operation.store.or default = some name) {v : View E}
    (heffect : operations.foldlM
      (fun v operation => operation.kind.effect (s.rules name) operation.owner v)
      (s.views name) = some v) :
    ∃ mid, replayAll default (operations ++ rest) s =
        (replayAll default rest >>= fun n => pure (n + operations.length)) mid ∧
      mid.pending = rest ∧ mid.views = Function.update s.views name v ∧ s.Continues mid ∧
      v.InOrder (s.rules name) := by
  induction operations generalizing s with
  | nil =>
    cases heffect
    refine ⟨s, ?_, hpending, (Function.update_eq_self name s.views).symm, .refl s, hin⟩
    rw [List.nil_append, bind_apply]
    cases replayAll default rest s <;> rfl
  | cons operation operations ih =>
    rw [List.foldlM_cons] at heffect
    obtain ⟨w, hw, heffect⟩ := Option.bind_eq_some_iff.mp heffect
    obtain ⟨after, hreplay, hcontinues, hviews⟩ :=
      replay_reliable hin hreliable (hstore operation List.mem_cons_self) hw
    have hview : after.views name = w := by rw [hviews, Function.update_self]
    have hrules : after.rules name = s.rules name := (hcontinues name).rules
    have hinAfter : (after.views name).InOrder (after.rules name) := by
      rw [hview, hrules]
      exact OperationKind.inOrder_effect hin hw
    have heffectAfter : operations.foldlM
        (fun v operation => operation.kind.effect (after.rules name) operation.owner v)
        (after.views name) = some v := by
      rw [hview, hrules]
      exact heffect
    -- The induction hypothesis speaks of the session in which the other operations wait.
    obtain ⟨mid, hrun, hmid, hlast, hcontinues', hsorted⟩ :=
      ih { after with pending := operations ++ rest } hinAfter
        ((hcontinues name).reliable hreliable) rfl
        (fun operation h => hstore operation (List.mem_cons_of_mem _ h)) heffectAfter
    have hstep : s.Continues { after with pending := operations ++ rest } := hcontinues
    refine ⟨mid, ?_, hmid, ?_, hstep.trans hcontinues', hrules ▸ hsorted⟩
    · rw [List.cons_append, replayAll_cons hreplay, bind_apply, hrun, bind_apply, bind_apply]
      cases replayAll default rest mid <;> rfl
    · rw [hlast]
      change Function.update after.views name v = _
      rw [hviews, Function.update_idem]

/-- A flush against a reliable store carries out all waiting operations, if they have an effect
one after the other. -/
theorem flush_reliable {default : Option StoreName} {name : StoreName} {s : Session E}
    (hin : (s.views name).InOrder (s.rules name)) (hreliable : (s.store name).Reliable)
    (hstore : ∀ operation ∈ s.pending, operation.store.or default = some name) {v : View E}
    (heffect : s.pending.foldlM
      (fun v operation => operation.kind.effect (s.rules name) operation.owner v)
      (s.views name) = some v) :
    ∃ after, flush default s = .ok s.pending.length after ∧
      after.pending = [] ∧ after.views = Function.update s.views name v ∧ s.Continues after ∧
      v.InOrder (s.rules name) := by
  obtain ⟨after, hrun, hnil, hviews, hcontinues, hsorted⟩ := replayAll_append s.pending [] s hin
    hreliable (List.append_nil s.pending).symm hstore heffect
  refine ⟨after, ?_, hnil, hviews, hcontinues, hsorted⟩
  rw [List.append_nil, replayAll, pure_bind, Nat.zero_add] at hrun
  exact hrun

end Session

end TrackedFields
