import Mathlib.Data.Set.Defs
import TrackedFields.Proofs.Tracked.Asks
import TrackedFields.Proofs.Tracked.TrackerIndependence

/-!
# Sessions without null elements

Some owners whose containers in the stores hold no null element, and for which no operation with a
null element waits. Requests of fields of these owners that bring in no null element leave it so,
whatever happens to the containers of other owners, and so do flushes, wherever they stop.
-/

namespace TrackedFields

variable {E : Type} [Element E]

/-- An element that is not null. -/
def Element.Present (e : E) : Prop := Element.isNull e = false

/-- The containers of some owners hold no null element. -/
def Store.NullFree (ids : Set ObjectId) (st : Store E) : Prop :=
  ∀ id ∈ ids, ∀ e ∈ st.contents id, Element.Present e

/-- The containers of some owners hold no null element, and none waits to get there. -/
structure Session.NullFree (ids : Set ObjectId) (s : Session E) : Prop where
  pending : ∀ operation ∈ s.pending, operation.owner ∈ ids →
    operation.kind.Bears Element.Present
  stores : ∀ name, (s.store name).NullFree ids

namespace Store

variable {ids : Set ObjectId}

/-- Containers that are the same hold no null element either. -/
theorem NullFree.of_contents_eq {st after : Store E} (h : st.NullFree ids)
    (hcontents : ∀ id, after.contents id = st.contents id) : after.NullFree ids := by
  intro id hid
  rw [hcontents]
  exact h id hid

/-- A read brings nothing in. -/
theorem nullFree_reading {α : Type} (call : StoreCall E) (answer : Store E → α) :
    Keeps (NullFree ids) (reading call answer) := by
  intro st hst
  rw [stateAfter, reading_eq]
  cases st.reads.now <;> exact hst

variable [DecidableEq E]

/-- What is written brings no null element in, unless it goes to an owner that may have some. -/
theorem survivesWrites_nullFree (owner : ObjectId) :
    SurvivesWrites owner (fun e => owner ∈ ids → Element.Present e) (NullFree (E := E) ids) where
  writing call change _ hchange := by
    intro st hst
    cases hwrite : writing call owner change st with
    | error e after =>
      rw [stateAfter_of_error hwrite]
      exact hst.of_contents_eq (contents_of_writing_error hwrite)
    | ok answer after =>
      rw [stateAfter_of_ok hwrite]
      obtain ⟨es, hes, hafter⟩ := contents_of_writing_ok hwrite
      intro id hid e he
      rw [hafter id] at he
      split at he
      · next hsame =>
        subst hsame
        exact hchange _ answer es (fun a ha _ => hst id hid a ha) hes e
          ((st.arrange_perm es).mem_iff.mp he) hid
      · exact hst id hid e he
  deletion cascade removed := by
    intro st hst
    refine hst.of_contents_eq fun id => ?_
    change (if st.dependent && cascade then _ else st : Store E).contents id = _
    split <;> rfl
  update e field := nullFree_reading _ _

/-- A change with present elements brings no null element in. -/
theorem Write.keeps_nullFree {α : Type} {action : ObjectId → StoreAction E α}
    (h : Write Element.Present action) {owner : ObjectId} (howner : owner ∈ ids) :
    Keeps (NullFree ids) (action owner) := by
  have hsurvives : SurvivesWrites owner (fun e => owner ∈ ids → Element.Present e)
      (NullFree (E := E) ids) := survivesWrites_nullFree owner
  simp only [howner, forall_const] at hsurvives
  exact hsurvives.write h

/-- An operation brings no null element in, unless it is for an owner that may have some. -/
theorem keeps_nullFree_perform {kind : OperationKind E} {owner : ObjectId}
    (h : owner ∈ ids → kind.Bears Element.Present) :
    Keeps (NullFree ids) (kind.perform owner) :=
  (survivesWrites_nullFree owner).perform (nullFree_reading _ _) fun e he hid => h hid e he

end Store

namespace Session

variable {ids : Set ObjectId} {s after : Session E}

/-- The queue and the stores decide. -/
theorem NullFree.of_stores_eq (h : s.NullFree ids) (hpending : after.pending = s.pending)
    (hstores : after.stores = s.stores) : after.NullFree ids := by
  refine ⟨hpending ▸ h.pending, fun name => ?_⟩
  rw [store_of_stores_eq hstores]
  exact h.stores name

/-- A store call that brings no null element in. -/
theorem NullFree.afterCalls {α : Type} (h : s.NullFree ids) {action : StoreAction E α}
    (haction : Keeps (Store.NullFree ids) action) (name : StoreName) :
    (s.afterCalls name (stateAfter action (s.store name))).NullFree ids := by
  refine ⟨h.pending, fun other => ?_⟩
  rw [store_afterCalls]
  split
  · exact haction _ (h.stores name)
  · exact h.stores other

variable [DecidableEq E]

/-- Requests with present elements only. -/
theorem NullFree.asks (h : s.NullFree ids) {t : Tracker}
    (howner : ∀ o, t.owner = some o → o.id ∈ ids) (hasks : t.Asks Element.Present s after) :
    after.NullFree ids := by
  rcases hasks.queued_or_written with
    ⟨kinds, hkinds, hpending, hstores⟩ |
      ⟨name, owner, α, action, hchannel, hwrite, hpending, hstores⟩
  · refine ⟨fun operation hmem hid => ?_, fun name => ?_⟩
    · rw [hpending] at hmem
      rcases List.mem_append.mp hmem with hmem | hmem
      · exact h.pending operation hmem hid
      · exact hkinds operation.kind (Tracker.kind_mem_of_queued hmem)
    · rw [store_of_stores_eq hstores]
      exact h.stores name
  · obtain ⟨o, ho, rfl, -⟩ := Tracker.exists_owner_of_channel hchannel
    exact (h.afterCalls (hwrite.keeps_nullFree (howner o ho)) name).of_stores_eq hpending hstores

/-- A flush, wherever it stops. -/
theorem nullFree_flush (default : Option StoreName) :
    Keeps (NullFree (E := E) ids) (flush default) := by
  refine keeps_flush default (fun {s operation rest} h hpending => ?_) fun h hpending => ?_
  · rw [stateAfter_replay]
    split
    · exact h
    · refine h.afterCalls (Store.keeps_nullFree_perform fun hid => ?_) _
      exact h.pending operation (hpending ▸ List.mem_cons_self) hid
  · refine ⟨fun operation hmem => ?_, h.stores⟩
    exact h.pending operation (hpending ▸ List.mem_cons_of_mem _ hmem)

end Session

end TrackedFields
