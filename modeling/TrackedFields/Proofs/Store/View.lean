import TrackedFields.Operation.Basic
import TrackedFields.Proofs.StableSort
import TrackedFields.Proofs.Store.Calls

/-!
# What a store shows

Of all that a store holds, its view is what callers care about: the containers of the owners, and
the dependent elements deleted so far. An operation has an effect on views, which does not depend
on outages, hints or records. The main statements tie the two together: an operation that a store
carries out has its effect on the view of that store, exactly once, and an operation that fails
leaves the view alone, whatever the reason.
-/

namespace TrackedFields

namespace Store

variable {E : Type}

/-- How a store keeps its containers. -/
structure Rules (E : Type) where
  order : Option (Comparator E)
  dependent : Bool

/-- The rules of a store. -/
def rules (st : Store E) : Rules E := ⟨st.order, st.dependent⟩

/-- The elements in the order of the rules. -/
def Rules.arrange (rules : Rules E) (es : List E) : List E :=
  match rules.order with
  | some cmp => cmp.sort es
  | none => es

/-- A store arranges by its rules. -/
theorem arrange_rules (st : Store E) (es : List E) : st.rules.arrange es = st.arrange es := rfl

/-- Arranging a container keeps its elements. -/
theorem Rules.arrange_perm (rules : Rules E) (es : List E) : (rules.arrange es).Perm es := by
  unfold Rules.arrange
  split
  · exact Comparator.sort_perm _ es
  · exact .refl es

/-- A container that needs no arranging: it is sorted, if there is an order. -/
def Rules.Fits (rules : Rules E) (es : List E) : Prop :=
  ∀ cmp, rules.order = some cmp → cmp.Sorted es

/-- Without an order, every container fits. -/
theorem Rules.fits_of_none {rules : Rules E} (h : rules.order = none) (es : List E) :
    rules.Fits es := by
  intro cmp hcmp
  rw [h] at hcmp
  cases hcmp

/-- What is left of a container that fits needs no arranging. -/
theorem Rules.Fits.arrange_sublist {rules : Rules E} {es part : List E} (h : rules.Fits es)
    (hpart : part.Sublist es) : rules.arrange part = part := by
  unfold Rules.arrange
  split
  · next cmp hcmp => exact Comparator.sort_of_sorted ((h cmp hcmp).sublist hpart)
  · rfl

/-- What is left of a container that fits, fits. -/
theorem Rules.Fits.sublist {rules : Rules E} {es part : List E} (h : rules.Fits es)
    (hpart : part.Sublist es) : rules.Fits part :=
  fun cmp hcmp => (h cmp hcmp).sublist hpart

/-- What a store shows of its content. -/
@[ext] structure View (E : Type) where
  /-- The container of each owner. -/
  contents : ObjectId → List E
  /-- The dependent elements deleted so far. -/
  deleted : List E

/-- The view of a store. -/
def view (st : Store E) : View E := ⟨st.contents, st.deleted⟩

/-- Containers that are kept by the rules: the order, if there is one, is a total preorder, and
every container is sorted by it. -/
def View.InOrder (v : View E) (rules : Rules E) : Prop :=
  ∀ cmp, rules.order = some cmp → Std.TransCmp cmp ∧ ∀ owner, cmp.Sorted (v.contents owner)

/-- Without an order, there is nothing to keep. -/
theorem View.inOrder_of_none (v : View E) {rules : Rules E} (h : rules.order = none) :
    v.InOrder rules := by
  intro cmp hcmp
  rw [h] at hcmp
  cases hcmp

/-- A container that is kept by the rules fits. -/
theorem View.InOrder.fits {v : View E} {rules : Rules E} (h : v.InOrder rules)
    (owner : ObjectId) : rules.Fits (v.contents owner) :=
  fun cmp hcmp => (h cmp hcmp).2 owner

/-- Seeding a container keeps the others by the rules, and the seeded one too. -/
theorem inOrder_seed {st : Store E} (h : st.view.InOrder st.rules) (owner : ObjectId)
    (es : List E) : (st.seed owner es).view.InOrder (st.seed owner es).rules := by
  intro cmp hcmp
  have horder : st.order = some cmp := hcmp
  obtain ⟨hlaws, hsorted⟩ := h cmp horder
  refine ⟨hlaws, fun other => ?_⟩
  change cmp.Sorted ((st.seed owner es).contents other)
  rw [contents_seed]
  split
  · rw [← arrange_rules, Rules.arrange, show st.rules.order = some cmp from horder]
    exact cmp.sorted_sort es
  · exact hsorted other

/-- A store that was seeded once keeps its containers by its order. -/
theorem inOrder_seed_new (cmp : Comparator E) [Std.TransCmp cmp] (dependent : Bool)
    (owner : ObjectId) (es : List E) :
    (Store.seed { order := some cmp, dependent } owner es).view.InOrder ⟨some cmp, dependent⟩ := by
  have hempty : ({ order := some cmp, dependent } : Store E).view.InOrder
      ⟨some cmp, dependent⟩ := by
    intro order horder
    cases horder
    exact ⟨inferInstance, fun _ => .nil⟩
  exact inOrder_seed hempty owner es

/-- What no call changes about a store: its rules, and that it is reliable. -/
structure Continues (st after : Store E) : Prop where
  rules : after.rules = st.rules
  reliable : st.Reliable → after.Reliable

/-- Calls one after the other continue a store. -/
theorem Continues.trans {st mid after : Store E} (h : st.Continues mid) (h' : mid.Continues after) :
    st.Continues after :=
  ⟨h'.rules.trans h.rules, fun hst => h'.reliable (h.reliable hst)⟩

/-- A rejected write continues a store. -/
theorem continues_noted (st : Store E) (call : StoreCall E) : st.Continues (st.noted call) := by
  refine ⟨rfl, fun h => ⟨h.reads, ?_⟩⟩
  rw [writes_noted, h.writes, Outage.next_never]

/-- A refused write continues a store. -/
theorem continues_refused (st : Store E) (call : StoreCall E) (owner : ObjectId) :
    st.Continues (st.refused call owner) :=
  ⟨rfl, fun h => ⟨h.reads, ((st.continues_noted call).reliable h).writes⟩⟩

/-- A read continues a store. -/
theorem continues_afterRead (st : Store E) (call : StoreCall E) :
    st.Continues (st.afterRead call) := by
  refine ⟨rfl, fun h => ⟨?_, h.writes⟩⟩
  rw [reads_afterRead, h.reads, Outage.next_never]

/-- Reading a whole container continues a store. -/
theorem continues_iterated (st : Store E) : st.Continues st.iterated :=
  ⟨rfl, fun h => ⟨((st.continues_afterRead .elements).reliable h).reads, h.writes⟩⟩

/-- A write that is carried out continues a store. -/
theorem continues_written [DecidableEq E] (st : Store E) (call : StoreCall E) (owner : ObjectId)
    (es gone : List E) : st.Continues (st.written call owner es gone) :=
  ⟨rfl, fun h => ⟨h.reads, ((st.continues_noted call).reliable h).writes⟩⟩

end Store

open Store (Rules View)

namespace OperationKind

variable {E : Type} [DecidableEq E]

/-- The store call that carries an operation out. -/
def call : OperationKind E → StoreCall E
  | collectionAdd e => .add e none
  | collectionRemove e cascade => .remove e none cascade
  | collectionClear => .clear
  | listAddAt i e => .insert i e
  | listRemoveAt i => .removeAt i none
  | listSet i e cascade => .set i e cascade

/-- What an operation makes of a container, before it is arranged, with the elements that leave it
and may be deleted; none if the container has no such position. -/
def change (kind : OperationKind E) (es : List E) : Option (List E × List E) :=
  match kind with
  | collectionAdd e => some (es ++ [e], [])
  | collectionRemove e cascade =>
    some (es.erase e, if cascade then (if es.contains e then [e] else []) else [])
  | collectionClear => some ([], es)
  | listAddAt i e => if es.length < i then none else some (es.insertIdx i e, [])
  | listRemoveAt i => es[i]?.map fun e => (es.eraseIdx i, [e])
  | listSet i e cascade =>
    es[i]?.map fun previous => (es.set i e, if cascade then [previous] else [])

/-- What an operation makes of the view of a store with the given rules. -/
def effect (rules : Rules E) (owner : ObjectId) (kind : OperationKind E) (v : View E) :
    Option (View E) :=
  (kind.change (v.contents owner)).map fun (es, gone) => {
    contents := fun other => if other = owner then rules.arrange es else v.contents other
    deleted := v.deleted ++
      if rules.dependent then gone.filter fun e => !(rules.arrange es).contains e else [] }

variable {owner : ObjectId} {kind : OperationKind E} {st : Store E}

private theorem perform_rejected (h : st.writes.now = true) :
    kind.perform owner st = .error (.writeRejected owner) (st.noted kind.call) := by
  cases kind with
  | collectionAdd e => rw [perform, discard_apply, Store.add_eq, if_pos h]; rfl
  | collectionRemove e cascade => rw [perform, discard_apply, Store.remove_eq, if_pos h]; rfl
  | collectionClear => rw [perform, Store.clear_eq, if_pos h]; rfl
  | listAddAt i e => rw [perform, Store.insert_eq, if_pos h]; rfl
  | listRemoveAt i => rw [perform, bind_apply, Store.removeAt_eq, if_pos h]; rfl
  | listSet i e cascade => rw [perform, discard_apply, Store.set_eq, if_pos h]; rfl

private theorem perform_admitted {es gone : List E} (h : st.writes.now = false)
    (hchange : kind.change (st.contents owner) = some (es, gone)) :
    kind.perform owner st = .ok () (st.written kind.call owner es gone) := by
  have hnow : ¬ st.writes.now = true := by simp [h]
  cases kind with
  | collectionAdd e =>
    cases hchange
    rw [perform, discard_apply, Store.add_eq, if_neg hnow]
    rfl
  | collectionRemove e cascade =>
    cases hchange
    rw [perform, discard_apply, Store.remove_eq, if_neg hnow]
    rfl
  | collectionClear =>
    cases hchange
    rw [perform, Store.clear_eq, if_neg hnow]
    rfl
  | listAddAt i e =>
    simp only [change] at hchange
    split at hchange
    · cases hchange
    · next hi =>
      cases hchange
      rw [perform, Store.insert_eq, if_neg hnow, if_neg hi]
      rfl
  | listRemoveAt i =>
    obtain ⟨e, he, hpair⟩ := Option.map_eq_some_iff.mp hchange
    cases hpair
    rw [perform, bind_apply, Store.removeAt_eq, if_neg hnow, he]
    rfl
  | listSet i e cascade =>
    obtain ⟨previous, he, hpair⟩ := Option.map_eq_some_iff.mp hchange
    cases hpair
    rw [perform, discard_apply, Store.set_eq, if_neg hnow, he]
    rfl

/-- A store after a write that takes nothing out of a container which needs no arranging looks as
before. -/
private theorem view_written_self {call : StoreCall E} (h : st.view.InOrder st.rules) :
    (st.written call owner (st.contents owner) []).view = st.view := by
  have harrange : st.arrange (st.contents owner) = st.contents owner :=
    (h.fits owner).arrange_sublist (List.Sublist.refl _)
  unfold Store.view
  congr 1
  · funext other
    rw [Store.contents_written, harrange]
    split
    · next hother => rw [hother]
    · rfl
  · rw [Store.written_nil]
    rfl

/-- An operation that the container does not admit fails, and changes nothing that shows in
containers which need no arranging. -/
private theorem perform_refused (h : st.writes.now = false)
    (hchange : kind.change (st.contents owner) = none) :
    ∃ e after, kind.perform owner st = .error e after ∧ st.Continues after ∧
      (st.view.InOrder st.rules → after.view = st.view) := by
  have hnow : ¬ st.writes.now = true := by simp [h]
  have hrefused (call : StoreCall E) : (st.refused call owner).view = st.view := by
    unfold Store.view
    congr 1
    funext other
    exact Store.contents_refused st call owner other
  cases kind with
  | collectionAdd e => cases hchange
  | collectionRemove e cascade => cases hchange
  | collectionClear => cases hchange
  | listAddAt i e =>
    simp only [change] at hchange
    split at hchange
    · next hi =>
      rw [perform, Store.insert_eq, if_neg hnow, if_pos hi]
      exact ⟨_, _, rfl, st.continues_refused _ owner, fun _ => hrefused _⟩
    · cases hchange
  | listRemoveAt i =>
    have hi : (st.contents owner)[i]? = none := Option.map_eq_none_iff.mp hchange
    have hend : (st.contents owner).eraseIdx i = st.contents owner :=
      List.eraseIdx_of_length_le (List.getElem?_eq_none_iff.mp hi)
    rw [perform, bind_apply, Store.removeAt_eq, if_neg hnow, hi, hend, Option.toList_none]
    -- The size in the message is read afterwards; that read can be rejected too.
    change ∃ e after, (Store.size owner >>= _) _ = _ ∧ _
    rw [bind_apply, Store.size, Store.reading_eq]
    have hcontinues := (st.continues_written (.removeAt i none) owner (st.contents owner) []).trans
      (Store.continues_afterRead _ .size)
    by_cases hread :
        (st.written (.removeAt i none) owner (st.contents owner) []).reads.now = true
    · rw [if_pos hread]
      exact ⟨_, _, rfl, hcontinues, view_written_self⟩
    · rw [if_neg hread]
      exact ⟨_, _, rfl, hcontinues, view_written_self⟩
  | listSet i e cascade =>
    have hi : (st.contents owner)[i]? = none := Option.map_eq_none_iff.mp hchange
    rw [perform, discard_apply, Store.set_eq, if_neg hnow, hi]
    exact ⟨_, _, rfl, st.continues_refused _ owner, fun _ => hrefused _⟩

private theorem effect_view {es gone : List E}
    (hchange : kind.change (st.contents owner) = some (es, gone)) :
    kind.effect st.rules owner st.view = some (st.written kind.call owner es gone).view := by
  have hview : kind.change (st.view.contents owner) = some (es, gone) := hchange
  rw [effect, hview, Option.map_some]
  congr 1
  apply View.ext
  · funext other
    exact (st.contents_written kind.call owner other es gone).symm
  · rfl

private theorem effect_view_none (hchange : kind.change (st.contents owner) = none) :
    kind.effect st.rules owner st.view = none := by
  have hview : kind.change (st.view.contents owner) = none := hchange
  rw [effect, hview, Option.map_none]

variable (kind owner) in
/-- Carrying an operation out ends in one of two ways: it has its effect, or it fails and nothing
that shows has changed. -/
theorem perform_cases (hin : st.view.InOrder st.rules) :
    (∃ after, kind.perform owner st = .ok () after ∧ st.Continues after ∧
      kind.effect st.rules owner st.view = some after.view) ∨
    (∃ e after, kind.perform owner st = .error e after ∧ st.Continues after ∧
      after.view = st.view ∧
      (st.writes.now = true ∨ kind.effect st.rules owner st.view = none)) := by
  cases hnow : st.writes.now with
  | true => exact .inr ⟨_, _, perform_rejected hnow, st.continues_noted _, rfl, .inl rfl⟩
  | false =>
    cases hchange : kind.change (st.contents owner) with
    | some result =>
      obtain ⟨es, gone⟩ := result
      exact .inl ⟨_, perform_admitted hnow hchange, st.continues_written _ owner es gone,
        effect_view hchange⟩
    | none =>
      obtain ⟨e, after, hperform, hcontinues, hview⟩ := perform_refused hnow hchange
      exact .inr ⟨e, after, hperform, hcontinues, hview hin, .inr (effect_view_none hchange)⟩

variable (kind owner) in
/-- An operation that is not rejected has its effect or fails, whatever order the containers are
in. -/
theorem perform_passing (hnow : st.writes.now = false) :
    (∃ after, kind.perform owner st = .ok () after ∧ st.Continues after ∧
      kind.effect st.rules owner st.view = some after.view) ∨
    (∃ e after, kind.perform owner st = .error e after ∧
      kind.effect st.rules owner st.view = none) := by
  cases hchange : kind.change (st.contents owner) with
  | some result =>
    obtain ⟨es, gone⟩ := result
    exact .inl ⟨_, perform_admitted hnow hchange, st.continues_written _ owner es gone,
      effect_view hchange⟩
  | none =>
    obtain ⟨e, after, hperform, -, -⟩ := perform_refused hnow hchange
    exact .inr ⟨e, after, hperform, effect_view_none hchange⟩

/-- An effect keeps the containers by the rules. -/
theorem inOrder_effect {rules : Rules E} {v after : View E} (hin : v.InOrder rules)
    (h : kind.effect rules owner v = some after) : after.InOrder rules := by
  obtain ⟨⟨es, gone⟩, -, rfl⟩ := Option.map_eq_some_iff.mp h
  intro cmp hcmp
  obtain ⟨hlaws, hsorted⟩ := hin cmp hcmp
  refine ⟨hlaws, fun other => ?_⟩
  change cmp.Sorted (if other = owner then rules.arrange es else v.contents other)
  split
  · rw [Rules.arrange, hcmp]
    exact cmp.sorted_sort es
  · exact hsorted other

end OperationKind

end TrackedFields
