import TrackedFields.Proofs.Store.CarryOut
import TrackedFields.Store.Bulk

/-!
# What a store holds for one owner

The shelf of an owner is the container that a store keeps for it, together with the elements
deleted so far. A store call has answers of its own, but to the shelf it does what some operations
do: a call made right away and the operations that repeat it later come to the same. The main
statements name, for each call of a reliable store, its answer and these operations; bulk calls
included, as long as their size hints stay within a word.
-/

namespace TrackedFields

open Store (Rules View)

/-- What a store holds for one owner, and what it has deleted so far. -/
structure Shelf (E : Type) where
  elements : List E
  deleted : List E

namespace Store

variable {E : Type}

/-- The shelf of an owner. -/
def shelf (st : Store E) (owner : ObjectId) : Shelf E := ⟨st.contents owner, st.deleted⟩

end Store

namespace OperationKind

variable {E : Type} [DecidableEq E]

/-- What an operation does to a shelf; none if the container has no such position. -/
def stock (rules : Rules E) (shelf : Shelf E) (kind : OperationKind E) : Option (Shelf E) :=
  (kind.change shelf.elements).map fun (es, gone) => {
    elements := rules.arrange es
    deleted := shelf.deleted ++
      if rules.dependent then gone.filter fun e => !(rules.arrange es).contains e else [] }

/-- What operations do to a shelf, one after the other. -/
def stockAll (rules : Rules E) (shelf : Shelf E) (kinds : List (OperationKind E)) :
    Option (Shelf E) :=
  kinds.foldlM (stock rules) shelf

/-- Operations are carried out from the first one on. -/
theorem stockAll_cons (rules : Rules E) (shelf : Shelf E) (kind : OperationKind E)
    (kinds : List (OperationKind E)) :
    stockAll rules shelf (kind :: kinds) =
      (stock rules shelf kind).bind (stockAll rules · kinds) :=
  List.foldlM_cons

/-- Operations are carried out one after the other. -/
theorem stockAll_append (rules : Rules E) (shelf : Shelf E) (kinds more : List (OperationKind E)) :
    stockAll rules shelf (kinds ++ more) =
      (stockAll rules shelf kinds).bind (stockAll rules · more) :=
  List.foldlM_append

/-- Of a shelf, the elements are what the operations make of the container. -/
theorem map_elements_stockAll (rules : Rules E) (shelf : Shelf E)
    (kinds : List (OperationKind E)) :
    (stockAll rules shelf kinds).map Shelf.elements = carryOutAll rules shelf.elements kinds := by
  induction kinds generalizing shelf with
  | nil => rfl
  | cons kind kinds ih =>
    rw [stockAll_cons, carryOutAll_cons, stock, carryOut]
    cases kind.change shelf.elements with
    | none => rfl
    | some result => exact ih _

end OperationKind

namespace Store

variable {E α β : Type} [DecidableEq E]

/-- A call answers, and does to the shelf of an owner what some operations do. -/
def Carries (st : Store E) (owner : ObjectId) (action : StoreAction E α) (answer : α)
    (kinds : List (OperationKind E)) : Prop :=
  ∃ after, action st = .ok answer after ∧ st.Continues after ∧
    OperationKind.stockAll st.rules (st.shelf owner) kinds = some (after.shelf owner)

namespace Carries

variable {st : Store E} {owner : ObjectId}

/-- Answering does nothing to a shelf. -/
theorem pure (st : Store E) (owner : ObjectId) (answer : α) :
    st.Carries owner (Pure.pure answer) answer [] :=
  ⟨st, rfl, ⟨rfl, id⟩, rfl⟩

/-- A sequence does to a shelf what its parts do. -/
theorem bind {action : StoreAction E α} {next : α → StoreAction E β} {a : α} {b : β}
    {kinds more : List (OperationKind E)} (h : st.Carries owner action a kinds)
    (hnext : ∀ mid, st.Continues mid →
      OperationKind.stockAll st.rules (st.shelf owner) kinds = some (mid.shelf owner) →
      mid.Carries owner (next a) b more) :
    st.Carries owner (action >>= next) b (kinds ++ more) := by
  obtain ⟨mid, haction, hcontinues, hkinds⟩ := h
  obtain ⟨after, hafter, hcontinues', hmore⟩ := hnext mid hcontinues hkinds
  refine ⟨after, ?_, hcontinues.trans hcontinues', ?_⟩
  · rw [bind_apply, haction]
    exact hafter
  · rw [OperationKind.stockAll_append, hkinds, Option.bind_some, ← hcontinues.rules]
    exact hmore

/-- What is made of an answer does nothing to a shelf. -/
theorem map {action : StoreAction E α} {a : α} {kinds : List (OperationKind E)}
    (h : st.Carries owner action a kinds) (f : α → β) :
    st.Carries owner (action >>= fun a => Pure.pure (f a)) (f a) kinds := by
  obtain ⟨after, haction, hcontinues, hkinds⟩ := h
  refine ⟨after, ?_, hcontinues, hkinds⟩
  rw [bind_apply, haction]
  rfl

private theorem written {action : StoreAction E α} {answer : α} {call : StoreCall E}
    {kind : OperationKind E} {es gone : List E}
    (haction : action st = .ok answer (st.written call owner es gone))
    (hchange : kind.change (st.contents owner) = some (es, gone)) :
    st.Carries owner action answer [kind] := by
  refine ⟨_, haction, st.continues_written call owner es gone, ?_⟩
  have hkind : OperationKind.stock st.rules (st.shelf owner) kind =
      some ((st.written call owner es gone).shelf owner) := by
    unfold OperationKind.stock
    change Option.map _ (kind.change (st.contents owner)) = _
    rw [hchange, Option.map_some]
    unfold shelf
    rw [contents_written_self]
    rfl
  rw [OperationKind.stockAll_cons, hkind]
  rfl

end Carries

variable {st : Store E} (h : st.Reliable) (owner : ObjectId)

include h

omit [DecidableEq E] in
private theorem now_of_reliable : ¬ st.writes.now = true := by
  rw [h.writes]
  simp

/-- A read answers from the store and does nothing to a shelf. -/
theorem carries_reading (call : StoreCall E) (answer : Store E → α) :
    st.Carries owner (reading call answer) (answer (st.afterRead call)) [] := by
  refine ⟨st.afterRead call, ?_, st.continues_afterRead call, rfl⟩
  rw [reading_eq, h.reads]
  rfl

/-- Reading a whole container gives its elements. -/
theorem carries_elements : st.Carries owner (elements owner) (st.contents owner) [] := by
  refine ⟨st.iterated, ?_, st.continues_iterated, rfl⟩
  rw [elements_eq, h.reads]
  rfl

/-- Adding appends the element. -/
theorem carries_add (e : E) (hint : Option Nat) :
    st.Carries owner (add owner e hint) true [.collectionAdd e] := by
  apply Carries.written
  · rw [add_eq, if_neg (now_of_reliable h)]
  · rfl

/-- Removing takes out the first occurrence of the element. -/
theorem carries_remove (e : E) (hint : Option Nat) (cascade : Bool) :
    st.Carries owner (remove owner e hint cascade) ((st.contents owner).contains e)
      [.collectionRemove e cascade] := by
  apply Carries.written
  · rw [remove_eq, if_neg (now_of_reliable h)]
  · rfl

/-- Clearing empties the container. -/
theorem carries_clear : st.Carries owner (clear owner) () [.collectionClear] := by
  apply Carries.written
  · rw [clear_eq, if_neg (now_of_reliable h)]
  · rfl

/-- Removing the head of a container takes it out, if there is one. -/
theorem carries_removeAt_zero (hint : Option Nat) :
    st.Carries owner (removeAt owner 0 hint) (st.contents owner).head?
      (if (st.contents owner).head?.isSome then [.listRemoveAt 0] else []) := by
  cases hcontents : st.contents owner with
  | cons e es =>
    have hchange : (OperationKind.listRemoveAt 0).change (st.contents owner) =
        some (es, [e]) := by
      rw [hcontents]
      rfl
    have hwritten : removeAt owner 0 hint st =
        .ok (some e) (st.written (.removeAt 0 hint) owner es [e]) := by
      rw [removeAt_eq, if_neg (now_of_reliable h), hcontents]
      rfl
    exact Carries.written hwritten hchange
  | nil =>
    refine ⟨st.written (.removeAt 0 hint) owner [] [], ?_, st.continues_written _ owner _ _, ?_⟩
    · rw [removeAt_eq, if_neg (now_of_reliable h), hcontents]
      rfl
    · have harrange : st.arrange [] = [] := (st.arrange_perm []).eq_nil
      have hshelf : (st.written (.removeAt 0 hint) owner [] []).shelf owner = st.shelf owner := by
        unfold shelf
        rw [contents_written_self, harrange, hcontents, written_nil]
        rfl
      rw [hshelf]
      rfl

/-- Removing several elements takes them out one by one, and answers whether one of them was
there. -/
theorem carries_removeAll (es : List E) (hint : Option Nat) :
    st.Carries owner (removeAll owner es hint) (es.any (st.contents owner).contains)
      (es.map (.collectionRemove · true)) := by
  induction es generalizing st with
  | nil => exact Carries.pure st owner false
  | cons e es ih =>
    apply (carries_remove h owner e hint true).bind
    intro mid hcontinues hkinds
    have helements : mid.contents owner = st.rules.arrange ((st.contents owner).erase e) :=
      (congrArg Shelf.elements (Option.some.inj hkinds)).symm
    have hanswer : ((st.contents owner).contains e || es.any (mid.contents owner).contains) =
        (e :: es).any (st.contents owner).contains := by
      rw [List.any_cons]
      by_cases hmem : (st.contents owner).contains e = true
      · rw [hmem, Bool.true_or, Bool.true_or]
      · have hsame : (st.contents owner).erase e = st.contents owner :=
          List.erase_of_not_mem (by simpa using hmem)
        have hperm : (mid.contents owner).Perm (st.contents owner) := by
          rw [helements, hsame]
          exact st.arrange_perm (st.contents owner)
        congr 2
        funext a
        rw [List.contains_eq_mem, List.contains_eq_mem]
        exact decide_eq_decide.mpr hperm.mem_iff
    rw [← hanswer]
    exact (ih (hcontinues.reliable h)).map fun more => (st.contents owner).contains e || more

private theorem carries_addFrom (hint : Option Nat) (offset : Nat) (es : List E)
    (hfits : ∀ size, hint = some size → size + offset + es.length ≤ Word.sizeLimit) :
    st.Carries owner (addFrom owner hint offset es) (!es.isEmpty) (es.map .collectionAdd) := by
  induction es generalizing st offset with
  | nil => exact Carries.pure st owner false
  | cons e es ih =>
    have hhint : ∃ next, advanceHint (E := E) hint offset = pure next := by
      cases hint with
      | none => exact ⟨none, rfl⟩
      | some size =>
        have hlimit := hfits size rfl
        rw [List.length_cons] at hlimit
        have hsum : size + offset < Word.sizeLimit := by omega
        exact ⟨some (size + offset), advanceHint_of_lt hsum⟩
    obtain ⟨next, hnext⟩ := hhint
    unfold addFrom
    rw [hnext, pure_bind]
    apply (carries_add h owner e next).bind
    intro mid hcontinues _
    have hrest : ∀ size, hint = some size →
        size + (offset + 1) + es.length ≤ Word.sizeLimit := by
      intro size hsize
      have hlimit := hfits size hsize
      rw [List.length_cons] at hlimit
      omega
    exact (ih (hcontinues.reliable h) (offset + 1) hrest).map fun more => true || more

/-- Adding several elements appends them one by one, if the size hint stays within a word. -/
theorem carries_addAll (es : List E) (hint : Option Nat)
    (hfits : ∀ size, hint = some size → size + es.length ≤ Word.sizeLimit) :
    st.Carries owner (addAll owner es hint) (!es.isEmpty) (es.map .collectionAdd) :=
  carries_addFrom h owner hint 0 es hfits

end Store

end TrackedFields
