import TrackedFields.Proofs.Store.CarryOut
import TrackedFields.TrackedList.Attach

/-!
# Operations that repeat a change of a list

A list reports its changes as operations: elements that join its end, elements that leave by
position or by value, elements that come in from a position on, and overwritten positions where the
list was rearranged. On an unordered container with the same elements, these operations lead to the
same list, although each one counts its positions in what those before it left.
-/

namespace TrackedFields

open Store (Rules)

variable {E : Type} [DecidableEq E] {rules : Rules E}

namespace OperationKind

/-- Without an order, an operation leaves what it makes of a container as it is. -/
theorem carryOut_unordered (h : rules.order = none) (es : List E) (kind : OperationKind E) :
    carryOut rules es kind = (kind.change es).map Prod.fst := by
  have harrange (es : List E) : rules.arrange es = es := by rw [Rules.arrange, h]
  unfold carryOut
  congr 1
  funext result
  exact harrange result.1

/-- Without an order, an operation that is admitted leads to what it makes of the container. -/
theorem carryOutAll_change (h : rules.order = none) {es next gone : List E}
    {kind : OperationKind E} (hchange : kind.change es = some (next, gone))
    (kinds : List (OperationKind E)) :
    carryOutAll rules es (kind :: kinds) = carryOutAll rules next kinds := by
  rw [carryOutAll_cons, carryOut_unordered h, hchange]
  rfl

/-- Elements that join the end one by one join it together. -/
theorem carryOutAll_added (h : rules.order = none) (es new : List E) :
    carryOutAll rules es (new.map collectionAdd) = some (es ++ new) := by
  induction new generalizing es with
  | nil => rw [List.map_nil, carryOutAll_nil, List.append_nil]
  | cons e new ih =>
    rw [List.map_cons, carryOutAll_change h rfl, ih, List.append_assoc, List.singleton_append]

private theorem carryOutAll_insertedAt (h : rules.order = none) (index : Nat) (new : List E)
    (offset : Nat) (front back : List E) (hfront : front.length = index + offset) :
    carryOutAll rules (front ++ back)
        ((new.zipIdx offset).map fun (e, offset) => listAddAt (index + offset) e) =
      some (front ++ new ++ back) := by
  induction new generalizing offset front with
  | nil => rw [List.append_nil]; rfl
  | cons e new ih =>
    have hchange : (listAddAt (index + offset) e).change (front ++ back) =
        some (front ++ [e] ++ back, []) := by
      have hroom : ¬ (front ++ back).length < index + offset := by
        rw [List.length_append]
        omega
      have hinsert : (front ++ back).insertIdx (index + offset) e = front ++ [e] ++ back := by
        rw [← hfront, Comparator.insertIdx_append_length, List.append_assoc,
          List.singleton_append]
      simp only [change]
      rw [if_neg hroom, hinsert]
    have hfront' : (front ++ [e]).length = index + (offset + 1) := by
      rw [List.length_append, hfront, List.length_singleton, Nat.add_assoc]
    rw [List.zipIdx_cons, List.map_cons, carryOutAll_change h hchange, ih (offset + 1) _ hfront',
      List.append_assoc front, List.singleton_append]

/-- Elements that come in from a position on stand there in order. -/
theorem carryOutAll_arrival (h : rules.order = none) {index : Nat} {es : List E}
    (hindex : index ≤ es.length) (new : List E) :
    carryOutAll rules es (TrackedList.arrival index new).operations =
      some (es.take index ++ new ++ es.drop index) := by
  have hfront : (es.take index).length = index + 0 := by
    rw [List.length_take, Nat.min_eq_left hindex, Nat.add_zero]
  have hinserted := carryOutAll_insertedAt h index new 0 (es.take index) (es.drop index) hfront
  rw [List.take_append_drop] at hinserted
  exact hinserted

private theorem carryOutAll_overwritten (h : rules.order = none) (front before order : List E)
    (hlength : order.length = before.length) :
    carryOutAll rules (front ++ before)
        ((((before.zip order).zipIdx front.length).filterMap fun ((old, new), index) =>
          if old = new then none else some (index, new)).map
            fun (index, e) => listSet index e false) =
      some (front ++ order) := by
  induction before generalizing front order with
  | nil =>
    obtain rfl : order = [] := List.length_eq_zero_iff.mp hlength
    rfl
  | cons old before ih =>
    cases order with
    | nil => cases hlength
    | cons new order =>
      have hrest := ih (front ++ [new]) order (by simpa using hlength)
      rw [List.append_assoc, List.singleton_append, List.append_assoc, List.singleton_append,
        List.length_append, List.length_singleton] at hrest
      rw [List.zip_cons_cons, List.zipIdx_cons]
      by_cases hsame : old = new
      · simp only [List.filterMap_cons, if_pos hsame]
        rw [hsame]
        exact hrest
      · have hchange : (listSet front.length new false).change (front ++ old :: before) =
            some (front ++ new :: before, []) := by
          simp [change]
        simp only [List.filterMap_cons, if_neg hsame]
        rw [List.map_cons, carryOutAll_change h hchange]
        exact hrest

/-- Overwriting the positions at which a rearranged list differs rearranges the list. -/
theorem carryOutAll_moves (h : rules.order = none) {es order : List E}
    (hlength : order.length = es.length) :
    carryOutAll rules es
        ((TrackedList.moves es order).map fun (index, e) => listSet index e false) =
      some order :=
  carryOutAll_overwritten h [] es order hlength

end OperationKind

end TrackedFields
