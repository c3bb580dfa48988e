import TrackedFields.ObjectId

/-!
# Container elements

What a tracked container has to know about its elements: whether an element is the null element,
which a container may forbid, and the identity of an element that is itself a persistent object.
Two elements denote the same member of a container if their identities agree, or, where one of
them has no identity, if they are equal.
-/

namespace TrackedFields

/-- Types whose values can live inside a tracked container. -/
class Element (E : Type) where
  /-- Whether the value stands for an absent element. -/
  isNull : E → Bool
  /-- The identity of a value that is a persistent object. -/
  objectId? : E → Option ObjectId

namespace Element

variable {E : Type} [DecidableEq E] [Element E]

/-- Whether two elements denote the same member of a container. -/
def same (a b : E) : Bool :=
  match objectId? a, objectId? b with
  | some x, some y => x == y
  | _, _ => a == b

/-- Every element denotes what it denotes. -/
theorem same_refl (a : E) : same a a := by
  unfold same
  cases objectId? a with
  | none => simp
  | some x => simp

/-- Elements that denote the same member are the same to every element. -/
theorem same_congr {a b : E} (h : same a b) (c : E) : same c a = same c b := by
  unfold same at h ⊢
  cases ha : objectId? a with
  | none =>
    rw [ha] at h
    obtain rfl : a = b := by simpa using h
    rw [ha]
  | some x =>
    cases hb : objectId? b with
    | none =>
      rw [ha, hb] at h
      obtain rfl : a = b := by simpa using h
      rw [ha] at hb
      cases hb
    | some y =>
      rw [ha, hb] at h
      obtain rfl : x = y := by simpa using h
      cases hc : objectId? c with
      | some z => rfl
      | none =>
        have hca : c ≠ a := by
          rintro rfl
          rw [hc] at ha
          cases ha
        have hcb : c ≠ b := by
          rintro rfl
          rw [hc] at hb
          cases hb
        exact (beq_eq_false_iff_ne.mpr hca).trans (beq_eq_false_iff_ne.mpr hcb).symm

/-- Denoting the same member goes both ways. -/
theorem same_comm (a b : E) : same a b = same b a := by
  unfold same
  cases objectId? a with
  | none => cases objectId? b <;> exact Bool.beq_comm
  | some x => cases objectId? b <;> exact Bool.beq_comm

/-- Plain values are never null and have no identity. -/
@[reducible] def plain (E : Type) : Element E where
  isNull _ := false
  objectId? _ := none

end Element

instance : Element Int8 := .plain _
instance : Element Int16 := .plain _
instance : Element Int32 := .plain _
instance : Element Int64 := .plain _
instance : Element UInt8 := .plain _
instance : Element UInt16 := .plain _
instance : Element UInt32 := .plain _
instance : Element UInt64 := .plain _
instance : Element Bool := .plain _
instance : Element Char := .plain _
instance : Element String := .plain _

/-- An identity is an element that carries itself. -/
instance : Element ObjectId where
  isNull _ := false
  objectId? := some

/-- An absent value is the null element; a present one keeps its identity. -/
instance {E : Type} [Element E] : Element (Option E) where
  isNull := Option.isNone
  objectId? e := e.bind Element.objectId?

end TrackedFields
