import TrackedFields.Store.Basic

/-!
# Bulk store calls

Bulk calls make one single call per element, in order, and stop at the first failure. The size
hint of a bulk addition counts on with each element.
-/

namespace TrackedFields.Store

variable {E : Type}

/-- A size hint after some more elements. -/
def advanceHint (hint : Option Nat) (offset : Nat) : StoreAction E (Option Nat) :=
  match hint with
  | none => return none
  | some size =>
    match Word.addSizes size offset with
    | .ok size => return some size
    | .error _ => throw .hintOverflow

/-- Without a hint, there is nothing to count on. -/
@[simp] theorem advanceHint_none (offset : Nat) :
    advanceHint (E := E) none offset = return none := rfl

/-- A hint is counted on as long as it stays within its word. -/
theorem advanceHint_of_lt {size offset : Nat} (h : size + offset < Word.sizeLimit) :
    advanceHint (E := E) (some size) offset = return some (size + offset) := by
  simp only [advanceHint, Word.addSizes, if_pos h]

/-- A hint that leaves its word fails. -/
theorem advanceHint_of_le {size offset : Nat} (h : Word.sizeLimit ≤ size + offset) :
    advanceHint (E := E) (some size) offset = throw .hintOverflow := by
  simp only [advanceHint, Word.addSizes, if_neg (Nat.not_lt.mpr h)]

/-- Append the elements, of which the first one is the given number of elements after the
hint. -/
def addFrom (owner : ObjectId) (hint : Option Nat) : Nat → List E → StoreAction E Bool
  | _, [] => return false
  | offset, e :: es => do
    let added ← add owner e (← advanceHint hint offset)
    let more ← addFrom owner hint (offset + 1) es
    return added || more

/-- Append several elements; tells whether the container changed. -/
def addAll (owner : ObjectId) (es : List E) (hint : Option Nat) : StoreAction E Bool :=
  addFrom owner hint 0 es

variable [DecidableEq E]

/-- Remove the first occurrence of each listed element; tells whether there was one. -/
def removeAll (owner : ObjectId) (es : List E) (hint : Option Nat) : StoreAction E Bool :=
  match es with
  | [] => return false
  | e :: es => do
    let removed ← remove owner e hint true
    let more ← removeAll owner es hint
    return removed || more

end TrackedFields.Store
