import Mathlib
import TrackedFields.Json.Record

/-!
# Reading written records back

An object with distinct keys is read as a record in which each field has the value of its key. The
values of single fields are read back too: numbers within their bounds, and values that are left
out where there are none.
-/

namespace TrackedFields.Json

/-- An object with distinct keys is read as a record: each field has the value of its key. -/
theorem fields_object {members : List (String × Json)} (h : (members.map (·.1)).Nodup)
    (names : List String) :
    (object members).fields names =
      some (names.map fun name => (members.find? (·.1 == name)).map (·.2)) := by
  let texts := members.map fun member => (some member.1, member.2)
  have htexts : texts.any (·.1.isNone) = false := by simp [texts]
  have honce : names.any (fun name => 1 < (texts.filter (·.1 == some name)).length) = false := by
    rw [List.any_eq_false]
    intro name _
    have hcount : (members.map (·.1)).count name ≤ 1 := List.nodup_iff_count_le_one.mp h name
    rw [List.count, List.countP_map] at hcount
    rw [List.filter_map, List.length_map, ← List.countP_eq_length_filter, decide_eq_true_eq]
    exact Nat.not_lt.mpr hcount
  have hfind (name : String) :
      (texts.find? (·.1 == some name)).map (·.2) = (members.find? (·.1 == name)).map (·.2) := by
    rw [List.find?_map, Option.map_map]
    rfl
  change (if texts.any (·.1.isNone) then none else if _ then none else some _) = _
  rw [htexts, honce, if_neg Bool.false_ne_true, if_neg Bool.false_ne_true]
  exact congrArg some (List.map_congr_left fun name _ => hfind name)

/-- A field that is left out where it has no value, and is never written as null, is read back. -/
theorem nullable_map {α : Type} {write : α → Json} {read : Json → Option α}
    (hread : ∀ a, read (write a) = some a) (hnull : ∀ a, write a ≠ .null) (field : Option α) :
    nullable read (field.map write) = some field := by
  cases field with
  | none => rfl
  | some a =>
    change optional? read (write a) = _
    unfold optional?
    split
    · next h => exact absurd h (hnull a)
    · rw [hread]
      rfl

/-- A natural number below the bound is read back. -/
theorem natBelow?_nat {bound n : Nat} (h : n < bound) : natBelow? bound (nat n) = some n := by
  change (if 0 ≤ (n : Int) ∧ (n : Int) < bound then some (n : Int).toNat else none) = _
  rw [if_pos ⟨Int.natCast_nonneg n, Int.ofNat_lt.mpr h⟩, Int.toNat_natCast]

/-- An integer between the bounds is read back. -/
theorem intIn?_int {low high n : Int} (h : low ≤ n ∧ n ≤ high) :
    intIn? low high (.int n) = some n := if_pos h

end TrackedFields.Json
