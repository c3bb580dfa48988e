import TrackedFields.Proofs.Keeps
import TrackedFields.TrackedList.Basic

/-!
# What the plans of a list make

A change of a list looks at the elements first. It fails, finds nothing to do, or makes new elements
and a report. For each change it is said here what it makes, and what it has checked by then.
-/

namespace TrackedFields.TrackedList

variable {E : Type} {tracker : Tracker} {es next : List E} {report : Report E} {index : Nat} {e : E}

section Removing

variable [DecidableEq E] {cascade answer : Bool}

/-- What removing an element makes of a list. -/
theorem made_of_removeWith
    (h : (if es.contains e then
        .ok (.made true (es.erase e)
          (departure e (.collectionRemove e cascade) (es.erase e) cascade))
      else .ok (.nothing false) : Except Failure (Change (List E) E Bool)) =
        .ok (.made answer next report)) :
    e ∈ es ∧ next = es.erase e ∧
      report = departure e (.collectionRemove e cascade) (es.erase e) cascade := by
  split at h
  · next hmem =>
    cases h
    exact ⟨List.contains_iff_mem.mp hmem, rfl, rfl⟩
  · cases h

/-- What removing at a position makes of a list. -/
theorem made_of_removeAt {removed : E}
    (h : (match es[index]? with
      | none => .error (.indexOutOfBounds index es.length)
      | some e => .ok (.made e (es.eraseIdx index)
          (departure e (.listRemoveAt index) (es.eraseIdx index) cascade)) :
        Except Failure (Change (List E) E E)) = .ok (.made removed next report)) :
    es[index]? = some removed ∧ next = es.eraseIdx index ∧
      report = departure removed (.listRemoveAt index) (es.eraseIdx index) cascade := by
  split at h
  · cases h
  · next hfound =>
    cases h
    exact ⟨hfound, rfl, rfl⟩

omit [DecidableEq E] in
/-- What removing the elements that satisfy a condition makes of a list. -/
theorem made_of_removeWhere {doomed : E → Bool}
    (h : (if (es.filter doomed).isEmpty then .ok (.nothing false)
      else .ok (.made true (es.filter fun e => !doomed e) (.removed (es.filter doomed) true)) :
        Except Failure (Change (List E) E Bool)) = .ok (.made answer next report)) :
    next = es.filter (fun e => !doomed e) ∧ report = .removed (es.filter doomed) true := by
  split at h
  · cases h
  · cases h
    exact ⟨rfl, rfl⟩

/-- What a rearrangement that moves something makes of a list. -/
theorem made_of_reorder {arrange : List E → List E} {answer : Unit}
    (h : (if (moves es (arrange es)).isEmpty then .ok (.nothing ())
      else .ok (.made () (arrange es) {
        operations := (moves es (arrange es)).map fun (index, e) => .listSet index e false }) :
        Except Failure (Change (List E) E Unit)) = .ok (.made answer next report)) :
    next = arrange es ∧ report = {
      operations := (moves es (arrange es)).map fun (index, e) => .listSet index e false } := by
  split at h
  · cases h
  · cases h
    exact ⟨rfl, rfl⟩

end Removing

section Checked

variable [Element E] {new : List E} {answer : Bool}

/-- What appending an element makes of a list. -/
theorem made_of_add
    (h : (do
      tracker.check e
      return .made true (es ++ [e]) (.added [e]) : Except Failure (Change (List E) E Bool)) =
        .ok (.made answer next report)) :
    tracker.check e = .ok () ∧ next = es ++ [e] ∧ report = .added [e] := by
  obtain ⟨hcheck, h⟩ := accepted_of_bind h
  cases h
  exact ⟨hcheck, rfl, rfl⟩

/-- What appending several elements makes of a list. -/
theorem made_of_addAll
    (h : (do
      tracker.checkAll new
      if new.isEmpty then return .nothing false
      return .made true (es ++ new) (.added new) : Except Failure (Change (List E) E Bool)) =
        .ok (.made answer next report)) :
    tracker.checkAll new = .ok () ∧ next = es ++ new ∧ report = .added new := by
  obtain ⟨hcheck, h⟩ := accepted_of_bind h
  split at h
  · cases h
  · cases h
    exact ⟨hcheck, rfl, rfl⟩

/-- What an insertion makes of a list. -/
theorem made_of_insert {answer : Unit}
    (h : (do
      if es.length < index then throw (.indexOutOfBounds index es.length)
      tracker.check e
      return .made () (es.insertIdx index e) (arrival index [e]) :
        Except Failure (Change (List E) E Unit)) = .ok (.made answer next report)) :
    index ≤ es.length ∧ tracker.check e = .ok () ∧ next = es.insertIdx index e ∧
      report = arrival index [e] := by
  by_cases hindex : es.length < index
  · rw [if_pos hindex] at h
    cases h
  · rw [if_neg hindex] at h
    obtain ⟨hcheck, h⟩ := accepted_of_bind h
    cases h
    exact ⟨Nat.le_of_not_lt hindex, hcheck, rfl, rfl⟩

/-- What inserting several elements makes of a list. -/
theorem made_of_insertAll
    (h : (do
      if es.length < index then throw (.indexOutOfBounds index es.length)
      tracker.checkAll new
      if new.isEmpty then return .nothing false
      return .made true (es.take index ++ new ++ es.drop index) (arrival index new) :
        Except Failure (Change (List E) E Bool)) = .ok (.made answer next report)) :
    index ≤ es.length ∧ tracker.checkAll new = .ok () ∧
      next = es.take index ++ new ++ es.drop index ∧ report = arrival index new := by
  by_cases hindex : es.length < index
  · rw [if_pos hindex] at h
    cases h
  · rw [if_neg hindex] at h
    obtain ⟨hcheck, h⟩ := accepted_of_bind h
    split at h
    · cases h
    · cases h
      exact ⟨Nat.le_of_not_lt hindex, hcheck, rfl, rfl⟩

/-- What replacing an element makes of a list. -/
theorem made_of_setWith [DecidableEq E] {cascade : Bool} {previous : E}
    (h : (match es[index]? with
      | none => .error (.indexOutOfBounds index es.length)
      | some previous => do
        tracker.check e
        return .made previous (es.set index e)
          (replacement index previous e (es.set index e) cascade) :
        Except Failure (Change (List E) E E)) = .ok (.made previous next report)) :
    es[index]? = some previous ∧ tracker.check e = .ok () ∧ next = es.set index e ∧
      report = replacement index previous e (es.set index e) cascade := by
  split at h
  · cases h
  · next hfound =>
    obtain ⟨hcheck, h⟩ := accepted_of_bind h
    cases h
    exact ⟨hfound, hcheck, rfl, rfl⟩

end Checked

end TrackedFields.TrackedList
