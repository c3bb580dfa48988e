import Mathlib
import TrackedFields.Timestamp.Basic

/-!
# Counting milliseconds back

A timestamp made from a count of milliseconds holds the count rounded down to whole seconds, and the
remainder as its fraction. Counting multiplies the whole seconds first. That product can lie below
the least signed word although the count, with the remainder added, does not: the counts below the
least multiple of 1000 in a signed word are not counted back.
-/

namespace TrackedFields.Timestamp

/-! ### Timestamps made from milliseconds -/

/-- The whole seconds of a count are exact. -/
@[simp] theorem toInt_secs_fromMillis (m : Int64) : (fromMillis m).secs.toInt = m.toInt / 1000 := by
  have hlow := m.le_toInt
  have hhigh := m.toInt_lt
  exact Int64.toInt_ofInt_of_le (by omega) (by omega)

/-- The fraction of a count is exact. -/
@[simp] theorem toNat_nanos_fromMillis (m : Int64) :
    (fromMillis m).nanos.toNat = (m.toInt % 1000).toNat * nanosPerMilli := by
  refine UInt32.toNat_ofNat_of_lt' ?_
  change (m.toInt % 1000).toNat * 1000000 < 4294967296
  omega

/-! ### Counting -/

/-- The milliseconds are counted if both steps stay within a signed word. -/
theorem millis_eq_ok {t : Timestamp} {m : Int64} (hwhole : Word.IsSigned (t.secs.toInt * 1000))
    (htotal : t.secs.toInt * 1000 + (t.nanos.toNat / nanosPerMilli : Nat) = m.toInt) :
    t.millis = .ok m := by
  have hword : Word.IsSigned m.toInt := ⟨m.le_toInt, m.toInt_lt⟩
  rw [millis, Word.signed, if_pos hwhole]
  change (Word.signed .add (_ + _)).bind _ = _
  rw [htotal, Word.signed, if_pos hword]
  exact congrArg Except.ok (Int64.ofInt_toInt m)

/-- Whole seconds of which the milliseconds leave the signed word are not counted. -/
theorem millis_eq_error_multiply {t : Timestamp} (h : ¬ Word.IsSigned (t.secs.toInt * 1000)) :
    t.millis = .error .multiply := by
  rw [millis, Word.signed, if_neg h]
  rfl

/-- Whole seconds of which the milliseconds stay within the signed word, but leave it once those of
the fraction are added. -/
theorem millis_eq_error_add {t : Timestamp} (hwhole : Word.IsSigned (t.secs.toInt * 1000))
    (htotal : ¬ Word.IsSigned (t.secs.toInt * 1000 + (t.nanos.toNat / nanosPerMilli : Nat))) :
    t.millis = .error .add := by
  rw [millis, Word.signed, if_pos hwhole]
  change (Word.signed .add (_ + _)).bind _ = _
  rw [Word.signed, if_neg htotal]
  rfl

/-- The milliseconds that are counted are those of the whole seconds and of the fraction. -/
theorem toInt_of_millis {t : Timestamp} {m : Int64} (h : t.millis = .ok m) :
    m.toInt = t.secs.toInt * 1000 + (t.nanos.toNat / nanosPerMilli : Nat) := by
  by_cases hwhole : Word.IsSigned (t.secs.toInt * 1000)
  · by_cases htotal : Word.IsSigned (t.secs.toInt * 1000 + (t.nanos.toNat / nanosPerMilli : Nat))
    · have hcount := Int64.toInt_ofInt_of_le htotal.1 htotal.2
      rw [millis_eq_ok hwhole hcount.symm] at h
      cases h
      exact hcount
    · rw [millis_eq_error_add hwhole htotal] at h
      cases h
  · rw [millis_eq_error_multiply hwhole] at h
    cases h

/-- The whole seconds of a count, in milliseconds, leave the signed word only for the lowest counts.
-/
theorem isSigned_whole_iff (m : Int64) :
    Word.IsSigned ((fromMillis m).secs.toInt * 1000) ↔ -9223372036854775000 ≤ m.toInt := by
  have hhigh := m.toInt_lt
  rw [toInt_secs_fromMillis]
  unfold Word.IsSigned Word.signedLimit
  omega

/-- From the least multiple of 1000 on, a count is counted back. -/
theorem millis_fromMillis {m : Int64} (h : -9223372036854775000 ≤ m.toInt) :
    (fromMillis m).millis = .ok m := by
  refine millis_eq_ok ((isSigned_whole_iff m).mpr h) ?_
  rw [toInt_secs_fromMillis, toNat_nanos_fromMillis, Nat.mul_div_cancel _ (by decide)]
  omega

/-- Below it, the product of seconds and 1000 leaves the signed word. -/
theorem millis_fromMillis_of_lt {m : Int64} (h : m.toInt < -9223372036854775000) :
    (fromMillis m).millis = .error .multiply := by
  apply millis_eq_error_multiply
  rw [isSigned_whole_iff]
  exact Int.not_le.mpr h

/-- Which counts of milliseconds are counted back. A count is split into whole seconds and fraction
without loss. From the least multiple of 1000 in a signed word on, it is counted back as it was, and
no step leaves the word; below that, the product of seconds and 1000 does. -/
theorem millis_fromMillis_iff (m : Int64) (t : Timestamp) :
    ((fromMillis m).secs.toInt = m.toInt / 1000 ∧
      (fromMillis m).nanos.toNat = (m.toInt % 1000).toNat * 1000000) ∧
    ((fromMillis m).millis = .ok m ↔ -9223372036854775000 ≤ m.toInt) ∧
    ((t.setMillis m).millis = .ok m ↔ -9223372036854775000 ≤ m.toInt) ∧
    ((fromMillis m).millis = .error .multiply ↔ m.toInt < -9223372036854775000) ∧
    ((t.setMillis m).millis = .error .multiply ↔ m.toInt < -9223372036854775000) := by
  have hcounted : (fromMillis m).millis = .ok m ↔ -9223372036854775000 ≤ m.toInt := by
    refine ⟨fun hok => Int.not_lt.mp fun hlow => ?_, millis_fromMillis⟩
    rw [millis_fromMillis_of_lt hlow] at hok
    cases hok
  have hfailed : (fromMillis m).millis = .error .multiply ↔ m.toInt < -9223372036854775000 := by
    refine ⟨fun herror => Int.not_le.mp fun hhigh => ?_, millis_fromMillis_of_lt⟩
    rw [millis_fromMillis hhigh] at herror
    cases herror
  exact ⟨⟨toInt_secs_fromMillis m, toNat_nanos_fromMillis m⟩, hcounted, hcounted, hfailed, hfailed⟩

/-- The least count of milliseconds is not counted back, though the next higher multiple of 1000
is. -/
theorem lowest_millis_overflow :
    (fromMillis Int64.minValue).millis = .error .multiply ∧
      (epoch.setMillis Int64.minValue).millis = .error .multiply ∧
      (fromMillis (-9223372036854775000)).millis = .ok (-9223372036854775000) := by
  decide

end TrackedFields.Timestamp
