import Mathlib
import TrackedFields.Calendar.DateTime

/-!
# Days and dates

Counting days and naming dates are inverse to each other. Each day falls into exactly one year of
the calendar, and within the year into exactly one month; counting the days of the date leads back,
and naming the day of a date gives that date. The same holds for seconds and for dates with a time
of day. The count is the one that goes up by one from each date to the next.
-/

namespace TrackedFields.Calendar

/-! ### Years -/

/-- A year is as long as its months are together. -/
theorem daysBeforeYear_succ (year : Int) :
    daysBeforeYear (year + 1) = daysBeforeYear year + (monthLengths (isLeap year)).sum := by
  have hlength (leap : Bool) : (monthLengths leap).sum = if leap then 366 else 365 := by
    cases leap <;> rfl
  rw [hlength]
  unfold daysBeforeYear isLeap
  by_cases h4 : year % 4 = 0 <;> by_cases h100 : year % 100 = 0 <;>
    by_cases h400 : year % 400 = 0 <;> simp [h4, h100, h400] <;> omega

/-- Earlier years start earlier. -/
theorem daysBeforeYear_le {year later : Int} (h : year ≤ later) :
    daysBeforeYear year ≤ daysBeforeYear later := by
  unfold daysBeforeYear
  omega

private theorem meanYear_bounds (n : Int) :
    daysBeforeYear ((n + 719162) * 400 / 146097) ≤ n ∧
      n < daysBeforeYear ((n + 719162) * 400 / 146097 + 3) := by
  unfold daysBeforeYear
  omega

/-- A day lies in its year. -/
theorem yearOfDay_bounds (n : Int) :
    daysBeforeYear (yearOfDay n) ≤ n ∧ n < daysBeforeYear (yearOfDay n + 1) := by
  obtain ⟨hearly, hlate⟩ := meanYear_bounds n
  simp only [yearOfDay]
  split
  · next h => rw [Int.sub_add_cancel]; exact ⟨by rwa [Int.add_sub_cancel], h⟩
  · next h =>
    split
    · next h' => exact ⟨h', by rwa [Int.add_assoc, Int.add_assoc]⟩
    · next h' => exact ⟨Int.not_lt.mp h, Int.not_le.mp h'⟩

/-- A day lies in a year or later exactly if that year has begun. -/
theorem le_yearOfDay_iff (year n : Int) : year ≤ yearOfDay n ↔ daysBeforeYear year ≤ n := by
  obtain ⟨hstart, hend⟩ := yearOfDay_bounds n
  constructor
  · intro h
    exact Int.le_trans (daysBeforeYear_le h) hstart
  · intro h
    refine Int.not_lt.mp fun hlater => ?_
    have hnext : daysBeforeYear (yearOfDay n + 1) ≤ daysBeforeYear year :=
      daysBeforeYear_le hlater
    omega

/-- A day lies in the only year that has begun by then and has not ended. -/
theorem yearOfDay_eq {year n : Int} (hstart : daysBeforeYear year ≤ n)
    (hend : n < daysBeforeYear (year + 1)) : yearOfDay n = year := by
  have hbegun : year ≤ yearOfDay n := (le_yearOfDay_iff year n).mpr hstart
  have hlast : ¬ year + 1 ≤ yearOfDay n := by
    rw [le_yearOfDay_iff]
    exact Int.not_le.mpr hend
  omega

/-! ### Months -/

/-- A day of a year that is left falls into a month of it: the days of the months before and the
place within the month count up to it. -/
theorem monthAndDay_spec {lengths : List Nat} {k : Nat} (h : k < lengths.sum) :
    (monthAndDay lengths k).1 < lengths.length ∧
      (monthAndDay lengths k).2 < lengths.getD (monthAndDay lengths k).1 0 ∧
      (lengths.take (monthAndDay lengths k).1).sum + (monthAndDay lengths k).2 = k := by
  induction lengths generalizing k with
  | nil => exact absurd h (Nat.not_lt_zero k)
  | cons length rest ih =>
    rw [List.sum_cons] at h
    unfold monthAndDay
    split
    · next hk => simp [hk]
    · next hk =>
      obtain ⟨hmonth, hday, hcount⟩ := ih (k := k - length) (by omega)
      refine ⟨?_, ?_, ?_⟩
      · simpa using hmonth
      · simpa using hday
      · simp only [List.take_succ_cons, List.sum_cons]
        omega

/-- A day of a month, counted through the months before, falls into that month. -/
theorem monthAndDay_of_lt {lengths : List Nat} {month day : Nat}
    (h : day < lengths.getD month 0) :
    monthAndDay lengths ((lengths.take month).sum + day) = (month, day) := by
  induction lengths generalizing month with
  | nil => exact absurd h (Nat.not_lt_zero day)
  | cons length rest ih =>
    cases month with
    | zero =>
      have hday : day < length := h
      simp [monthAndDay, hday]
    | succ month =>
      have hday : day < rest.getD month 0 := h
      rw [List.take_succ_cons, List.sum_cons, Nat.add_assoc]
      unfold monthAndDay
      rw [if_neg (by omega), Nat.add_sub_cancel_left, ih hday]

/-- The days up to the end of a month are those before it and its own. -/
theorem sum_take_succ (lengths : List Nat) (month : Nat) :
    (lengths.take (month + 1)).sum = (lengths.take month).sum + lengths.getD month 0 := by
  rw [List.take_add_one, List.sum_append, List.getD_eq_getElem?_getD]
  cases lengths[month]? <;> simp

/-- A day of a month, counted through the months before, is one of the year's days. -/
theorem sum_take_add_lt {lengths : List Nat} {month day : Nat}
    (h : day < lengths.getD month 0) : (lengths.take month).sum + day < lengths.sum := by
  have hsplit : lengths.sum = (lengths.take (month + 1)).sum + (lengths.drop (month + 1)).sum := by
    rw [← List.sum_append, List.take_append_drop]
  rw [hsplit, sum_take_succ]
  omega

/-- Every month has a day. -/
theorem monthLength_pos (year : Int) {month : Nat} (h : month < 12) :
    1 ≤ monthLength year (month + 1) := by
  have hlong (leap : Bool) : ∀ length ∈ monthLengths leap, 1 ≤ length := by
    cases leap <;> decide
  change 1 ≤ (monthLengths (isLeap year)).getD month 0
  rw [List.getD_eq_getElem _ _ h]
  exact hlong _ _ (List.getElem_mem _)

private theorem foldl_add_eq_sum (lengths : List Nat) : lengths.foldl Nat.add 0 = lengths.sum :=
  List.sum_eq_foldl.symm

/-! ### Dates -/

private theorem dayOfYear_lt (n : Int) :
    (n - daysBeforeYear (yearOfDay n)).toNat < (monthLengths (isLeap (yearOfDay n))).sum := by
  obtain ⟨hstart, hend⟩ := yearOfDay_bounds n
  rw [daysBeforeYear_succ] at hend
  omega

/-- The date of a day exists. -/
theorem Date.isValid_ofDayNumber (n : Int) : (Date.ofDayNumber n).IsValid := by
  obtain ⟨hmonth, hday, -⟩ := monthAndDay_spec (dayOfYear_lt n)
  have htwelve : (monthLengths (isLeap (yearOfDay n))).length = 12 := rfl
  rw [htwelve] at hmonth
  exact ⟨Nat.le_add_left 1 _, hmonth, Nat.le_add_left 1 _, hday⟩

/-- The date of a day is that day. -/
theorem Date.dayNumber_ofDayNumber (n : Int) : (Date.ofDayNumber n).dayNumber = n := by
  obtain ⟨-, -, hcount⟩ := monthAndDay_spec (dayOfYear_lt n)
  obtain ⟨hstart, -⟩ := yearOfDay_bounds n
  simp only [Date.dayNumber, Date.ofDayNumber, foldl_add_eq_sum, Nat.add_sub_cancel]
  omega

namespace Date

/-- The month of a date is as long as the calendar says, counted from zero. -/
theorem IsValid.monthLength_eq {d : Date} (h : d.IsValid) :
    monthLength d.year d.month = (monthLengths (isLeap d.year)).getD (d.month - 1) 0 := by
  obtain ⟨month, hmonth⟩ : ∃ month, d.month = month + 1 := ⟨d.month - 1, by have := h.1; omega⟩
  rw [hmonth]
  rfl

/-- The place of a date within its month, from zero, lies below the length of the month. -/
theorem IsValid.day_lt {d : Date} (h : d.IsValid) :
    d.day - 1 < (monthLengths (isLeap d.year)).getD (d.month - 1) 0 := by
  have hlength := h.monthLength_eq
  obtain ⟨-, -, hday, hlast⟩ := h
  omega

/-- The days before a date: those before its year, its month, and itself. -/
theorem IsValid.dayNumber_eq {d : Date} (h : d.IsValid) :
    d.dayNumber = daysBeforeYear d.year +
      (((monthLengths (isLeap d.year)).take (d.month - 1)).sum + (d.day - 1) : Nat) := by
  have hday : 1 ≤ d.day := h.2.2.1
  simp only [dayNumber, foldl_add_eq_sum]
  omega

/-- A date lies in its year. -/
theorem dayNumber_bounds {d : Date} (h : d.IsValid) :
    daysBeforeYear d.year ≤ d.dayNumber ∧ d.dayNumber < daysBeforeYear (d.year + 1) := by
  have hplace := sum_take_add_lt h.day_lt
  rw [h.dayNumber_eq, daysBeforeYear_succ]
  omega

/-- The date of the day of a date is that date. -/
theorem ofDayNumber_dayNumber {d : Date} (h : d.IsValid) : ofDayNumber d.dayNumber = d := by
  obtain ⟨hstart, hend⟩ := dayNumber_bounds h
  have hyear : yearOfDay d.dayNumber = d.year := yearOfDay_eq hstart hend
  have hplace : (d.dayNumber - daysBeforeYear d.year).toNat =
      ((monthLengths (isLeap d.year)).take (d.month - 1)).sum + (d.day - 1) := by
    rw [h.dayNumber_eq]
    omega
  simp only [ofDayNumber, hyear, hplace, monthAndDay_of_lt h.day_lt, Nat.sub_add_cancel h.1,
    Nat.sub_add_cancel h.2.2.1]

/-- The date of the following day. -/
def next (d : Date) : Date :=
  if d.day < monthLength d.year d.month then { d with day := d.day + 1 }
  else if d.month < 12 then ⟨d.year, d.month + 1, 1⟩
  else ⟨d.year + 1, 1, 1⟩

/-- Every date is followed by a date. -/
theorem isValid_next {d : Date} (h : d.IsValid) : d.next.IsValid := by
  obtain ⟨hmonth, htwelve, hday, -⟩ := h
  unfold next
  split
  · next hsame => exact ⟨hmonth, htwelve, Nat.le_add_left 1 _, hsame⟩
  · split
    · next hnext =>
      exact ⟨Nat.le_add_left 1 _, hnext, Nat.le_refl 1, monthLength_pos d.year hnext⟩
    · exact ⟨Nat.le_refl 1, (by decide : 1 ≤ 12), Nat.le_refl 1, monthLength_pos _ (by decide)⟩

/-- From each date to the next, the count goes up by one. -/
theorem dayNumber_next {d : Date} (h : d.IsValid) : d.next.dayNumber = d.dayNumber + 1 := by
  have hlength := h.monthLength_eq
  obtain ⟨hmonth, htwelve, -, hlast⟩ := h
  unfold next
  split
  · simp only [dayNumber]
    omega
  · -- The month is over: up to its end, all its days have been counted.
    have hover := sum_take_succ (monthLengths (isLeap d.year)) (d.month - 1)
    rw [Nat.sub_add_cancel hmonth] at hover
    split
    · simp only [dayNumber, foldl_add_eq_sum, Nat.add_sub_cancel, hover]
      omega
    · have hdecember : (monthLengths (isLeap d.year)).length ≤ d.month := by
        change 12 ≤ d.month
        omega
      rw [List.take_of_length_le hdecember] at hover
      simp only [dayNumber, foldl_add_eq_sum, daysBeforeYear_succ, hover, Nat.sub_self,
        List.take_zero, List.sum_nil]
      omega

end Date

/-! ### Times of day -/

namespace DateTime

/-- The date and time of a second exists, if the calendar has its year. -/
theorem isValid_ofSeconds {s : Int} (hfirst : daysBeforeYear firstYear ≤ s / 86400)
    (hlast : s / 86400 < daysBeforeYear (lastYear + 1)) : (ofSeconds s).IsValid := by
  have hyear : ¬ lastYear + 1 ≤ yearOfDay (s / 86400) := by
    rw [le_yearOfDay_iff]
    omega
  refine ⟨(le_yearOfDay_iff _ _).mpr hfirst, ?_, Date.isValid_ofDayNumber _, ?_, ?_, ?_⟩
  · change yearOfDay (s / 86400) ≤ lastYear
    omega
  · change (s % 86400).toNat / 3600 < 24
    omega
  · change (s % 86400).toNat / 60 % 60 < 60
    omega
  · change (s % 86400).toNat % 60 < 60
    omega

/-- The date and time of a second exists exactly if the second is one from the start of the
calendar's first year to the end of its last. -/
theorem isValid_ofSeconds_iff {s : Int} :
    (ofSeconds s).IsValid ↔ -8334601228800 ≤ s ∧ s ≤ 8210266876799 := by
  have hfirst : daysBeforeYear firstYear = -96465292 := by decide
  have hlast : daysBeforeYear (lastYear + 1) = 95026237 := by decide
  constructor
  · intro h
    obtain ⟨hbegun, hover, -⟩ := h
    have hstart : daysBeforeYear firstYear ≤ s / 86400 := (le_yearOfDay_iff _ _).mp hbegun
    have hend : ¬ daysBeforeYear (lastYear + 1) ≤ s / 86400 := by
      rw [← le_yearOfDay_iff]
      exact Int.not_le.mpr (Int.lt_add_one_of_le hover)
    omega
  · rintro ⟨hstart, hend⟩
    exact isValid_ofSeconds (by omega) (by omega)

/-- A date and time counts the days of its date and the seconds of its day. -/
theorem IsValid.divMod_seconds {t : DateTime} (h : t.IsValid) :
    t.seconds / 86400 = t.date.dayNumber ∧
      t.seconds % 86400 = 3600 * t.hour + 60 * t.minute + t.second := by
  obtain ⟨-, -, -, hhour, hminute, hsecond⟩ := h
  unfold seconds
  omega

/-- The second of a date and time is of that date and time. -/
theorem ofSeconds_seconds {t : DateTime} (h : t.IsValid) : ofSeconds t.seconds = t := by
  obtain ⟨hday, htime⟩ := h.divMod_seconds
  obtain ⟨year, month, day, hour, minute, second⟩ := t
  obtain ⟨-, -, hdate, -, hminute, hsecond⟩ := h
  have hdate : Date.ofDayNumber (Date.dayNumber ⟨year, month, day⟩) = ⟨year, month, day⟩ :=
    Date.ofDayNumber_dayNumber hdate
  dsimp only at hminute hsecond htime
  simp only [ofSeconds, hday, htime, date, hdate, mk.injEq, true_and]
  omega

/-- The seconds of the calendar. -/
theorem IsValid.seconds_bounds {t : DateTime} (h : t.IsValid) :
    -8334601228800 ≤ t.seconds ∧ t.seconds ≤ 8210266876799 := by
  rwa [← isValid_ofSeconds_iff, ofSeconds_seconds h]

/-- The seconds of the calendar fit into a signed word. -/
theorem IsValid.toInt_ofInt_seconds {t : DateTime} (h : t.IsValid) :
    (Int64.ofInt t.seconds).toInt = t.seconds := by
  obtain ⟨hfirst, hlast⟩ := h.seconds_bounds
  exact Int64.toInt_ofInt_of_le (by omega) (by omega)

/-- A date and time that exists passes the check. -/
theorem IsValid.checked {t : DateTime} (h : t.IsValid) : t.checked = some t := if_pos h

/-- A date and time that does not exist fails the check. -/
theorem checked_eq_none {t : DateTime} (h : ¬ t.IsValid) : t.checked = none := if_neg h

/-- The date and time of a second is that second. -/
theorem seconds_ofSeconds (s : Int) : (ofSeconds s).seconds = s := by
  have hdate : (ofSeconds s).date = Date.ofDayNumber (s / 86400) := rfl
  rw [seconds, hdate, Date.dayNumber_ofDayNumber]
  simp only [ofSeconds]
  omega

end DateTime

end TrackedFields.Calendar
