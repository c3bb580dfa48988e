import TrackedFields.Proofs.Text.Decimal
import TrackedFields.Proofs.Timestamp.Calendar
import TrackedFields.Timestamp.Text

/-!
# Reading timestamps back

The written form of a timestamp of the calendar has seven runs of digits, and reading these gives
the timestamp back: the date and time names its second, and the zeros that the fraction lost at its
end are filled in again. Reading drops all signs, so this is about the years from 0 on. The year of
an earlier timestamp is read without its sign, which makes another timestamp of it unless the
calendar does not reach that year. A timestamp outside the calendar is written as two runs, which
are refused.
-/

namespace TrackedFields

open Calendar Text Text.Decimal

/-! ### Dates and times -/

namespace Calendar.DateTime

/-- The year is written as a run of at least four digits, with a sign in front of it outside the
years 0 to 9999; the sign belongs to no run. -/
theorem runs_yearText (year : Int) {c : Char} (hc : c.isDigit = false) (cs : List Char) :
    runs (yearText year ++ c :: cs) = padded 4 year.natAbs :: runs cs := by
  unfold yearText
  split
  · rw [show year.toNat = year.natAbs by omega]
    exact runs_append_cons (isRun_padded 4 year.natAbs) hc cs
  · have hsign : (if year < 0 then '-' else '+').isDigit = false := by split <;> rfl
    rw [List.cons_append, runs_cons hsign]
    exact runs_append_cons (isRun_padded 4 year.natAbs) hc cs

/-- The runs of a written date and time. -/
theorem runs_text (t : DateTime) {c : Char} (hc : c.isDigit = false) (cs : List Char) :
    runs (t.text ++ c :: cs) = padded 4 t.year.natAbs :: padded 2 t.month :: padded 2 t.day ::
      padded 2 t.hour :: padded 2 t.minute :: padded 2 t.second :: runs cs := by
  have hyear (cs : List Char) := runs_yearText t.year (c := '-') (by decide) cs
  have hrun (n : Nat) {c : Char} (hc : c.isDigit = false) (cs : List Char) :=
    runs_append_cons (isRun_padded 2 n) hc cs
  simp only [text, List.append_assoc, List.cons_append]
  rw [hyear, hrun _ (by decide), hrun _ (by decide), hrun _ (by decide), hrun _ (by decide),
    hrun _ hc]

/-- The date and time in the year of the same number without its sign. -/
def unsigned (t : DateTime) : DateTime := { t with year := t.year.natAbs }

/-- From year 0 on, there is no sign to lose. -/
theorem unsigned_of_nonneg {t : DateTime} (h : 0 ≤ t.year) : t.unsigned = t := by
  rw [unsigned, Int.natAbs_of_nonneg h]

/-- Leap years lie symmetrically around year 0, and so do the lengths of months. -/
private theorem monthLength_natAbs (year : Int) (month : Nat) :
    monthLength year.natAbs month = monthLength year month := by
  have hleap : isLeap year.natAbs = isLeap year := by
    rw [Bool.eq_iff_iff]
    simp [isLeap]
  cases month with
  | zero => rfl
  | succ month => simp only [monthLength, hleap]

/-- Without its sign the year has the same dates, if it is one of the calendar's. -/
theorem isValid_unsigned_iff {t : DateTime} (h : t.IsValid) :
    t.unsigned.IsValid ↔ -lastYear ≤ t.year := by
  obtain ⟨-, hlast, hdate, htime⟩ := h
  have hunsigned : t.unsigned.date.IsValid := by
    unfold Date.IsValid at hdate ⊢
    change _ ∧ _ ∧ _ ∧ _ ≤ monthLength t.year.natAbs t.month
    rwa [monthLength_natAbs]
  constructor
  · rintro ⟨-, hover, -⟩
    change (t.year.natAbs : Int) ≤ lastYear at hover
    omega
  · intro hreached
    refine ⟨Int.le_trans (by decide) (Int.natCast_nonneg t.year.natAbs), ?_, hunsigned, htime⟩
    change (t.year.natAbs : Int) ≤ lastYear
    omega

end Calendar.DateTime

/-! ### Fractions -/

namespace Timestamp

/-- A text consists of what is left of it without its trailing zeros, and of zeros. -/
theorem trimZeros_fill (ds : List Char) :
    trimZeros ds ++ List.replicate (ds.length - (trimZeros ds).length) '0' = ds := by
  have hzeros : (ds.reverse.takeWhile (· == '0')).reverse =
      List.replicate (ds.length - (trimZeros ds).length) '0' := by
    apply List.eq_replicate_iff.mpr
    constructor
    · have hlength := congrArg List.length (List.takeWhile_append_dropWhile (p := (· == '0'))
        (l := ds.reverse))
      simp only [List.length_append, List.length_reverse] at hlength
      simp only [trimZeros, List.length_reverse]
      omega
    · intro c hc
      simpa using List.all_eq_true.mp List.all_takeWhile c (List.mem_reverse.mp hc)
  rw [← hzeros, trimZeros, ← List.reverse_append, List.takeWhile_append_dropWhile,
    List.reverse_reverse]

/-- The written fraction is a run of digits. -/
theorem isRun_fractionText (nanos : Nat) : IsRun (fractionText nanos) := by
  unfold fractionText
  split
  · exact ⟨List.cons_ne_nil _ _, List.forall_mem_singleton.mpr rfl⟩
  · next ds hds =>
    refine ⟨hds, fun c hc => ?_⟩
    have hpadded := (isRun_padded 9 nanos).digits
    rw [← trimZeros_fill (padded 9 nanos)] at hpadded
    exact hpadded c (List.mem_append_left _ hc)

/-- Filled up with zeros to nine digits, the written fraction is the full one. -/
theorem fractionText_fill {nanos : Nat} (h : nanos < nanosPerSecond) :
    (fractionText nanos).length ≤ 9 ∧
      fractionText nanos ++ List.replicate (9 - (fractionText nanos).length) '0' =
        padded 9 nanos := by
  have hlength : (padded 9 nanos).length = 9 := length_padded (by decide) h
  have hfill := trimZeros_fill (padded 9 nanos)
  rw [hlength] at hfill
  unfold fractionText
  split
  · next hnil =>
    rw [hnil] at hfill
    exact ⟨by decide, hfill⟩
  · have hshorter := congrArg List.length hfill
    rw [List.length_append, hlength] at hshorter
    exact ⟨by omega, hfill⟩

/-- Reading the written fraction gives the nanoseconds. -/
theorem readFraction_fractionText {nanos : Nat} (h : nanos < nanosPerSecond) :
    readFraction (fractionText nanos) = some nanos := by
  obtain ⟨hlength, hfill⟩ := fractionText_fill h
  rw [readFraction, if_pos hlength, hfill, value_padded]

/-! ### Whole timestamps -/

/-- The runs of a written date and time with its fraction name the date and time without the sign of
its year. -/
theorem ofRuns?_text (dateTime : DateTime) {nanos : Nat} (hnanos : nanos < nanosPerSecond) :
    ofRuns? (runs (dateTime.text ++ '.' :: fractionText nanos)) =
      dateTime.unsigned.checked.bind fun dateTime =>
        some ⟨Int64.ofInt dateTime.seconds, UInt32.ofNat nanos⟩ := by
  rw [DateTime.runs_text dateTime (by decide), runs_of_isRun (isRun_fractionText nanos)]
  simp only [ofRuns?, readFraction_fractionText hnanos, value_padded]
  rfl

/-- The runs of a written date and time with its fraction name the timestamp. -/
theorem ofRuns?_written {dateTime : DateTime} (hvalid : dateTime.IsValid)
    (hyear : 0 ≤ dateTime.year) {nanos : Nat} (hnanos : nanos < nanosPerSecond) :
    ofRuns? (runs (dateTime.text ++ '.' :: fractionText nanos)) =
      some ⟨Int64.ofInt dateTime.seconds, UInt32.ofNat nanos⟩ := by
  rw [ofRuns?_text dateTime hnanos, DateTime.unsigned_of_nonneg hyear, hvalid.checked,
    Option.bind_some]

/-- The written form of a timestamp whose second has a date and time, and whose fraction is below
one second. -/
theorem chars_of_isValid {t : Timestamp} (hvalid : (DateTime.ofSeconds t.secs.toInt).IsValid)
    (hnanos : t.nanos.toNat < nanosPerSecond) :
    t.chars = (DateTime.ofSeconds t.secs.toInt).text ++ '.' :: fractionText t.nanos.toNat := by
  rw [chars, dateTime?_eq hnanos, hvalid.checked]
  simp only [Nat.div_eq_of_lt hnanos, Nat.add_zero]

/-- A written timestamp parses back. It has a fraction below one second, and its day lies in one of
the years from 0 to the last one of the calendar; then reading its written form gives the same
seconds and the same nanoseconds. -/
theorem parse_text (t : Timestamp) (hnanos : t.nanos.toNat ≤ 999999999)
    (hfirst : daysBeforeYear 0 ≤ t.secs.toInt / 86400)
    (hlast : t.secs.toInt / 86400 < daysBeforeYear (lastYear + 1)) :
    parse t.text = .ok t := by
  have hbelow : t.nanos.toNat < nanosPerSecond := Nat.lt_succ_of_le hnanos
  have hvalid : (DateTime.ofSeconds t.secs.toInt).IsValid := by
    have hcalendar : daysBeforeYear firstYear ≤ daysBeforeYear 0 :=
      daysBeforeYear_le (by decide)
    exact DateTime.isValid_ofSeconds (Int.le_trans hcalendar hfirst) hlast
  have hyear : 0 ≤ (DateTime.ofSeconds t.secs.toInt).year := (le_yearOfDay_iff 0 _).mpr hfirst
  rw [parse, text, String.toList_ofList, chars_of_isValid hvalid hbelow,
    ofRuns?_written hvalid hyear hbelow, DateTime.seconds_ofSeconds, Int64.ofInt_toInt,
    UInt32.ofNat_toNat]

/-- A year of more than four digits, with a fraction that loses zeros; the last nanosecond of a leap
day before 1970; and the first second of year 0, without a fraction. -/
theorem parse_text_of_far_years :
    let far : Timestamp := ⟨253402300800, 120000000⟩
    let before : Timestamp := ⟨-2077660801, 999999999⟩
    let first : Timestamp := ⟨-62167219200, 0⟩
    (far.text = "+10000-01-01 00:00:00.12" ∧ parse far.text = .ok far) ∧
      (before.text = "1904-02-29 23:59:59.999999999" ∧ parse before.text = .ok before) ∧
      (first.text = "0000-01-01 00:00:00.0" ∧ parse first.text = .ok first) := by
  intro far before first
  exact ⟨⟨by decide, parse_text far (by decide) (by decide) (by decide)⟩,
    ⟨by decide, parse_text before (by decide) (by decide) (by decide)⟩,
    ⟨by decide, parse_text first (by decide) (by decide) (by decide)⟩⟩

/-! ### Years before 0 -/

/-- A timestamp has come to a year exactly if its second has. -/
theorem HasDateTime.le_year_iff {t : Timestamp} {dateTime : DateTime} (h : t.HasDateTime dateTime)
    (year : Int) : year ≤ dateTime.year ↔ 86400 * daysBeforeYear year ≤ t.secs.toInt := by
  obtain ⟨-, rfl⟩ := hasDateTime_iff.mp h
  change year ≤ yearOfDay (t.secs.toInt / 86400) ↔ _
  rw [le_yearOfDay_iff]
  omega

/-- Reading a written timestamp of the calendar gives the one with the same date and time without
the sign of the year. -/
theorem HasDateTime.ofRuns?_chars {t : Timestamp} {dateTime : DateTime}
    (h : t.HasDateTime dateTime) (hnanos : t.nanos.toNat < nanosPerSecond) :
    ofRuns? (runs t.chars) = dateTime.unsigned.checked.bind fun dateTime =>
      some ⟨Int64.ofInt dateTime.seconds, t.nanos⟩ := by
  obtain ⟨-, rfl⟩ := hasDateTime_iff.mp h
  rw [chars_of_isValid h.valid hnanos, ofRuns?_text _ hnanos, UInt32.ofNat_toNat]

/-- A timestamp outside the calendar is written as two runs, its seconds and its fraction, and these
are not read. -/
theorem ofRuns?_chars_of_not_inCalendar {t : Timestamp} (hnanos : t.nanos.toNat < nanosPerSecond)
    (h : ¬ t.InCalendar) : ofRuns? (runs t.chars) = none := by
  have hseconds (cs : List Char) :
      runs (signed t.secs.toInt ++ 's' :: cs) = digits t.secs.toInt.natAbs :: runs cs := by
    have hrun := runs_append_cons (isRun_digits t.secs.toInt.natAbs) (c := 's') (by decide) cs
    unfold signed
    split
    · rw [List.cons_append, runs_cons (by decide), hrun]
    · exact hrun
  have hruns : runs t.rawText = [digits t.secs.toInt.natAbs, padded 9 t.nanos.toNat] := by
    rw [rawText, hseconds, runs_cons (by decide), runs_of_isRun (isRun_padded 9 _)]
  rw [chars, dateTime?_eq_none hnanos h]
  dsimp only
  rw [hruns]
  rfl

/-- Reading a written timestamp is reading its runs. -/
theorem parse_text_eq (t : Timestamp) :
    parse t.text = match ofRuns? (runs t.chars) with
      | some u => .ok u
      | none => .error (.invalidTimestamp t.text) := by
  have hchars : t.text.toList = t.chars := String.toList_ofList
  cases h : ofRuns? (runs t.chars) with
  | none => rw [parse, hchars, h]
  | some u => rw [parse, hchars, h]

/-- Outside the calendar, a written timestamp is refused. -/
theorem parse_text_of_not_inCalendar {t : Timestamp} (hnanos : t.nanos.toNat < nanosPerSecond)
    (h : ¬ t.InCalendar) : parse t.text = .error (.invalidTimestamp t.text) := by
  rw [parse_text_eq, ofRuns?_chars_of_not_inCalendar hnanos h]

namespace HasDateTime

variable {t : Timestamp} {civil : DateTime}

/-- From year 0 on, a written timestamp is read as itself. -/
theorem parse_text_of_nonneg (h : t.HasDateTime civil) (hnanos : t.nanos.toNat < nanosPerSecond)
    (hyear : 0 ≤ civil.year) : parse t.text = .ok t := by
  rw [parse_text_eq, h.ofRuns?_chars hnanos, DateTime.unsigned_of_nonneg hyear, h.valid.checked]
  simp only [Option.bind_some, h.seconds, Int64.ofInt_toInt]

/-- Before year 0, a written timestamp is read as that of the year without the sign. -/
theorem parse_text_of_neg (h : t.HasDateTime civil) (hnanos : t.nanos.toNat < nanosPerSecond)
    (hyear : civil.year < 0) (hreached : -lastYear ≤ civil.year) :
    ∃ u, parse t.text = .ok u ∧ u ≠ t ∧ u.HasDateTime { civil with year := -civil.year } ∧
      u.nanos = t.nanos := by
  have hunsigned : civil.unsigned = { civil with year := -civil.year } := by
    rw [DateTime.unsigned, Int.ofNat_natAbs_of_nonpos (Int.le_of_lt hyear)]
  have hvalid : civil.unsigned.IsValid := (DateTime.isValid_unsigned_iff h.valid).mpr hreached
  have hread : parse t.text = .ok ⟨Int64.ofInt civil.unsigned.seconds, t.nanos⟩ := by
    rw [parse_text_eq, h.ofRuns?_chars hnanos, hvalid.checked, Option.bind_some]
  have hdateTime := hasDateTime_ofInt_seconds hvalid t.nanos
  rw [hunsigned] at hdateTime hread
  refine ⟨_, hread, fun hsame => ?_, hdateTime, rfl⟩
  -- The same timestamp would have both dates.
  rw [hsame] at hdateTime
  have hyears := congrArg DateTime.year ((h.unique _).mp hdateTime)
  dsimp only at hyears
  omega

/-- Before the years that the calendar reaches without the sign, a written timestamp is refused. -/
theorem parse_text_of_lt (h : t.HasDateTime civil) (hnanos : t.nanos.toNat < nanosPerSecond)
    (hyear : civil.year < -lastYear) : parse t.text = .error (.invalidTimestamp t.text) := by
  have hvalid : ¬ civil.unsigned.IsValid := by
    rw [DateTime.isValid_unsigned_iff h.valid]
    exact Int.not_le.mpr hyear
  rw [parse_text_eq, h.ofRuns?_chars hnanos, DateTime.checked_eq_none hvalid]
  rfl

end HasDateTime

/-- When a written timestamp is read as another one: exactly from the start of the year -262142 to
the end of the year -1. Then it is read as the timestamp of the same date and time in the year
without the sign. Later ones are read as themselves; earlier ones, and those outside the calendar,
are refused. -/
theorem misread_iff_signed_year {t : Timestamp} (hnanos : t.nanos.toNat ≤ 999999999) :
    (¬ t.InCalendar → parse t.text = .error (.invalidTimestamp t.text)) ∧
    (∀ civil, t.HasDateTime civil →
      (0 ≤ civil.year → parse t.text = .ok t) ∧
      (civil.year < 0 → -lastYear ≤ civil.year → ∃ u, parse t.text = .ok u ∧ u ≠ t ∧
        u.HasDateTime { civil with year := -civil.year } ∧ u.nanos = t.nanos) ∧
      (civil.year < -lastYear → parse t.text = .error (.invalidTimestamp t.text))) ∧
    ((∀ u, parse t.text = .ok u → u = t) ↔
      t.secs.toInt < -8334569692800 ∨ -62167219200 ≤ t.secs.toInt) := by
  have hbelow : t.nanos.toNat < nanosPerSecond := Nat.lt_succ_of_le hnanos
  refine ⟨parse_text_of_not_inCalendar hbelow, fun civil h => ⟨h.parse_text_of_nonneg hbelow,
    h.parse_text_of_neg hbelow, h.parse_text_of_lt hbelow⟩, ?_⟩
  by_cases hin : t.InCalendar
  · have h : t.HasDateTime (DateTime.ofSeconds t.secs.toInt) := hasDateTime_iff.mpr ⟨hin, rfl⟩
    have hzero := h.le_year_iff 0
    have hreached := h.le_year_iff (-lastYear)
    rw [show daysBeforeYear 0 = -719528 by decide] at hzero
    rw [show daysBeforeYear (-lastYear) = -96464927 by decide] at hreached
    constructor
    · intro hself
      by_contra hbetween
      obtain ⟨u, hread, hother, -⟩ := h.parse_text_of_neg hbelow (by omega) (by omega)
      exact hother (hself u hread)
    · rintro (hearly | hlate) u hread
      · rw [h.parse_text_of_lt hbelow (by omega)] at hread
        cases hread
      · rw [h.parse_text_of_nonneg hbelow (by omega)] at hread
        exact (Except.ok.inj hread).symm
  · have hrefused := parse_text_of_not_inCalendar hbelow hin
    refine iff_of_true (fun u hread => ?_) ?_
    · rw [hrefused] at hread
      cases hread
    · unfold InCalendar at hin
      omega

/-- The last half second of a leap day before year 0 is read as that of the leap day after it; the
start of the calendar, whose year without the sign lies beyond its end, is refused. -/
theorem misread_iff_signed_year_on_leap_day :
    let leapDay : Timestamp := ⟨-62288265601, 500000000⟩
    let first : Timestamp := ⟨-8334601228800, 0⟩
    (leapDay.text = "-0004-02-29 23:59:59.5" ∧
      ∃ u, parse leapDay.text = .ok u ∧ u ≠ leapDay ∧ u.HasDateTime ⟨4, 2, 29, 23, 59, 59⟩ ∧
        u.nanos = 500000000) ∧
    (first.text = "-262143-01-01 00:00:00.0" ∧
      parse first.text = .error (.invalidTimestamp first.text)) ∧
    ¬ (∀ u, parse leapDay.text = .ok u → u = leapDay) ∧
    ∀ u, parse first.text = .ok u → u = first := by
  intro leapDay first
  have hleapDay : leapDay.HasDateTime ⟨-4, 2, 29, 23, 59, 59⟩ := ⟨by decide, by decide⟩
  have hfirst : first.HasDateTime ⟨-262143, 1, 1, 0, 0, 0⟩ := ⟨by decide, by decide⟩
  obtain ⟨-, hread, hself⟩ := misread_iff_signed_year (t := leapDay) (by decide)
  obtain ⟨-, hrefused, hself'⟩ := misread_iff_signed_year (t := first) (by decide)
  exact ⟨⟨by decide, (hread _ hleapDay).2.1 (by decide) (by decide)⟩,
    ⟨by decide, (hrefused _ hfirst).2.2 (by decide)⟩, fun h => absurd (hself.mp h) (by decide),
    hself'.mpr (by decide)⟩

/-- The first second of year -1 is written with a sign and read as the first second of year 1. -/
theorem negative_year_read_as_positive :
    let written : Timestamp := ⟨-62198755200, 0⟩
    new written.secs written.nanos = .ok written ∧ written.text = "-0001-01-01 00:00:00.0" ∧
      parse written.text = .ok ⟨-62135596800, 0⟩ ∧ (⟨-62135596800, 0⟩ : Timestamp) ≠ written := by
  decide

end Timestamp

end TrackedFields
