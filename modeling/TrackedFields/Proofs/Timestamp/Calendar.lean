import TrackedFields.Proofs.Calendar.Date
import TrackedFields.Timestamp.Edit

/-!
# Setting calendar fields

The date and time of a timestamp is the one whose second it is in; a timestamp within the calendar
has exactly one, any other has none. The main statement says what an edit of a calendar field does:
it leads to the timestamp that has the same date and time but for that field, with the same
fraction, and if there is no such date and time it fails and changes nothing.
-/

namespace TrackedFields.Timestamp

open Calendar

/-! ### Dates and times of timestamps -/

/-- A date and time of the calendar names the whole second of a timestamp. -/
structure HasDateTime (t : Timestamp) (dateTime : DateTime) : Prop where
  valid : dateTime.IsValid
  seconds : dateTime.seconds = t.secs.toInt

/-- The whole second of a timestamp is one of the calendar's. -/
def InCalendar (t : Timestamp) : Prop :=
  -8334601228800 ≤ t.secs.toInt ∧ t.secs.toInt ≤ 8210266876799

/-- A timestamp has no other date and time than that of its second. -/
theorem hasDateTime_iff {t : Timestamp} {dateTime : DateTime} :
    t.HasDateTime dateTime ↔ t.InCalendar ∧ dateTime = DateTime.ofSeconds t.secs.toInt := by
  rw [InCalendar, ← DateTime.isValid_ofSeconds_iff]
  constructor
  · rintro ⟨hvalid, hseconds⟩
    rw [← hseconds, DateTime.ofSeconds_seconds hvalid]
    exact ⟨hvalid, rfl⟩
  · rintro ⟨hvalid, rfl⟩
    exact ⟨hvalid, DateTime.seconds_ofSeconds _⟩

/-- What has a date and time has no other. -/
theorem HasDateTime.unique {t : Timestamp} {dateTime : DateTime} (h : t.HasDateTime dateTime)
    (other : DateTime) : t.HasDateTime other ↔ other = dateTime := by
  obtain ⟨hin, hdateTime⟩ := hasDateTime_iff.mp h
  rw [hasDateTime_iff, hdateTime]
  exact and_iff_right hin

/-- The timestamp of a date and time, with any fraction, has that date and time. -/
theorem hasDateTime_ofInt_seconds {dateTime : DateTime} (h : dateTime.IsValid) (nanos : UInt32) :
    HasDateTime ⟨Int64.ofInt dateTime.seconds, nanos⟩ dateTime :=
  ⟨h, h.toInt_ofInt_seconds.symm⟩

/-- The date and time of a timestamp with a fraction below one second. -/
theorem dateTime?_eq {t : Timestamp} (hnanos : t.nanos.toNat < nanosPerSecond) :
    t.dateTime? = (DateTime.ofSeconds t.secs.toInt).checked := by
  have hleap : ¬ t.IsLeapSecond := Nat.not_le.mpr hnanos
  rw [dateTime?, if_pos ⟨by omega, fun h => absurd h hleap⟩]

/-- Outside the calendar there is no date and time. -/
theorem dateTime?_eq_none {t : Timestamp} (hnanos : t.nanos.toNat < nanosPerSecond)
    (h : ¬ t.InCalendar) : t.dateTime? = none := by
  rw [InCalendar, ← DateTime.isValid_ofSeconds_iff] at h
  rw [dateTime?_eq hnanos, DateTime.checked_eq_none h]

/-- Within the calendar the date and time is found. -/
theorem HasDateTime.dateTime?_eq {t : Timestamp} {dateTime : DateTime}
    (h : t.HasDateTime dateTime) (hnanos : t.nanos.toNat < nanosPerSecond) :
    t.dateTime? = some dateTime := by
  rw [Timestamp.dateTime?_eq hnanos, ← h.seconds, DateTime.ofSeconds_seconds h.valid,
    h.valid.checked]

/-! ### Replacing one field -/

/-- A field of a timestamp outside the calendar cannot be replaced. -/
theorem setField_of_not_inCalendar {t : Timestamp} (hnanos : t.nanos.toNat < nanosPerSecond)
    (h : ¬ t.InCalendar) (field : CalendarField) (value : Int) :
    t.setField field value = .error (.instantOutOfRange t.secs) := by
  rw [setField, dateTime?_eq_none hnanos h]

/-- The replaced field makes a date and time: the timestamp moves to its second. -/
theorem HasDateTime.setField_of_isValid {t : Timestamp} {dateTime : DateTime}
    (h : t.HasDateTime dateTime) (hnanos : t.nanos.toNat < nanosPerSecond) {field : CalendarField}
    {value : Int} (hvalid : (replace field value dateTime).IsValid) :
    t.setField field value =
      .ok { t with secs := Int64.ofInt (replace field value dateTime).seconds } := by
  have hleap : ¬ t.IsLeapSecond := Nat.not_le.mpr hnanos
  rw [setField, h.dateTime?_eq hnanos]
  dsimp only
  rw [hvalid.checked]
  exact if_neg fun hlast => hleap hlast.1

/-- The replaced field makes no date and time: the value is refused. -/
theorem HasDateTime.setField_of_not_isValid {t : Timestamp} {dateTime : DateTime}
    (h : t.HasDateTime dateTime) (hnanos : t.nanos.toNat < nanosPerSecond) {field : CalendarField}
    {value : Int} (hvalid : ¬ (replace field value dateTime).IsValid) :
    t.setField field value = .error (.invalidField field value) := by
  rw [setField, h.dateTime?_eq hnanos]
  dsimp only
  rw [DateTime.checked_eq_none hvalid]

/-! ### Edits -/

namespace Edit

/-- The calendar field that an edit replaces, and the value it asks for. -/
def calendarField? : Edit → Option (CalendarField × Int)
  | .millis _ | .nanos _ => none
  | .year value => some (.year, value.toInt)
  | .month value => some (.month, value.toNat)
  | .day value => some (.day, value.toNat)
  | .hours value => some (.hours, value.toNat)
  | .minutes value => some (.minutes, value.toNat)
  | .seconds value => some (.seconds, value.toNat)

/-- Edits of calendar fields replace the field. -/
theorem apply_eq_setField {e : Edit} {field : CalendarField} {value : Int}
    (h : e.calendarField? = some (field, value)) (t : Timestamp) :
    e.apply t = t.setField field value := by
  cases e <;> cases h <;> rfl

/-- What a timestamp is after an edit in place. An edit that fails leaves it as it is. -/
def after (e : Edit) (t : Timestamp) : Timestamp := (e.apply t).toOption.getD t

/-- What a successful edit gives is what the timestamp is afterwards. -/
theorem after_of_ok {e : Edit} {t u : Timestamp} (h : e.apply t = .ok u) : e.after t = u := by
  rw [after, h]
  rfl

/-- A failed edit changes nothing. -/
theorem after_of_error {e : Edit} {t : Timestamp} {error : ValueError}
    (h : e.apply t = .error error) : e.after t = t := by
  rw [after, h]
  rfl

/-- What a timestamp is after edits in place, one after the other. -/
def afterAll (edits : List Edit) (t : Timestamp) : Timestamp :=
  edits.foldl (fun t e => e.after t) t

end Edit

/-- An edit of a calendar field changes one field or nothing. Outside the calendar it fails. Within
it, the timestamp has exactly one date and time; if replacing the field makes a date and time of the
calendar, the timestamp has exactly that one afterwards, with the same fraction, and otherwise the
value is refused and the timestamp stays as it is. -/
theorem calendar_edit_replaces_one_field {t : Timestamp} (hnanos : t.nanos.toNat ≤ 999999999)
    {e : Edit} {field : CalendarField} {value : Int}
    (hedit : e.calendarField? = some (field, value)) :
    (¬ t.InCalendar → e.apply t = .error (.instantOutOfRange t.secs) ∧ e.after t = t) ∧
    (t.InCalendar → ∃ civil, (∀ other, t.HasDateTime other ↔ other = civil) ∧
      ((replace field value civil).IsValid → e.apply t = .ok (e.after t) ∧
        (∀ other, (e.after t).HasDateTime other ↔ other = replace field value civil) ∧
        (e.after t).nanos = t.nanos) ∧
      (¬ (replace field value civil).IsValid →
        e.apply t = .error (.invalidField field value) ∧ e.after t = t)) := by
  have hbelow : t.nanos.toNat < nanosPerSecond := Nat.lt_succ_of_le hnanos
  have happly : e.apply t = t.setField field value := Edit.apply_eq_setField hedit t
  constructor
  · intro hout
    have herror := happly.trans (setField_of_not_inCalendar hbelow hout field value)
    exact ⟨herror, Edit.after_of_error herror⟩
  · intro hin
    have hcivil : t.HasDateTime (DateTime.ofSeconds t.secs.toInt) := hasDateTime_iff.mpr ⟨hin, rfl⟩
    refine ⟨_, hcivil.unique, fun hvalid => ?_, fun hvalid => ?_⟩
    · have hok := happly.trans (hcivil.setField_of_isValid hbelow hvalid)
      rw [Edit.after_of_ok hok]
      exact ⟨hok, (hasDateTime_ofInt_seconds hvalid t.nanos).unique, rfl⟩
    · have herror := happly.trans (hcivil.setField_of_not_isValid hbelow hvalid)
      exact ⟨herror, Edit.after_of_error herror⟩

/-- The last second of a leap day before year 0: the year 2000 has that day, the year 2023 does not.
One second after the end of the calendar no field can be set. -/
theorem calendar_edit_replaces_one_field_on_leap_day :
    let leapDay : Timestamp := ⟨-62288265601, 5⟩
    let beyond : Timestamp := ⟨8210266876800, 999999999⟩
    (leapDay.HasDateTime ⟨-4, 2, 29, 23, 59, 59⟩ ∧
      (Edit.year 2000).apply leapDay = .ok ((Edit.year 2000).after leapDay) ∧
      ((Edit.year 2000).after leapDay).HasDateTime ⟨2000, 2, 29, 23, 59, 59⟩ ∧
      ((Edit.year 2000).after leapDay).nanos = 5) ∧
    ((Edit.year 2023).apply leapDay = .error (.invalidField .year 2023) ∧
      (Edit.year 2023).after leapDay = leapDay) ∧
    (Edit.day 1).apply beyond = .error (.instantOutOfRange 8210266876800) ∧
      (Edit.day 1).after beyond = beyond := by
  intro leapDay beyond
  have hcivil : leapDay.HasDateTime ⟨-4, 2, 29, 23, 59, 59⟩ := ⟨by decide, by decide⟩
  have hin : leapDay.InCalendar := (hasDateTime_iff.mp hcivil).1
  have hout : ¬ beyond.InCalendar := fun h => absurd h.2 (by decide)
  obtain ⟨-, h2000⟩ := calendar_edit_replaces_one_field (t := leapDay) (by decide)
    (e := .year 2000) rfl
  obtain ⟨civil, hunique, hchanged, -⟩ := h2000 hin
  obtain rfl := (hunique _).mp hcivil
  obtain ⟨hok, hdateTime, hnanos⟩ := hchanged (by decide)
  obtain ⟨-, h2023⟩ := calendar_edit_replaces_one_field (t := leapDay) (by decide)
    (e := .year 2023) rfl
  obtain ⟨civil, hunique, -, hrefused⟩ := h2023 hin
  obtain rfl := (hunique _).mp hcivil
  obtain ⟨hbeyond, -⟩ := calendar_edit_replaces_one_field (t := beyond) (by decide)
    (e := .day 1) rfl
  exact ⟨⟨hcivil, hok, (hdateTime _).mpr rfl, hnanos⟩, hrefused (by decide), hbeyond hout⟩

end TrackedFields.Timestamp
