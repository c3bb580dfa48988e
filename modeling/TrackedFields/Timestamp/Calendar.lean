import TrackedFields.Calendar.DateTime
import TrackedFields.Timestamp.Basic

/-!
# Timestamps in the calendar

The universal date and time of a timestamp, and the setters that replace one calendar field. A
setter changes the whole seconds only, and only if the calendar has the resulting date and time. A
leap second after the last second of the calendar has a date and time, but no setter leads to it.
-/

namespace TrackedFields.Timestamp

open Calendar

/-- Whether the fraction is one second or more, which makes the instant a leap second. -/
def IsLeapSecond (t : Timestamp) : Prop := nanosPerSecond ≤ t.nanos.toNat

instance (t : Timestamp) : Decidable t.IsLeapSecond := inferInstanceAs (Decidable (_ ≤ _))

/-- The date and time of a timestamp within the calendar. Only the last second of a minute can be
followed by a leap second. -/
def dateTime? (t : Timestamp) : Option DateTime :=
  let dateTime := DateTime.ofSeconds t.secs.toInt
  if t.nanos.toNat < 2 * nanosPerSecond ∧ (t.IsLeapSecond → dateTime.second = 59) then
    dateTime.checked
  else none

/-- The date and time with one field replaced. -/
def replace (field : CalendarField) (value : Int) (t : DateTime) : DateTime :=
  match field with
  | .year => { t with year := value }
  | .month => { t with month := value.toNat }
  | .day => { t with day := value.toNat }
  | .hours => { t with hour := value.toNat }
  | .minutes => { t with minute := value.toNat }
  | .seconds => { t with second := value.toNat }

/-- Replace one calendar field, keeping the others and the fraction. -/
def setField (t : Timestamp) (field : CalendarField) (value : Int) :
    Except ValueError Timestamp :=
  match t.dateTime? with
  | none => .error (.instantOutOfRange t.secs)
  | some dateTime =>
    match (replace field value dateTime).checked with
    | none => .error (.invalidField field value)
    | some dateTime =>
      if t.IsLeapSecond ∧ dateTime = .last then .error (.invalidField field value)
      else .ok { t with secs := Int64.ofInt dateTime.seconds }

/-- Set the calendar year. -/
def setYear (t : Timestamp) (year : Int32) : Except ValueError Timestamp :=
  t.setField .year year.toInt

/-- Set the month of the year, 1 to 12. -/
def setMonth (t : Timestamp) (month : UInt32) : Except ValueError Timestamp :=
  t.setField .month month.toNat

/-- Set the day of the month, from 1. -/
def setDay (t : Timestamp) (day : UInt32) : Except ValueError Timestamp :=
  t.setField .day day.toNat

/-- Set the hour of the day, 0 to 23. -/
def setHours (t : Timestamp) (hours : UInt32) : Except ValueError Timestamp :=
  t.setField .hours hours.toNat

/-- Set the minute of the hour, 0 to 59. -/
def setMinutes (t : Timestamp) (minutes : UInt32) : Except ValueError Timestamp :=
  t.setField .minutes minutes.toNat

/-- Set the second of the minute, 0 to 59. -/
def setSeconds (t : Timestamp) (seconds : UInt32) : Except ValueError Timestamp :=
  t.setField .seconds seconds.toNat

end TrackedFields.Timestamp
