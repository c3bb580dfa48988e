import TrackedFields.Timestamp.Calendar

/-!
# Edits of timestamps

The ways to change a part of a timestamp, as values. Milliseconds replace the whole instant; the
other edits replace one part and keep the rest.
-/

namespace TrackedFields.Timestamp

/-- A new value for a part of a timestamp. -/
inductive Edit where
  | millis (value : Int64)
  | nanos (value : UInt32)
  | year (value : Int32)
  | month (value : UInt32)
  | day (value : UInt32)
  | hours (value : UInt32)
  | minutes (value : UInt32)
  | seconds (value : UInt32)
  deriving DecidableEq

/-- The timestamp after an edit, unless the new value is out of range. -/
def Edit.apply (edit : Edit) (t : Timestamp) : Except ValueError Timestamp :=
  match edit with
  | .millis value => .ok (t.setMillis value)
  | .nanos value => t.setNanos value
  | .year value => t.setYear value
  | .month value => t.setMonth value
  | .day value => t.setDay value
  | .hours value => t.setHours value
  | .minutes value => t.setMinutes value
  | .seconds value => t.setSeconds value

end TrackedFields.Timestamp
