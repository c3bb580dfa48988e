import TrackedFields.Arithmetic
import TrackedFields.Text.Described

/-!
# Timestamps

A point in time as whole seconds since the start of 1970 and a fraction in nanoseconds. The
milliseconds of a timestamp count its whole seconds and the millisecond part of its fraction;
setting them replaces the fraction by the millisecond remainder.
-/

namespace TrackedFields

/-- The parts of a timestamp that the calendar names. -/
inductive CalendarField where
  | year
  | month
  | day
  | hours
  | minutes
  | seconds
  deriving DecidableEq

namespace CalendarField

/-- The name of a calendar field in messages. -/
def name : CalendarField → String
  | year => "year"
  | month => "month"
  | day => "day"
  | hours => "hours"
  | minutes => "minutes"
  | seconds => "seconds"

end CalendarField

/-- Why a value cannot be made or changed as asked. -/
inductive ValueError where
  /-- The fraction is a whole second or more. -/
  | nanosOutOfRange (nanos : UInt32)
  /-- No date and time has this value in this place. -/
  | invalidField (field : CalendarField) (value : Int)
  /-- The text is not a timestamp. -/
  | invalidTimestamp (text : String)
  /-- The second lies outside the calendar. -/
  | instantOutOfRange (secs : Int64)
  deriving DecidableEq

namespace ValueError

/-- The text of a value error. -/
def message : ValueError → String
  | nanosOutOfRange nanos =>
    "nanos out of range: " ++ describe nanos.toNat ++ " (expected 0..=999999999)"
  | invalidField field value => "invalid " ++ field.name ++ ": " ++ describe value
  | invalidTimestamp text => "cannot parse timestamp from " ++ describe text
  | instantOutOfRange secs => "instant out of range: " ++ describe secs.toInt ++ "s"

end ValueError

/-- A point in time: whole seconds since the start of 1970, and nanoseconds. -/
structure Timestamp where
  secs : Int64
  nanos : UInt32
  deriving DecidableEq

namespace Timestamp

/-- The nanoseconds of one second. -/
def nanosPerSecond : Nat := 1000000000

/-- The nanoseconds of one millisecond. -/
def nanosPerMilli : Nat := 1000000

/-- The start of 1970. -/
def epoch : Timestamp := ⟨0, 0⟩

/-- The timestamp with the given seconds and a fraction below one second. -/
def new (secs : Int64) (nanos : UInt32) : Except ValueError Timestamp :=
  if nanos.toNat < nanosPerSecond then .ok ⟨secs, nanos⟩ else .error (.nanosOutOfRange nanos)

/-- The timestamp with the given milliseconds since the start of 1970, rounded down to whole
seconds with the remainder as fraction. -/
def fromMillis (millis : Int64) : Timestamp where
  secs := Int64.ofInt (millis.toInt / 1000)
  nanos := UInt32.ofNat ((millis.toInt % 1000).toNat * nanosPerMilli)

/-- The milliseconds since the start of 1970, if each step of counting them stays within a
signed 64-bit word. -/
def millis (t : Timestamp) : Except Overflow Int64 := do
  let whole ← Word.signed .multiply (t.secs.toInt * 1000)
  let total ← Word.signed .add (whole + (t.nanos.toNat / nanosPerMilli : Nat))
  return Int64.ofInt total

/-- Replace the instant; the fraction becomes the millisecond remainder. -/
def setMillis (_ : Timestamp) (millis : Int64) : Timestamp := fromMillis millis

/-- Replace the fraction, keeping the whole seconds. -/
def setNanos (t : Timestamp) (nanos : UInt32) : Except ValueError Timestamp :=
  if nanos.toNat < nanosPerSecond then .ok { t with nanos } else .error (.nanosOutOfRange nanos)

/-- Timestamps are ordered by seconds, then by fraction. -/
instance : Ord Timestamp where
  compare a b := (compare a.secs.toInt b.secs.toInt).then (compare a.nanos.toNat b.nanos.toNat)

/-- The description of a timestamp shows its two parts. -/
instance : Described Timestamp where
  describe t := Text.applied "Timestamp"
    (describe t.secs.toInt ++ "s." ++ String.ofList (Text.Decimal.padded 9 t.nanos.toNat))

end Timestamp

end TrackedFields
