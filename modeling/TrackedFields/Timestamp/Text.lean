import TrackedFields.Timestamp.Calendar

/-!
# Timestamps as text

The written form of a timestamp is its date and time of day in universal time, a point, and the
fraction without trailing zeros but with at least one digit; a timestamp outside the calendar is
written as its seconds and its full fraction. Reading takes the runs of digits of a text, six or
seven of them, whatever stands between them.
-/

namespace TrackedFields.Timestamp

open Calendar Text

/-- The text without its trailing zeros. -/
def trimZeros (ds : List Char) : List Char := (ds.reverse.dropWhile (· == '0')).reverse

/-- The written fraction: nine digits without trailing zeros, at least one digit. -/
def fractionText (nanos : Nat) : List Char :=
  match trimZeros (Decimal.padded 9 nanos) with
  | [] => ['0']
  | ds => ds

/-- The seconds and the full fraction, for timestamps outside the calendar. -/
def rawText (t : Timestamp) : List Char :=
  Decimal.signed t.secs.toInt ++ 's' :: '.' :: Decimal.padded 9 t.nanos.toNat

/-- The written date and time. In a leap second the seconds read 60. -/
def chars (t : Timestamp) : List Char :=
  match t.dateTime? with
  | none => t.rawText
  | some dateTime =>
    let leap := t.nanos.toNat / nanosPerSecond
    { dateTime with second := dateTime.second + leap }.text ++ '.' :: fractionText t.nanos.toNat

/-- The written form of a timestamp. -/
def text (t : Timestamp) : String := String.ofList t.chars

/-- The fraction given by a run of at most nine digits, filled up with zeros on the right. -/
def readFraction (ds : List Char) : Option Nat :=
  if ds.length ≤ 9 then some (Decimal.value (ds ++ List.replicate (9 - ds.length) '0')) else none

/-- The timestamp with the given runs of digits: year, month, day, hour, minute, second and
possibly a fraction. -/
def ofRuns? (runs : List (List Char)) : Option Timestamp :=
  match runs with
  | year :: month :: day :: hour :: minute :: second :: rest => do
    let nanos ← match rest with
      | [] => some 0
      | [fraction] => readFraction fraction
      | _ => none
    let dateTime ← DateTime.checked ⟨Decimal.value year, Decimal.value month, Decimal.value day,
      Decimal.value hour, Decimal.value minute, Decimal.value second⟩
    some ⟨Int64.ofInt dateTime.seconds, UInt32.ofNat nanos⟩
  | _ => none

/-- The timestamp that a text names. -/
def parse (s : String) : Except ValueError Timestamp :=
  match ofRuns? (Decimal.runs s.toList) with
  | some t => .ok t
  | none => .error (.invalidTimestamp s)

end TrackedFields.Timestamp
