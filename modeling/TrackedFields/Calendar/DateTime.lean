import TrackedFields.Calendar.Date
import TrackedFields.Text.Decimal

/-!
# Dates with a time of day

A civil date with hour, minute and second in universal time, counted in seconds from the start
of 1970. The calendar covers the years from -262143 to 262142.
-/

namespace TrackedFields.Calendar

/-- The first year of the calendar. -/
def firstYear : Int := -262143

/-- The last year of the calendar. -/
def lastYear : Int := 262142

/-- A date and a time of day. -/
structure DateTime where
  year : Int
  month : Nat
  day : Nat
  hour : Nat
  minute : Nat
  second : Nat
  deriving DecidableEq

namespace DateTime

/-- The date. -/
def date (t : DateTime) : Date := ⟨t.year, t.month, t.day⟩

/-- The date exists, the time of day exists, and the year is one of the calendar's. -/
def IsValid (t : DateTime) : Prop :=
  firstYear ≤ t.year ∧ t.year ≤ lastYear ∧ t.date.IsValid ∧
    t.hour < 24 ∧ t.minute < 60 ∧ t.second < 60

instance (t : DateTime) : Decidable t.IsValid := inferInstanceAs (Decidable (_ ∧ _))

/-- The date and time itself if it is valid. -/
def checked (t : DateTime) : Option DateTime := if t.IsValid then some t else none

/-- The last second of the calendar. -/
def last : DateTime := ⟨lastYear, 12, 31, 23, 59, 59⟩

/-- The seconds from the start of 1970. -/
def seconds (t : DateTime) : Int :=
  86400 * t.date.dayNumber + 3600 * t.hour + 60 * t.minute + t.second

/-- The date and time of a second, in whatever year it falls. -/
def ofSeconds (s : Int) : DateTime :=
  let date := Date.ofDayNumber (s / 86400)
  let time := (s % 86400).toNat
  ⟨date.year, date.month, date.day, time / 3600, time / 60 % 60, time % 60⟩

/-- The written year: four digits, with a sign in front outside the years 0 to 9999. -/
def yearText (year : Int) : List Char :=
  if 0 ≤ year ∧ year ≤ 9999 then Text.Decimal.padded 4 year.toNat
  else (if year < 0 then '-' else '+') :: Text.Decimal.padded 4 year.natAbs

/-- The written form: date and time of day, separated by a space. -/
def text (t : DateTime) : List Char :=
  yearText t.year ++ '-' :: (Text.Decimal.padded 2 t.month ++
    '-' :: (Text.Decimal.padded 2 t.day ++ ' ' :: (Text.Decimal.padded 2 t.hour ++
      ':' :: (Text.Decimal.padded 2 t.minute ++ ':' :: Text.Decimal.padded 2 t.second))))

end DateTime

end TrackedFields.Calendar
