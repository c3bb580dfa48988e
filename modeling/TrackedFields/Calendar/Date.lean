/-!
# Civil dates

The proleptic Gregorian calendar. A date is counted in days from 1 January 1970, and each day
count belongs to exactly one date. Years are integers: year 0 precedes year 1.
-/

namespace TrackedFields.Calendar

/-- Whether a year has a 29 February: every fourth year, of the centuries every fourth. -/
def isLeap (year : Int) : Bool := year % 4 == 0 && (year % 100 != 0 || year % 400 == 0)

/-- The lengths of the twelve months of a leap or a common year. -/
def monthLengths (leap : Bool) : List Nat :=
  [31, if leap then 29 else 28, 31, 30, 31, 30, 31, 31, 30, 31, 30, 31]

/-- The number of days of a month of a year; there is none outside months 1 to 12. -/
def monthLength (year : Int) (month : Nat) : Nat :=
  match month with
  | 0 => 0
  | m + 1 => (monthLengths (isLeap year)).getD m 0

/-- The days from 1 January 1970 to the first day of a year. -/
def daysBeforeYear (year : Int) : Int :=
  365 * (year - 1) + (year - 1) / 4 - (year - 1) / 100 + (year - 1) / 400 - 719162

/-- A date of the civil calendar. -/
structure Date where
  year : Int
  month : Nat
  day : Nat
  deriving DecidableEq

namespace Date

/-- The month exists and has the day. -/
def IsValid (d : Date) : Prop :=
  1 ≤ d.month ∧ d.month ≤ 12 ∧ 1 ≤ d.day ∧ d.day ≤ monthLength d.year d.month

instance (d : Date) : Decidable d.IsValid := inferInstanceAs (Decidable (_ ∧ _))

/-- The days from 1 January 1970 to a date. -/
def dayNumber (d : Date) : Int :=
  let earlier := ((monthLengths (isLeap d.year)).take (d.month - 1)).foldl Nat.add 0
  daysBeforeYear d.year + earlier + d.day - 1

end Date

/-- The year of a day: the mean length of a year gives it up to one year. -/
def yearOfDay (n : Int) : Int :=
  let year := (n + 719162) * 400 / 146097 + 1
  if n < daysBeforeYear year then year - 1
  else if daysBeforeYear (year + 1) ≤ n then year + 1
  else year

/-- The month that a day of the year falls into and its place within the month, both from
zero, given the lengths of the months to come. -/
def monthAndDay : List Nat → Nat → Nat × Nat
  | [], k => (0, k)
  | len :: rest, k =>
    if k < len then (0, k)
    else
      let (month, day) := monthAndDay rest (k - len)
      (month + 1, day)

/-- The date of a day. -/
def Date.ofDayNumber (n : Int) : Date :=
  let year := yearOfDay n
  let (month, day) := monthAndDay (monthLengths (isLeap year)) (n - daysBeforeYear year).toNat
  ⟨year, month + 1, day + 1⟩

end TrackedFields.Calendar
