/-!
# Calendar dates

A date is a day number, counted from 1 January 1970, within the years `-262143` to `262142` of the
proleptic Gregorian calendar.  Order and equality of dates are those of their day numbers.

Year, month and day are computed from the day number and lead back to it.  Both directions count
years from March on, so that the leap day is the last day of a year.
-/

namespace Reporting

/-- A year, a month and a day of the month. -/
structure Civil where
  year : Int
  month : Nat
  day : Nat
  deriving DecidableEq, Repr

namespace Civil

/-- Leap years. -/
def isLeap (year : Int) : Bool :=
  year % 4 == 0 && (year % 100 != 0 || year % 400 == 0)

/-- The number of days of a month. -/
def monthLength (year : Int) (month : Nat) : Nat :=
  if month = 2 then (if isLeap year then 29 else 28)
  else if month = 4 ∨ month = 6 ∨ month = 9 ∨ month = 11 then 30
  else 31

/-- Whether there is such a day. -/
def isValid (c : Civil) : Bool :=
  1 ≤ c.month && c.month ≤ 12 && 1 ≤ c.day && c.day ≤ monthLength c.year c.month

/-- The days from 1 January 1970 to this day. -/
def dayNumber (c : Civil) : Int :=
  let year := if c.month ≤ 2 then c.year - 1 else c.year
  let month : Int := if c.month ≤ 2 then c.month + 9 else c.month - 3
  365 * year + year / 4 - year / 100 + year / 400 + (153 * month + 2) / 5 + c.day - 1 - 719468

/-- The day with a day number. -/
def ofDayNumber (n : Int) : Civil :=
  let days := n + 719468
  let era := days / 146097
  let dayOfEra := days % 146097
  let yearOfEra :=
    (dayOfEra - dayOfEra / 1460 + dayOfEra / 36524 - dayOfEra / 146096) / 365
  let dayOfYear := dayOfEra - (365 * yearOfEra + yearOfEra / 4 - yearOfEra / 100)
  let month := (5 * dayOfYear + 2) / 153
  let day := dayOfYear - (153 * month + 2) / 5 + 1
  let year := yearOfEra + era * 400
  if month < 10 then ⟨year, (month + 3).toNat, day.toNat⟩
  else ⟨year + 1, (month - 9).toNat, day.toNat⟩

end Civil

/-- A date between 1 January `-262143` and 31 December `262142`. -/
structure Date where
  dayNumber : Int
  lower : -96465292 ≤ dayNumber
  upper : dayNumber ≤ 95026236
  deriving DecidableEq

namespace Date

/-- The date with a day number, if it is in range. -/
def ofDayNumber? (n : Int) : Option Date :=
  if h : -96465292 ≤ n ∧ n ≤ 95026236 then some ⟨n, h.1, h.2⟩ else none

/-- The date of a year, a month and a day, if there is one. -/
def ofCivil? (c : Civil) : Option Date :=
  if c.isValid then ofDayNumber? c.dayNumber else none

/-- The first of January 1970. -/
def epoch : Date :=
  ⟨0, by decide, by decide⟩

instance : Inhabited Date := ⟨epoch⟩

/-- The year, month and day of a date. -/
def civil (d : Date) : Civil :=
  Civil.ofDayNumber d.dayNumber

/-- Order by time. -/
def compare (a b : Date) : Ordering :=
  Ord.compare a.dayNumber b.dayNumber

/-- The number of milliseconds in a day. -/
def millisecondsPerDay : Int := 86400000

/-- The date of a moment counted in milliseconds from the start of 1970. -/
def ofMilliseconds? (n : Int) : Option Date :=
  ofDayNumber? (n / millisecondsPerDay)

end Date

end Reporting
