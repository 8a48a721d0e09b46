import Reporting.Calendar.Date

/-!
# Days within weeks and years

The day of the week, the day of the year, and the three ways to number the weeks of a year: from
its first Sunday, from its first Monday, and by the ISO rule that a week belongs to the year of
its Thursday.
-/

namespace Reporting.Date

/-- Days since the last Monday, from 0 to 6. -/
def sinceMonday (d : Date) : Nat :=
  ((d.dayNumber + 3) % 7).toNat

/-- Days since the last Sunday, from 0 to 6. -/
def sinceSunday (d : Date) : Nat :=
  ((d.dayNumber + 4) % 7).toNat

/-- The number of the day within its year, from 1. -/
def dayOfYear (d : Date) : Nat :=
  (d.dayNumber - Civil.dayNumber ⟨d.civil.year, 1, 1⟩ + 1).toNat

/-- The quarter of the year, from 1 to 4. -/
def quarter (d : Date) : Nat :=
  (d.civil.month - 1) / 3 + 1

/-- The week of the year when weeks start on Sunday and the first one with the first Sunday. -/
def sundayWeek (d : Date) : Nat :=
  (d.dayOfYear + 6 - d.sinceSunday) / 7

/-- The week of the year when weeks start on Monday and the first one with the first Monday. -/
def mondayWeek (d : Date) : Nat :=
  (d.dayOfYear + 6 - d.sinceMonday) / 7

/-- The day number of the Thursday in the week of a date. -/
def thursday (d : Date) : Int :=
  d.dayNumber - d.sinceMonday + 3

/-- The year that the week of a date belongs to. -/
def isoYear (d : Date) : Int :=
  (Civil.ofDayNumber d.thursday).year

/-- The number of the week of a date in the year it belongs to, from 1. -/
def isoWeek (d : Date) : Nat :=
  ((d.thursday - Civil.dayNumber ⟨d.isoYear, 1, 1⟩) / 7 + 1).toNat

end Reporting.Date
