import Mathlib.Tactic.IntervalCases
import Reporting.Calendar.Date

/-!
# Day numbers and days

A day number leads to a year, a month and a day, and these lead back to it
(`Civil.dayNumber_ofDayNumber`); what it leads to is always a day that there is
(`Civil.isValid_ofDayNumber`).  Both rest on one description of the day, `exists_ofDayNumber_eq`,
in which years start in March.
-/

namespace Reporting.Civil

/-- Every fourth year is a leap year, of the full centuries every fourth one. -/
theorem isLeap_iff (year : Int) :
    isLeap year = true ↔ year % 4 = 0 ∧ (year % 100 ≠ 0 ∨ year % 400 = 0) := by
  simp [isLeap]

/-- A day within four hundred years: its century, the four years of the century, the year of these
four, and the day of that year.  Years have 365 days, and the last of four has one more, except at
the end of the first three centuries. -/
structure EraDay where
  century : Int
  four : Int
  last : Int
  day : Int
  century_range : 0 ≤ century ∧ century ≤ 3
  four_range : 0 ≤ four ∧ four ≤ 24
  last_range : 0 ≤ last ∧ last ≤ 3
  day_range : 0 ≤ day ∧ day ≤ 365
  long : day = 365 → last = 3 ∧ (four = 24 → century = 3)

namespace EraDay

/-- The days before it in the four hundred years. -/
def number (e : EraDay) : Int :=
  36524 * e.century + 1461 * e.four + 365 * e.last + e.day

/-- The years before it in the four hundred years. -/
def year (e : EraDay) : Int :=
  100 * e.century + 4 * e.four + e.last

theorem exists_number_eq {n : Int} (hlower : 0 ≤ n) (hupper : n < 146097) :
    ∃ e : EraDay, e.number = n := by
  have hcentury : ∃ century rest : Int, (0 ≤ century ∧ century ≤ 3) ∧ 0 ≤ rest ∧
      (rest < 36524 ∨ (rest = 36524 ∧ century = 3)) ∧ n = 36524 * century + rest := by
    by_cases hlast : n = 146096
    · exact ⟨3, 36524, by omega⟩
    · exact ⟨n / 36524, n % 36524, by omega⟩
  obtain ⟨century, rest, hrange, hpos, hrest, hn⟩ := hcentury
  have hlast : ∃ last day : Int, (0 ≤ last ∧ last ≤ 3) ∧ 0 ≤ day ∧ day ≤ 365 ∧
      (day = 365 → last = 3) ∧ rest % 1461 = 365 * last + day := by
    by_cases hlong : rest % 1461 = 1460
    · exact ⟨3, 365, by omega⟩
    · exact ⟨rest % 1461 / 365, rest % 1461 % 365, by omega⟩
  obtain ⟨last, day, hlast, hdpos, hday, hlong, hsplit⟩ := hlast
  have hfour : 0 ≤ rest / 1461 ∧ rest / 1461 ≤ 24 := by omega
  have hfull : day = 365 → last = 3 ∧ (rest / 1461 = 24 → century = 3) := by omega
  refine ⟨⟨century, rest / 1461, last, day, hrange, hfour, hlast, ⟨hdpos, hday⟩, hfull⟩, ?_⟩
  unfold number
  dsimp only
  omega

/-- The year comes out of the number by taking the leap days away first. -/
theorem year_eq (e : EraDay) :
    (e.number - e.number / 1460 + e.number / 36524 - e.number / 146096) / 365 = e.year := by
  obtain ⟨century, four, last, day, hcentury, hfour, hlast, hday, hlong⟩ := e
  unfold number year
  dsimp only
  generalize hn : 36524 * century + 1461 * four + 365 * last + day = n
  by_cases hend : n = 146096
  · subst hend
    omega
  · have heras : n / 146096 = 0 := by omega
    have hcenturies : n / 36524 = century := by omega
    -- At most one leap day too many is taken, and then in the last of four years.
    have hleaps : ∃ extra, (extra = 0 ∨ extra = 1 ∧ 1095 < 365 * last + day) ∧
        n / 1460 = 25 * century + four + extra := by
      refine ⟨n / 1460 - 25 * century - four, ?_, by omega⟩
      omega
    obtain ⟨extra, hextra, hleaps⟩ := hleaps
    rw [heras, hcenturies, hleaps]
    omega

theorem day_eq (e : EraDay) : e.number - (365 * e.year + e.year / 4 - e.year / 100) = e.day := by
  have hfour := e.four_range
  have hlast := e.last_range
  have hleaps : e.year / 4 = 25 * e.century + e.four := by
    unfold year
    omega
  have hcenturies : e.year / 100 = e.century := by
    unfold year
    omega
  rw [hleaps, hcenturies]
  unfold number year
  omega

/-- The year after the one of a leap day is a leap year. -/
theorem isLeap_year (e : EraDay) (h : e.day = 365) (era : Int) :
    isLeap (e.year + era * 400 + 1) = true := by
  obtain ⟨hlast, hfull⟩ := e.long h
  have hfour := e.four_range
  have hquarter : (e.year + era * 400 + 1) % 4 = 0 := by
    unfold year
    omega
  have hrule : (e.year + era * 400 + 1) % 100 ≠ 0 ∨ (e.year + era * 400 + 1) % 400 = 0 := by
    unfold year
    omega
  exact (isLeap_iff _).mpr ⟨hquarter, hrule⟩

end EraDay

/-- The days before a year that starts in March. -/
def daysBefore (year : Int) : Int :=
  365 * year + year / 4 - year / 100 + year / 400

theorem EraDay.daysBefore_add_day (e : EraDay) (era : Int) :
    daysBefore (e.year + era * 400) + e.day = 146097 * era + e.number := by
  have hcentury := e.century_range
  have hfour := e.four_range
  have hlast := e.last_range
  unfold daysBefore year number
  omega

/-- A day of a year that starts in March lies in a month. -/
theorem exists_month {rest : Int} (hlower : 0 ≤ rest) (hupper : rest ≤ 365) :
    ∃ month day : Nat, month ≤ 11 ∧ 1 ≤ day ∧ (5 * rest + 2) / 153 = month ∧
      rest - (153 * (month : Int) + 2) / 5 + 1 = day ∧
      (153 * (month : Int) + 2) / 5 + day ≤ (153 * (month : Int) + 155) / 5 := by
  have hmonth : 0 ≤ (5 * rest + 2) / 153 := by omega
  obtain ⟨month, hmonth⟩ := Int.eq_ofNat_of_zero_le hmonth
  have hday : 0 ≤ rest - (153 * (month : Int) + 2) / 5 + 1 := by omega
  obtain ⟨day, hday⟩ := Int.eq_ofNat_of_zero_le hday
  exact ⟨month, day, by omega, by omega, hmonth, hday, by omega⟩

/-- **Every day number has a day.**  Counted from March on, it is a day of a month of a year, and
the leap day is there only in leap years. -/
theorem exists_ofDayNumber_eq (n : Int) : ∃ (year : Int) (month day : Nat),
    month ≤ 11 ∧ 1 ≤ day ∧
      (153 * (month : Int) + 2) / 5 + day ≤ (153 * (month : Int) + 155) / 5 ∧
      (month = 11 → day ≤ 28 ∨ (day = 29 ∧ isLeap (year + 1) = true)) ∧
      n + 719468 = daysBefore year + (153 * (month : Int) + 2) / 5 + day - 1 ∧
      ofDayNumber n =
        if month < 10 then ⟨year, month + 3, day⟩ else ⟨year + 1, month - 9, day⟩ := by
  have hlower : 0 ≤ (n + 719468) % 146097 := by omega
  have hupper : (n + 719468) % 146097 < 146097 := by omega
  obtain ⟨e, he⟩ := EraDay.exists_number_eq hlower hupper
  obtain ⟨month, day, hmonth, hpos, hmonthEq, hdayEq, hlength⟩ :=
    exists_month e.day_range.1 e.day_range.2
  have hdays := e.daysBefore_add_day ((n + 719468) / 146097)
  refine ⟨e.year + (n + 719468) / 146097 * 400, month, day, hmonth, hpos, hlength, ?_, ?_, ?_⟩
  · rintro rfl
    have hrange := e.day_range
    by_cases hleap : e.day = 365
    · exact .inr ⟨by omega, e.isLeap_year hleap _⟩
    · exact .inl (by omega)
  · omega
  · unfold ofDayNumber
    dsimp only
    rw [← he, e.year_eq, e.day_eq, hmonthEq, hdayEq]
    split <;> split
    · congr 1
    · omega
    · omega
    · congr 1
      omega

/-- **The day with a day number has this day number.** -/
theorem dayNumber_ofDayNumber (n : Int) : (ofDayNumber n).dayNumber = n := by
  obtain ⟨year, month, day, hmonth, hpos, -, -, hn, hday⟩ := exists_ofDayNumber_eq n
  rw [hday]
  unfold daysBefore at hn
  unfold dayNumber
  split
  · have hlate : ¬month + 3 ≤ 2 := by omega
    simp only [if_neg hlate]
    omega
  · have hearly : month - 9 ≤ 2 := by omega
    simp only [if_pos hearly]
    omega

/-- **Every day number has a day that there is.** -/
theorem isValid_ofDayNumber (n : Int) : (ofDayNumber n).isValid = true := by
  obtain ⟨year, month, day, hmonth, hpos, hlength, hleap, -, hday⟩ := exists_ofDayNumber_eq n
  have hlast : day ≤ monthLength (ofDayNumber n).year (ofDayNumber n).month := by
    rw [hday]
    unfold monthLength
    rcases Nat.lt_or_eq_of_le hmonth with hother | rfl
    · interval_cases month
      all_goals
        simp
        omega
    · rcases hleap rfl with hshort | ⟨hlong, hyear⟩
      · simp
        split <;> omega
      · simp [hyear]
        omega
  have hmonths : 1 ≤ (ofDayNumber n).month ∧ (ofDayNumber n).month ≤ 12 := by
    rw [hday]
    split <;> dsimp only <;> omega
  have hsame : (ofDayNumber n).day = day := by
    rw [hday]
    split <;> rfl
  unfold isValid
  rw [hsame]
  simp [hmonths.1, hmonths.2, hpos, hlast]

theorem monthLength_le (year : Int) (month : Nat) : monthLength year month ≤ 31 := by
  unfold monthLength
  split
  · split <;> decide
  · split <;> decide

theorem le_of_isValid {c : Civil} (h : c.isValid = true) : c.month ≤ 12 ∧ c.day ≤ 31 := by
  have hlength := monthLength_le c.year c.month
  simp only [isValid, Bool.and_eq_true, decide_eq_true_eq] at h
  omega

end Reporting.Civil
