import Reporting.Proofs.Calendar.Plain

/-!
# Dates in plain form are ordered as texts

An earlier day has an earlier year, or in the same year an earlier month, or in the same month an
earlier day (`Civil.before_ofDayNumber`).  The plain form writes these three from left to right, each
in as many places as any other date does while years have four digits, so it is ordered as a text
like the dates it denotes (`Date.lt_of_isoChars`).
-/

namespace Reporting

namespace Civil

/-- Whether a day comes first by year, then by month, then by day. -/
def Before (a b : Civil) : Prop :=
  a.year < b.year ∨ a.year = b.year ∧ (a.month < b.month ∨ a.month = b.month ∧ a.day < b.day)

/-- A day of a year that starts in March comes before the next such year. -/
theorem daysBefore_succ {year : Int} {month day : Nat} (hmonth : month ≤ 11)
    (hlength : (153 * (month : Int) + 2) / 5 + day ≤ (153 * (month : Int) + 155) / 5)
    (hleap : month = 11 → day ≤ 28 ∨ (day = 29 ∧ isLeap (year + 1) = true)) :
    daysBefore year + (153 * (month : Int) + 2) / 5 + day ≤ daysBefore (year + 1) := by
  unfold daysBefore
  rcases Nat.lt_or_eq_of_le hmonth with hother | rfl
  · omega
  · rcases hleap rfl with hshort | ⟨rfl, hyear⟩
    · omega
    · rw [isLeap_iff] at hyear
      omega

/-- Later years start later. -/
theorem daysBefore_mono {year later : Int} (h : year ≤ later) :
    daysBefore year ≤ daysBefore later := by
  unfold daysBefore
  omega

/-- **An earlier day number has an earlier day.** -/
theorem before_ofDayNumber {m n : Int} (h : m < n) : (ofDayNumber m).Before (ofDayNumber n) := by
  obtain ⟨year, month, day, hmonth, hpos, hlength, hleap, hm, hday⟩ := exists_ofDayNumber_eq m
  obtain ⟨year', month', day', hmonth', hpos', hlength', hleap', hn, hday'⟩ :=
    exists_ofDayNumber_eq n
  have hend' := daysBefore_succ hmonth' hlength' hleap'
  have hyears : year ≤ year' := by
    apply Int.not_lt.mp
    intro hlater
    have hstart := daysBefore_mono (Int.add_one_le_of_lt hlater)
    omega
  have hmonths : year = year' → month < month' ∨ month = month' ∧ day < day' := by
    rintro rfl
    omega
  rw [hday, hday']
  unfold Before
  split <;> split <;> dsimp only <;> omega

end Civil

namespace Date

/-- **Dates whose years have four digits are ordered as texts in plain form**, whatever follows
them. -/
theorem lt_of_isoChars {d e : Date} (h : d.dayNumber < e.dayNumber) (hyear : 0 ≤ d.civil.year)
    (hyear' : e.civil.year ≤ 9999) (rest rest' : List Char) :
    d.isoChars ++ rest < e.isoChars ++ rest' := by
  have hbefore : d.civil.Before e.civil := Civil.before_ofDayNumber h
  have hbounds := Civil.le_of_isValid (Civil.isValid_ofDayNumber e.dayNumber)
  have hmonth : e.civil.month < Nat.pow 10 2 := Nat.lt_of_le_of_lt hbounds.1 (by decide)
  have hday : e.civil.day < Nat.pow 10 2 := Nat.lt_of_le_of_lt hbounds.2 (by decide)
  have hyears : d.civil.year ≤ e.civil.year := by
    unfold Civil.Before at hbefore
    omega
  have hchars : Calendar.yearChars d.civil.year = Text.zeroPadded 4 d.civil.year.natAbs :=
    if_pos ⟨hyear, Int.le_trans hyears hyear'⟩
  have hchars' : Calendar.yearChars e.civil.year = Text.zeroPadded 4 e.civil.year.natAbs :=
    if_pos ⟨Int.le_trans hyear hyears, hyear'⟩
  unfold isoChars
  rw [hchars, hchars', List.append_assoc, List.append_assoc, List.cons_append, List.cons_append,
    List.append_assoc, List.append_assoc, List.cons_append, List.cons_append]
  rcases hbefore with hless | ⟨hsame, hless | ⟨hsame', hless⟩⟩
  · exact Text.zeroPadded_append_lt (by decide) (by omega)
      (show e.civil.year.natAbs < 10000 by omega) _ _
  · rw [hsame]
    refine List.append_left_lt (List.cons_lt_cons_iff.mpr (.inr ⟨rfl, ?_⟩))
    exact Text.zeroPadded_append_lt (by decide) hless hmonth _ _
  · rw [hsame, hsame']
    refine List.append_left_lt (List.cons_lt_cons_iff.mpr (.inr ⟨rfl, ?_⟩))
    refine List.append_left_lt (List.cons_lt_cons_iff.mpr (.inr ⟨rfl, ?_⟩))
    exact Text.zeroPadded_append_lt (by decide) hless hday _ _

end Date

end Reporting
