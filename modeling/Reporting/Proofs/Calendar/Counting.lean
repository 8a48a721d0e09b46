import Reporting.Proofs.Calendar.Chronology

/-!
# Counting days

The calendar goes from one day to the next by the lengths of the months (`Civil.next`).  Day numbers
count these steps: the day with the next number is the next day (`Civil.ofDayNumber_add_one`), so the
day with a number lies that many steps behind 1 January 1970, or that many before it
(`Civil.daysBetween_ofDayNumber`).
-/

namespace Reporting.Civil

/-- The day after a day. -/
def next (c : Civil) : Civil :=
  if c.day < monthLength c.year c.month then ⟨c.year, c.month, c.day + 1⟩
  else if c.month < 12 then ⟨c.year, c.month + 1, 1⟩
  else ⟨c.year + 1, 1, 1⟩

/-- Whether so many steps lead from one day to another, back to an earlier day for a negative
number. -/
def DaysBetween (a b : Civil) : Int → Prop
  | .ofNat steps => next^[steps] a = b
  | .negSucc steps => next^[steps + 1] b = a

/-- A day with its number, counted from March on. -/
structure IsMarchForm (c : Civil) (year : Int) (month day : Nat) : Prop where
  month_le : month ≤ 11
  day_pos : 1 ≤ day
  length : (153 * (month : Int) + 2) / 5 + day ≤ (153 * (month : Int) + 155) / 5
  leap : month = 11 → day ≤ 28 ∨ (day = 29 ∧ isLeap (year + 1) = true)
  number : c.dayNumber + 719468 = daysBefore year + (153 * (month : Int) + 2) / 5 + day - 1
  civil : c = if month < 10 then ⟨year, month + 3, day⟩ else ⟨year + 1, month - 9, day⟩

/-- The day with a day number has a form. -/
theorem exists_isMarchForm_ofDayNumber (n : Int) :
    ∃ year month day, IsMarchForm (ofDayNumber n) year month day := by
  obtain ⟨year, month, day, hmonth, hpos, hlength, hleap, hn, hcivil⟩ := exists_ofDayNumber_eq n
  refine ⟨year, month, day, hmonth, hpos, hlength, hleap, ?_, hcivil⟩
  rw [dayNumber_ofDayNumber]
  exact hn

/-- Every day that there is has a form. -/
theorem exists_isMarchForm {c : Civil} (h : c.isValid = true) :
    ∃ year month day, IsMarchForm c year month day := by
  obtain ⟨year, month, day⟩ := c
  simp only [isValid, Bool.and_eq_true, decide_eq_true_eq] at h
  obtain ⟨⟨⟨hfirst, hlast⟩, hpos⟩, hlength⟩ := h
  by_cases hearly : month ≤ 2
  · refine ⟨year - 1, month + 9, day, by omega, hpos, ?_, ?_, ?_, ?_⟩
    · interval_cases month
      · simp [monthLength] at hlength ⊢
        omega
      · simp only [monthLength, if_true] at hlength
        split at hlength <;> omega
    · intro hfebruary
      obtain rfl : month = 2 := by omega
      simp only [monthLength, if_true] at hlength
      split at hlength
      · rename_i hleap
        rw [Int.sub_add_cancel]
        by_cases hday : day = 29
        · exact .inr ⟨hday, hleap⟩
        · exact .inl (by omega)
      · exact .inl hlength
    · simp only [dayNumber, daysBefore, if_pos hearly]
      omega
    · rw [if_neg (by omega), Int.sub_add_cancel, Nat.add_sub_cancel]
  · refine ⟨year, month - 3, day, by omega, hpos, ?_, by omega, ?_, ?_⟩
    · interval_cases month <;> simp [monthLength] at hlength hearly ⊢ <;> omega
    · simp only [dayNumber, daysBefore, if_neg hearly]
      omega
    · rw [if_pos (by omega), Nat.sub_add_cancel (by omega)]

/-- Days with the same number have the same form. -/
theorem IsMarchForm.eq {a b : Civil} {year year' : Int} {month month' day day' : Nat}
    (ha : IsMarchForm a year month day) (hb : IsMarchForm b year' month' day')
    (h : a.dayNumber = b.dayNumber) : a = b := by
  have hend := daysBefore_succ ha.month_le ha.length ha.leap
  have hend' := daysBefore_succ hb.month_le hb.length hb.leap
  have hnumber := ha.number
  have hnumber' := hb.number
  have hpos := ha.day_pos
  have hpos' := hb.day_pos
  have hlength := ha.length
  have hlength' := hb.length
  obtain rfl : year = year' := by
    rcases Int.lt_trichotomy year year' with hless | hsame | hless
    · have hstart := daysBefore_mono (Int.add_one_le_of_lt hless)
      omega
    · exact hsame
    · have hstart := daysBefore_mono (Int.add_one_le_of_lt hless)
      omega
  obtain rfl : month = month' := by omega
  obtain rfl : day = day' := by omega
  rw [ha.civil, hb.civil]

/-- **A valid day is the day with its number.** -/
theorem ofDayNumber_dayNumber {c : Civil} (h : c.isValid = true) : ofDayNumber c.dayNumber = c := by
  obtain ⟨_, _, _, hform⟩ := exists_isMarchForm h
  obtain ⟨_, _, _, hnumber⟩ := exists_isMarchForm_ofDayNumber c.dayNumber
  exact hnumber.eq hform (dayNumber_ofDayNumber c.dayNumber)

/-- There is a day after every day. -/
theorem isValid_next {c : Civil} (h : c.isValid = true) : c.next.isValid = true := by
  simp only [isValid, Bool.and_eq_true, decide_eq_true_eq] at h ⊢
  obtain ⟨⟨⟨hfirst, hlast⟩, hpos⟩, hlength⟩ := h
  have hmonths (year : Int) (month : Nat) : 1 ≤ monthLength year month := by
    unfold monthLength
    split
    · split <;> decide
    · split <;> decide
  unfold next
  split
  · exact ⟨⟨⟨hfirst, hlast⟩, Nat.le_add_left 1 _⟩, by assumption⟩
  · split
    · exact ⟨⟨⟨Nat.le_add_left 1 _, by assumption⟩, le_rfl⟩, hmonths _ _⟩
    · exact ⟨⟨⟨le_rfl, (by decide : 1 ≤ 12)⟩, le_rfl⟩, hmonths _ _⟩

/-- **The next day has the next number.** -/
theorem dayNumber_next {c : Civil} (h : c.isValid = true) : c.next.dayNumber = c.dayNumber + 1 := by
  obtain ⟨year, month, day⟩ := c
  simp only [isValid, Bool.and_eq_true, decide_eq_true_eq] at h
  obtain ⟨⟨⟨hfirst, hlast⟩, hpos⟩, hlength⟩ := h
  unfold next
  dsimp only
  split
  · simp only [dayNumber]
    omega
  · rename_i hend
    have hday : day = monthLength year month := Nat.le_antisymm hlength (Nat.not_lt.mp hend)
    rw [hday]
    by_cases hfebruary : month = 2
    -- Only the length of February depends on the year.
    · subst hfebruary
      have hyear := isLeap_iff year
      by_cases hleap : isLeap year = true
      · simp [dayNumber, monthLength, hleap] at hyear ⊢
        omega
      · simp [dayNumber, monthLength, hleap] at hyear ⊢
        omega
    · interval_cases month <;> simp [dayNumber, monthLength] at hfebruary ⊢ <;> omega

/-- **The day with the next number is the next day.** -/
theorem ofDayNumber_add_one (n : Int) : ofDayNumber (n + 1) = (ofDayNumber n).next := by
  have hvalid := isValid_ofDayNumber n
  rw [← ofDayNumber_dayNumber (isValid_next hvalid), dayNumber_next hvalid, dayNumber_ofDayNumber]

theorem iterate_next_ofDayNumber (n : Int) (steps : Nat) :
    next^[steps] (ofDayNumber n) = ofDayNumber (n + steps) := by
  induction steps with
  | zero => rw [Function.iterate_zero_apply, Int.natCast_zero, Int.add_zero]
  | succ steps ih =>
      rw [Function.iterate_succ_apply', ih, ← ofDayNumber_add_one, Int.natCast_succ, Int.add_assoc]

/-- **Day numbers count the days** from 1 January 1970 on, and back from it. -/
theorem daysBetween_ofDayNumber (n : Int) : DaysBetween ⟨1970, 1, 1⟩ (ofDayNumber n) n := by
  have hepoch : (⟨1970, 1, 1⟩ : Civil) = ofDayNumber 0 := by decide
  rw [hepoch]
  cases n with
  | ofNat steps =>
      show next^[steps] (ofDayNumber 0) = _
      rw [iterate_next_ofDayNumber, Int.zero_add]
      rfl
  | negSucc steps =>
      show next^[steps + 1] (ofDayNumber (Int.negSucc steps)) = _
      rw [iterate_next_ofDayNumber]
      congr 1
      omega

end Reporting.Civil
