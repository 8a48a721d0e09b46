import Reporting.Calendar.Iso
import Reporting.Proofs.Calendar.Civil
import Reporting.Proofs.Text.Blank

/-!
# Dates in plain form are read back

The plain form of a date is the one that is read first, so every date comes back from it, with or
without a sign in front of its year (`Date.read?_isoChars`).
-/

namespace Reporting

/-- The digits in front of something else are all that is taken, if they are not too many. -/
theorem Text.spanDigitsUpTo_append {width : Nat} {ds rest : List Char}
    (hds : ∀ c ∈ ds, c.isDigit = true) (hlength : ds.length ≤ width)
    (hrest : ds.length = width ∨ ∀ c ∈ rest.head?, c.isDigit = false) :
    spanDigitsUpTo width (ds ++ rest) = (ds, rest) := by
  induction ds generalizing width with
  | nil =>
      cases width with
      | zero => rfl
      | succ width =>
          cases rest with
          | nil => rfl
          | cons c more =>
              have hc : c.isDigit = false := hrest.elim (by simp) fun h => h c rfl
              simp [spanDigitsUpTo, hc]
  | cons d more ih =>
      cases width with
      | zero => simp at hlength
      | succ width =>
          have hmore : spanDigitsUpTo width (more ++ rest) = (more, rest) :=
            ih (fun c hc => hds c (List.mem_cons_of_mem d hc)) (by simpa using hlength)
              (by simpa using hrest)
          simp [spanDigitsUpTo, hds d List.mem_cons_self, hmore]

namespace Calendar

section Numbers

variable {width places n : Nat} {rest : List Char}

theorem number?_zeroPadded (hplaces : 0 < places)
    (hlength : (Text.zeroPadded places n).length ≤ width)
    (hrest : (Text.zeroPadded places n).length = width ∨ ∀ c ∈ rest.head?, c.isDigit = false) :
    number? width (Text.zeroPadded places n ++ rest) = some (n, rest) := by
  have hspan := Text.spanDigitsUpTo_append (fun c hc => Text.isDigit_of_mem_zeroPadded hc) hlength
    hrest
  have hne : Text.zeroPadded places n ≠ [] := by
    have hle := Text.le_length_zeroPadded places n
    exact List.ne_nil_of_length_pos (by omega)
  unfold number?
  rw [hspan]
  simp [hne, Text.numeralValue_zeroPadded]

/-- A text that starts with a padded number starts with no blank. -/
theorem trimStart_zeroPadded (hplaces : 0 < places) :
    Text.trimStart (Text.zeroPadded places n ++ rest) = Text.zeroPadded places n ++ rest := by
  cases hz : Text.zeroPadded places n with
  | nil =>
      have hle := Text.le_length_zeroPadded places n
      rw [hz, List.length_nil] at hle
      omega
  | cons c cs =>
      have hc : c.isDigit = true := Text.isDigit_of_mem_zeroPadded (hz ▸ List.mem_cons_self)
      simp [Text.trimStart, Text.not_isBlank_of_isDigit hc]

/-- A number in two places is read back. -/
theorem part?_zeroPadded (h : n < 100) :
    part? (Text.zeroPadded 2 n ++ rest) = some (n, rest) := by
  have hlength : (Text.zeroPadded 2 n).length = 2 := Text.length_zeroPadded (by decide) h
  unfold part?
  rw [trimStart_zeroPadded (by decide)]
  exact number?_zeroPadded (by decide) hlength.le (.inl hlength)

section Year

variable {cs : List Char} {number : Nat}

theorem year?_minus (h : number? cs.length cs = some (number, rest)) :
    year? ('-' :: cs) = some (-(number : Int), rest) := by
  show (number? cs.length cs).bind _ = _
  rw [h]
  rfl

theorem year?_plus (h : number? cs.length cs = some (number, rest)) :
    year? ('+' :: cs) = some ((number : Int), rest) := by
  show (number? cs.length cs).bind _ = _
  rw [h]
  rfl

theorem year?_of_isDigit {c : Char} (hc : c.isDigit = true)
    (h : number? 4 (c :: cs) = some (number, rest)) :
    year? (c :: cs) = some ((number : Int), rest) := by
  have htrim : Text.trimStart (c :: cs) = c :: cs := by
    simp [Text.trimStart, Text.not_isBlank_of_isDigit hc]
  unfold year?
  rw [htrim]
  split
  · rename_i hsign
    cases hsign
    cases hc
  · rename_i hsign
    cases hsign
    cases hc
  · rw [h]
    rfl

end Year

/-- A year is read back from in front of a hyphen. -/
theorem year?_yearChars (year : Int) :
    year? (yearChars year ++ '-' :: rest) = some (year, '-' :: rest) := by
  have hhyphen : ∀ c ∈ ('-' :: rest).head?, c.isDigit = false := by simp
  unfold yearChars
  split
  · rename_i hfour
    have hlength : (Text.zeroPadded 4 year.natAbs).length = 4 :=
      Text.length_zeroPadded (by decide) (show year.natAbs < 10000 by omega)
    have hnumber : number? 4 (Text.zeroPadded 4 year.natAbs ++ '-' :: rest)
        = some (year.natAbs, '-' :: rest) :=
      number?_zeroPadded (by decide) hlength.le (.inl hlength)
    have hyear : (year.natAbs : Int) = year := Int.natAbs_of_nonneg hfour.1
    cases hz : Text.zeroPadded 4 year.natAbs with
    | nil => simp [hz] at hlength
    | cons c cs =>
        have hc : c.isDigit = true := Text.isDigit_of_mem_zeroPadded (hz ▸ List.mem_cons_self)
        rw [hz] at hnumber
        have hread := year?_of_isDigit hc hnumber
        rwa [hyear] at hread
  · -- Behind a sign the year may have any number of digits.
    have hnumber : number? (Text.zeroPadded 4 year.natAbs ++ '-' :: rest).length
        (Text.zeroPadded 4 year.natAbs ++ '-' :: rest) = some (year.natAbs, '-' :: rest) :=
      number?_zeroPadded (by decide) (by simp) (.inr hhyphen)
    by_cases hnegative : year < 0
    · have hyear : -(year.natAbs : Int) = year := by omega
      have hread := year?_minus hnumber
      rw [if_pos hnegative]
      rwa [hyear] at hread
    · have hyear : (year.natAbs : Int) = year := by omega
      have hread := year?_plus hnumber
      rw [if_neg hnegative]
      rwa [hyear] at hread

end Numbers

/-- A year has no blanks. -/
theorem not_isBlank_of_mem_yearChars {year : Int} {c : Char} (h : c ∈ yearChars year) :
    Text.isBlank c = false := by
  unfold yearChars at h
  split at h
  · exact Text.not_isBlank_of_isDigit (Text.isDigit_of_mem_zeroPadded h)
  · rcases List.mem_cons.mp h with rfl | h
    · split <;> decide
    · exact Text.not_isBlank_of_isDigit (Text.isDigit_of_mem_zeroPadded h)

end Calendar

namespace Date

/-- A date is the date of its day. -/
theorem ofCivil?_civil (d : Date) : ofCivil? d.civil = some d := by
  unfold ofCivil? civil ofDayNumber?
  rw [if_pos (Civil.isValid_ofDayNumber d.dayNumber), Civil.dayNumber_ofDayNumber,
    dif_pos ⟨d.lower, d.upper⟩]

/-- The plain form has no blanks. -/
theorem isBody_isoChars (d : Date) : Text.IsBody d.isoChars := by
  refine Text.isBody_of_forall_not_blank (by simp [isoChars]) fun c hc => ?_
  unfold isoChars at hc
  simp only [List.mem_append, List.mem_cons] at hc
  rcases hc with hyear | rfl | hmonth | rfl | hday
  · exact Calendar.not_isBlank_of_mem_yearChars hyear
  · decide
  · exact Text.not_isBlank_of_isDigit (Text.isDigit_of_mem_zeroPadded hmonth)
  · decide
  · exact Text.not_isBlank_of_isDigit (Text.isDigit_of_mem_zeroPadded hday)

/-- **A date is read back from its plain form.** -/
theorem read?_isoChars (d : Date) : read? d.isoChars = some d := by
  have hbounds : d.civil.month ≤ 12 ∧ d.civil.day ≤ 31 :=
    Civil.le_of_isValid (Civil.isValid_ofDayNumber d.dayNumber)
  have hmonth : d.civil.month < 100 := by omega
  have hday : d.civil.day < 100 := by omega
  have hcivil : Calendar.civil? d.isoChars = some (d.civil, []) := by
    have hdayRead : Calendar.part? (Text.zeroPadded 2 d.civil.day ++ []) = some (d.civil.day, []) :=
      Calendar.part?_zeroPadded hday
    rw [List.append_nil] at hdayRead
    unfold Calendar.civil? isoChars
    simp [Calendar.year?_yearChars, Calendar.char?, Calendar.part?_zeroPadded hmonth, hdayRead]
  have hplain : Calendar.plainDate? d.isoChars = some d := by
    unfold Calendar.plainDate?
    rw [hcivil]
    exact ofCivil?_civil d
  unfold read?
  rw [hplain]
  rfl

end Date

end Reporting
