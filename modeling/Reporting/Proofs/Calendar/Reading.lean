import Mathlib.Data.List.TakeWhile
import Reporting.Calendar.Iso
import Reporting.Proofs.Text.Blank

/-!
# What a date in text is made of

Every reader of a part of a date passes over characters of a small set and leaves the rest of the
text as it is.  A text is a date only if all of it is passed over, so a character outside the set
makes it unreadable.  In each of the three forms a year, a month and a day have hyphens between them,
and only a fraction of a second can end a date with more than two digits.  `Date.isDateText_of_read?`
says all of this of a text that is read as a date.
-/

namespace Reporting

namespace Calendar

/-- The characters that the three forms of a date are written with. -/
def isDateChar (c : Char) : Bool :=
  c.isDigit || Text.isBlank c || "+-Tt:.Zz\u2212".toList.contains c

/-- From one place of a text to a later one over characters of dates, with at least so many
hyphens among them. -/
def Passes (hyphens : Nat) (cs rest : List Char) : Prop :=
  ∃ passed, cs = passed ++ rest ∧ (∀ c ∈ passed, isDateChar c = true) ∧ hyphens ≤ passed.count '-'

namespace Passes

theorem refl (cs : List Char) : Passes 0 cs cs :=
  ⟨[], rfl, by simp, Nat.zero_le _⟩

theorem trans {m n : Nat} {cs mid rest : List Char} (h : Passes m cs mid)
    (hnext : Passes n mid rest) : Passes (m + n) cs rest := by
  obtain ⟨front, rfl, hfront, hm⟩ := h
  obtain ⟨back, rfl, hback, hn⟩ := hnext
  refine ⟨front ++ back, (List.append_assoc _ _ _).symm, ?_, ?_⟩
  · intro c hc
    rcases List.mem_append.mp hc with hc | hc
    · exact hfront c hc
    · exact hback c hc
  · rw [List.count_append]
    omega

theorem cons {c : Char} (hc : isDateChar c = true) (rest : List Char) : Passes 0 (c :: rest) rest :=
  ⟨[c], rfl, by simpa using hc, Nat.zero_le _⟩

theorem hyphen (rest : List Char) : Passes 1 ('-' :: rest) rest :=
  ⟨['-'], rfl, fun _ hc => List.mem_singleton.mp hc ▸ (by decide), by decide⟩

end Passes

theorem isDateChar_of_isDigit {c : Char} (h : c.isDigit = true) : isDateChar c = true := by
  simp [isDateChar, h]

theorem isDateChar_of_isBlank {c : Char} (h : Text.isBlank c = true) : isDateChar c = true := by
  simp [isDateChar, h]

theorem not_isBlank_of_foreign {c : Char} (h : isDateChar c = false) : Text.isBlank c = false := by
  by_contra hblank
  rw [isDateChar_of_isBlank (Bool.not_eq_false _ ▸ hblank)] at h
  cases h

theorem passes_dropWhile {p : Char → Bool} (hp : ∀ {c}, p c = true → isDateChar c = true)
    (cs : List Char) : Passes 0 cs (cs.dropWhile p) :=
  ⟨cs.takeWhile p, List.takeWhile_append_dropWhile.symm, fun _ hc => hp (List.mem_takeWhile_imp hc),
    Nat.zero_le _⟩

theorem passes_spanDigitsUpTo (width : Nat) (cs : List Char) :
    Passes 0 cs (Text.spanDigitsUpTo width cs).2 := by
  induction width, cs using Text.spanDigitsUpTo.induct with
  | case1 cs => exact Passes.refl cs
  | case2 => exact Passes.refl []
  | case3 width c cs hdigit ds rest hspan ih =>
      simpa [Text.spanDigitsUpTo, hdigit] using
        (Passes.cons (isDateChar_of_isDigit hdigit) cs).trans ih
  | case4 width c cs hdigit =>
      simpa [Text.spanDigitsUpTo, hdigit] using Passes.refl (c :: cs)

theorem passes_trimStart (cs : List Char) : Passes 0 cs (Text.trimStart cs) :=
  passes_dropWhile isDateChar_of_isBlank cs

theorem char?_eq_some {c : Char} {cs rest : List Char} (h : char? c cs = some rest) :
    cs = c :: rest := by
  cases cs with
  | nil => cases h
  | cons d more =>
      unfold char? at h
      dsimp only at h
      split at h
      · rename_i hd
        cases h
        rw [hd]
      · cases h

/-! ## The digits at the end -/

/-- The number of digits at the end of a text. -/
def trailingDigits (cs : List Char) : Nat :=
  (cs.reverse.takeWhile Char.isDigit).length

theorem trailingDigits_append_le {front : List Char}
    (hfront : ∀ c ∈ front.getLast?, c.isDigit = false) (ds : List Char) :
    trailingDigits (front ++ ds) ≤ ds.length := by
  have hstop : front.reverse.takeWhile Char.isDigit = [] := by
    rw [← List.head?_reverse] at hfront
    cases hreverse : front.reverse with
    | nil => rfl
    | cons c rest => simp [hfront c (by rw [hreverse]; rfl)]
  unfold trailingDigits
  rw [List.reverse_append, List.takeWhile_append, hstop]
  split
  · simp
  · calc (ds.reverse.takeWhile Char.isDigit).length
        ≤ ds.reverse.length := (List.takeWhile_prefix _).length_le
      _ = ds.length := List.length_reverse

theorem le_trailingDigits_append (front : List Char) {ds : List Char}
    (hds : ∀ c ∈ ds, c.isDigit = true) : ds.length ≤ trailingDigits (front ++ ds) := by
  have hall : ∀ c ∈ ds.reverse, c.isDigit = true := fun c hc => hds c (List.mem_reverse.mp hc)
  unfold trailingDigits
  rw [List.reverse_append, List.takeWhile_append_of_pos hall, List.length_append,
    List.length_reverse]
  exact Nat.le_add_right _ _

theorem length_le_spanDigitsUpTo (width : Nat) (cs : List Char) :
    cs.length ≤ width + (Text.spanDigitsUpTo width cs).2.length := by
  induction width, cs using Text.spanDigitsUpTo.induct with
  | case1 cs => simp [Text.spanDigitsUpTo]
  | case2 => simp [Text.spanDigitsUpTo]
  | case3 width c cs hdigit ds rest hspan ih =>
      simp only [Text.spanDigitsUpTo, hdigit, if_true, List.length_cons]
      omega
  | case4 width c cs hdigit => simp [Text.spanDigitsUpTo, hdigit]

section Parts

variable {cs rest : List Char}

theorem passes_number? {width n : Nat} (h : number? width cs = some (n, rest)) :
    Passes 0 cs rest := by
  unfold number? at h
  dsimp only at h
  split at h <;> cases h
  exact passes_spanDigitsUpTo width cs

theorem passes_exactNumber? {width n : Nat} (h : exactNumber? width cs = some (n, rest)) :
    Passes 0 cs rest := by
  unfold exactNumber? at h
  dsimp only at h
  split at h <;> cases h
  exact passes_spanDigitsUpTo width cs

theorem passes_part? {n : Nat} (h : part? cs = some (n, rest)) : Passes 0 cs rest :=
  (passes_trimStart cs).trans (passes_number? h)

theorem passes_year? {n : Int} (h : year? cs = some (n, rest)) : Passes 0 cs rest := by
  refine (passes_trimStart cs).trans (m := 0) (n := 0) ?_
  unfold year? at h
  split at h
  all_goals
    simp only [Option.bind_eq_bind, Option.bind_eq_some_iff, Prod.exists] at h
    obtain ⟨m, more, hnumber, hsome⟩ := h
    cases hsome
  · rename_i hsign
    rw [hsign]
    exact (Passes.cons (by decide) _).trans (passes_number? hnumber)
  · rename_i hsign
    rw [hsign]
    exact (Passes.cons (by decide) _).trans (passes_number? hnumber)
  · exact passes_number? hnumber

/-- Only one or two digits can be left for a part at the end. -/
theorem trailingDigits_of_part? {n : Nat} {x : Char} (hx : x.isDigit = false) {k : Nat}
    (h : Passes k cs (x :: rest)) (hpart : part? rest = some (n, [])) : trailingDigits cs ≤ 2 := by
  obtain ⟨front, rfl, -, -⟩ := h
  have hlength := length_le_spanDigitsUpTo 2 (Text.trimStart rest)
  unfold part? number? at hpart
  dsimp only at hpart
  split at hpart
  · cases hpart
  · rw [(Prod.mk.inj (Option.some.inj hpart)).2, List.length_nil] at hlength
    have hsplit : front ++ x :: rest
        = (front ++ x :: rest.takeWhile Text.isBlank) ++ Text.trimStart rest := by
      simp [Text.trimStart]
    have hlast : ∀ c ∈ (front ++ x :: rest.takeWhile Text.isBlank).getLast?,
        c.isDigit = false := by
      intro c hc
      rw [List.getLast?_append_cons] at hc
      rcases List.mem_cons.mp (List.mem_of_getLast? hc) with rfl | hblank
      · exact hx
      · exact Text.not_isDigit_of_isBlank (List.mem_takeWhile_imp hblank)
    rw [hsplit]
    exact (trailingDigits_append_le hlast _).trans hlength

/-- The last hyphen stands in front of the day. -/
theorem exists_of_civil? {civil : Civil} (h : civil? cs = some (civil, rest)) :
    ∃ n more, Passes 1 cs ('-' :: more) ∧ part? more = some (n, rest) := by
  simp only [civil?, Option.bind_eq_bind, Option.bind_eq_some_iff, Prod.exists] at h
  obtain ⟨year, cs₁, hyear, cs₂, hfirst, month, cs₃, hmonth, cs₄, hsecond, day, cs₅, hday,
    hsome⟩ := h
  cases hsome
  rw [char?_eq_some hfirst] at hyear
  rw [char?_eq_some hsecond] at hmonth
  exact ⟨day, cs₄, ((passes_year? hyear).trans (.hyphen _)).trans (passes_part? hmonth), hday⟩

/-- **Two hyphens stand between a year, a month and a day.** -/
theorem passes_civil? {civil : Civil} (h : civil? cs = some (civil, rest)) : Passes 2 cs rest := by
  obtain ⟨n, more, hmore, hday⟩ := exists_of_civil? h
  exact (hmore.trans (.hyphen _)).trans (passes_part? hday)

theorem passes_betweenDateAndTime? (h : betweenDateAndTime? cs = some rest) : Passes 0 cs rest := by
  cases cs with
  | nil => cases h
  | cons c more =>
      unfold betweenDateAndTime? at h
      dsimp only at h
      split at h
      · rename_i hc
        cases h
        refine Passes.cons ?_ _
        simp only [Bool.or_eq_true, decide_eq_true_eq] at hc
        rcases hc with (rfl | rfl) | rfl <;> decide
      · cases h

theorem passes_fraction? {ds : List Char} (h : fraction? cs = some (ds, rest)) :
    Passes 0 cs rest := by
  unfold fraction? at h
  split at h
  · rename_i more
    dsimp only at h
    split at h <;> cases h
    have hdigits : Passes 0 more (Text.spanDigits more).2 :=
      passes_dropWhile isDateChar_of_isDigit more
    exact (Passes.cons (by decide) more).trans hdigits
  · cases h
    exact Passes.refl cs

theorem passes_zone? (h : zone? cs = some rest) : Passes 0 cs rest := by
  cases cs with
  | nil => cases h
  | cons c more =>
      unfold zone? at h
      dsimp only at h
      split at h
      · rename_i hc
        cases h
        refine Passes.cons ?_ _
        simp only [Bool.or_eq_true, decide_eq_true_eq] at hc
        rcases hc with rfl | rfl <;> decide
      · split at h
        · rename_i hc
          have hsign : isDateChar c = true := by
            simp only [Bool.or_eq_true, decide_eq_true_eq] at hc
            rcases hc with (rfl | rfl) | rfl <;> decide
          simp only [Option.bind_eq_bind, Option.bind_eq_some_iff, Prod.exists] at h
          obtain ⟨hours, cs₁, hhours, cs₂, hcolon, minutes, cs₃, hminutes, hrange⟩ := h
          split at hrange <;> cases hrange
          rw [char?_eq_some hcolon] at hhours
          exact (((Passes.cons hsign more).trans (passes_exactNumber? hhours)).trans
            (.cons (by decide) _)).trans (passes_exactNumber? hminutes)
        · cases h

/-- A zone ends with a letter or with two digits. -/
theorem trailingDigits_of_zone? {k : Nat} (h : Passes k cs rest) (hzone : zone? rest = some []) :
    trailingDigits cs ≤ 2 := by
  obtain ⟨front, rfl, -, -⟩ := h
  cases rest with
  | nil => cases hzone
  | cons c more =>
      unfold zone? at hzone
      dsimp only at hzone
      split at hzone
      · rename_i hletter
        cases hzone
        have hc : c.isDigit = false := by
          simp only [Bool.or_eq_true, decide_eq_true_eq] at hletter
          rcases hletter with rfl | rfl <;> rfl
        have hlast : ∀ d ∈ (front ++ [c]).getLast?, d.isDigit = false := by
          intro d hd
          rw [List.getLast?_concat] at hd
          cases hd
          exact hc
        have hend := trailingDigits_append_le hlast []
        rw [List.append_nil, List.length_nil] at hend
        omega
      · split at hzone
        · simp only [Option.bind_eq_bind, Option.bind_eq_some_iff, Prod.exists] at hzone
          obtain ⟨hours, cs₁, hhours, cs₂, hcolon, minutes, cs₃, hminutes, hrange⟩ := hzone
          split at hrange <;> cases hrange
          rw [char?_eq_some hcolon] at hhours
          obtain ⟨between, rfl, -, -⟩ := passes_exactNumber? hhours
          have hlength := length_le_spanDigitsUpTo 2 cs₂
          unfold exactNumber? at hminutes
          dsimp only at hminutes
          split at hminutes
          · rw [(Prod.mk.inj (Option.some.inj hminutes)).2, List.length_nil] at hlength
            have hlast : ∀ d ∈ (front ++ c :: (between ++ [':'])).getLast?, d.isDigit = false := by
              intro d hd
              rw [List.getLast?_append_cons, ← List.cons_append, List.getLast?_concat] at hd
              cases hd
              rfl
            have hsplit : front ++ c :: (between ++ ':' :: cs₂)
                = (front ++ c :: (between ++ [':'])) ++ cs₂ := by simp
            rw [hsplit]
            exact (trailingDigits_append_le hlast cs₂).trans hlength
          · cases hminutes
        · cases hzone

end Parts

/-! ## The three forms -/

/-- What is true of every text that is read as a date. -/
structure IsDateText (cs : List Char) : Prop where
  chars : ∀ c ∈ cs, isDateChar c = true
  hyphens : 2 ≤ cs.count '-'
  ending : trailingDigits cs ≤ 2 ∨ '.' ∈ cs

section Forms

variable {cs : List Char} {d : Date}

theorem Passes.isDateText (h : Passes 2 cs []) (hend : trailingDigits cs ≤ 2 ∨ '.' ∈ cs) :
    IsDateText cs := by
  obtain ⟨passed, rfl, hchars, hhyphens⟩ := h
  rw [List.append_nil] at hend ⊢
  exact ⟨hchars, hhyphens, hend⟩

theorem isDateText_plainDate? (h : plainDate? cs = some d) : IsDateText cs := by
  simp only [plainDate?, Option.bind_eq_bind, Option.bind_eq_some_iff, Prod.exists] at h
  obtain ⟨civil, rest, hcivil, hend⟩ := h
  split at hend
  · rename_i hrest
    rw [List.isEmpty_iff.mp hrest] at hcivil
    obtain ⟨n, more, hmore, hday⟩ := exists_of_civil? hcivil
    exact (passes_civil? hcivil).isDateText (.inl (trailingDigits_of_part? rfl hmore hday))
  · cases hend

theorem isDateText_timestamp? (h : timestamp? cs = some d) : IsDateText cs := by
  unfold timestamp? at h
  obtain ⟨⟨year, cs₁⟩, hyear, h⟩ := Option.bind_eq_some_iff.mp h
  obtain ⟨cs₂, hfirst, h⟩ := Option.bind_eq_some_iff.mp h
  obtain ⟨⟨month, cs₃⟩, hmonth, h⟩ := Option.bind_eq_some_iff.mp h
  obtain ⟨cs₄, hsecond, h⟩ := Option.bind_eq_some_iff.mp h
  obtain ⟨⟨day, cs₅⟩, hday, h⟩ := Option.bind_eq_some_iff.mp h
  obtain ⟨cs₆, hbetween, h⟩ := Option.bind_eq_some_iff.mp h
  obtain ⟨⟨hour, cs₇⟩, hhour, h⟩ := Option.bind_eq_some_iff.mp h
  obtain ⟨cs₈, hcolon, h⟩ := Option.bind_eq_some_iff.mp h
  obtain ⟨⟨minute, cs₉⟩, hminute, h⟩ := Option.bind_eq_some_iff.mp h
  obtain ⟨cs₁₀, hmark, h⟩ := Option.bind_eq_some_iff.mp h
  obtain ⟨⟨second, cs₁₁⟩, hseconds, h⟩ := Option.bind_eq_some_iff.mp h
  obtain ⟨⟨ds, cs₁₂⟩, hfraction, h⟩ := Option.bind_eq_some_iff.mp h
  obtain ⟨rest, hzone, hend⟩ := Option.bind_eq_some_iff.mp h
  split at hend
  · rename_i hrange
    rw [Bool.and_eq_true, List.isEmpty_iff] at hrange
    rw [hrange.2] at hzone
    rw [char?_eq_some hfirst] at hyear
    rw [char?_eq_some hsecond] at hmonth
    rw [char?_eq_some hcolon] at hhour
    rw [char?_eq_some hmark] at hminute
    have hcivil : Passes 2 cs cs₅ :=
      ((((passes_exactNumber? hyear).trans (.hyphen _)).trans (passes_exactNumber? hmonth)).trans
        (.hyphen _)).trans (passes_exactNumber? hday)
    have hclock : Passes 0 cs₅ cs₁₁ :=
      (((((passes_betweenDateAndTime? hbetween).trans (passes_exactNumber? hhour)).trans
        (.cons (by decide) _)).trans (passes_exactNumber? hminute)).trans
        (.cons (by decide) _)).trans (passes_exactNumber? hseconds)
    have hall := (hcivil.trans hclock).trans (passes_fraction? hfraction)
    exact (hall.trans (passes_zone? hzone)).isDateText (.inl (trailingDigits_of_zone? hall hzone))
  · cases hend

theorem isDateText_dateTime? (h : dateTime? cs = some d) : IsDateText cs := by
  simp only [dateTime?, Option.bind_eq_bind, Option.bind_eq_some_iff, Prod.exists] at h
  obtain ⟨civil, cs₁, hcivil, cs₂, hbetween, hour, cs₃, hhour, cs₄, hcolon, minute, cs₅, hminute,
    cs₆, hmark, second, cs₇, hseconds, ds, rest, hfraction, hend⟩ := h
  split at hend
  · rename_i hrange
    rw [Bool.and_eq_true, List.isEmpty_iff] at hrange
    rw [hrange.2] at hfraction
    rw [char?_eq_some hbetween] at hcivil
    rw [char?_eq_some hcolon] at hhour
    rw [char?_eq_some hmark] at hminute
    have hclock : Passes 2 cs (':' :: cs₆) :=
      ((((passes_civil? hcivil).trans (.cons (by decide) _)).trans (passes_part? hhour)).trans
        (.cons (by decide) _)).trans (passes_part? hminute)
    have hall := (hclock.trans (.cons (by decide) _)).trans (passes_part? hseconds)
    refine (hall.trans (passes_fraction? hfraction)).isDateText ?_
    -- What is left for the fraction is nothing, or it starts with its point.
    unfold fraction? at hfraction
    split at hfraction
    · obtain ⟨front, rfl, -, -⟩ := hall
      exact .inr (List.mem_append_right _ List.mem_cons_self)
    · cases hfraction
      exact .inl (trailingDigits_of_part? rfl hclock hseconds)
  · cases hend

end Forms

end Calendar

/-- **What a text has to be made of to be read as a date**, whatever the form. -/
theorem Date.isDateText_of_read? {cs : List Char} {d : Date} (h : read? cs = some d) :
    Calendar.IsDateText cs := by
  unfold read? at h
  rcases hplain : Calendar.plainDate? cs with _ | plain
  · rcases htimestamp : Calendar.timestamp? cs with _ | moment
    · rw [hplain, htimestamp] at h
      exact Calendar.isDateText_dateTime? h
    · exact Calendar.isDateText_timestamp? htimestamp
  · exact Calendar.isDateText_plainDate? hplain

theorem Date.read?_of_not_isDateText {cs : List Char} (h : ¬Calendar.IsDateText cs) :
    read? cs = none := by
  cases hread : read? cs with
  | none => rfl
  | some d => exact absurd (isDateText_of_read? hread) h

end Reporting
