import Mathlib.Data.List.GetD
import Reporting.Calendar.Pattern
import Reporting.Proofs.Calendar.Plain
import Reporting.Proofs.Calendar.Reading

/-!
# Patterns whose dates are not mistaken for other dates

A date in the form of a pattern is a text like any other, and it may be read as a date again.  With
the pattern `%m-%d-%y` it is then read as some other date.  A pattern is unmistakable if that
cannot happen: because it always shows a character that no date is read with, because it shows fewer
than two hyphens, because it ends with more digits than a day has, or because it shows the plain
form, from which a date is read back.
-/

namespace Reporting

namespace PatternItem

/-- Whether an item always shows a character that no date is read with. -/
def isForeign : PatternItem → Bool
  | .literal c => !Calendar.isDateChar c
  | .monthName _ => true
  | .weekdayName _ => true
  | _ => false

/-- The characters that an item shows beside digits, blanks and plus signs: itself, or the sign of a
year. -/
def marks : PatternItem → List Char
  | .literal c => [c]
  | .number .year _ => ['-']
  | .number .isoYear _ => ['-']
  | _ => []

/-- Whether an item always ends with three digits or more. -/
def endsInDigits : PatternItem → Bool
  | .number .year .zeros => true
  | .number .isoYear .zeros => true
  | .number .dayOfYear .zeros => true
  | _ => false

/-- Whether an item has no text for a date. -/
def hasNoText : PatternItem → Bool
  | .beyondDate => true
  | .malformed => true
  | _ => false

end PatternItem

namespace Pattern

/-- Whether dates in the form of a pattern cannot be read as other dates. -/
def isUnmistakable (pattern : String) : Bool :=
  let items := items pattern
  let marks := items.flatMap PatternItem.marks
  items.any PatternItem.isForeign || marks.count '-' < 2
    || (items.getLast?.any PatternItem.endsInDigits && !marks.contains '.')
    || items == hyphened || items.any PatternItem.hasNoText

section Marks

/-- The characters that stand for tens and ones begin at the digit zero. -/
theorem ofNat_ne {x : Char} (hx : x.toNat < '0'.toNat) (hzero : x.toNat ≠ 0) (k : Nat) :
    Char.ofNat ('0'.toNat + k) ≠ x := by
  have hvalue (n : Nat) : (Char.ofNat n).toNat = n ∨ (Char.ofNat n).toNat = 0 := by
    unfold Char.ofNat
    by_cases hn : n.isValidChar
    · rw [dif_pos hn]
      exact .inl rfl
    · rw [dif_neg hn]
      exact .inr rfl
  rintro rfl
  have hplace := hvalue ('0'.toNat + k)
  omega

/-- A mark is a hyphen or a point. -/
def IsMark (x : Char) : Prop :=
  x = '-' ∨ x = '.'

variable {x : Char} (hx : IsMark x)
include hx

theorem IsMark.count_digits (n : Nat) : (Text.digits n).count x = 0 :=
  Text.count_digits (by rcases hx with rfl | rfl <;> rfl) n

theorem count_padded (width : Nat) (padding : Padding) (cs : List Char) :
    (padded width padding cs).count x = cs.count x := by
  have hfill : ('0' == x) = false ∧ (' ' == x) = false := by
    rcases hx with rfl | rfl <;> decide
  cases padding <;> simp [padded, Text.padLeft, List.count_replicate, hfill]

/-- A year shows a hyphen only as its sign, and no point. -/
theorem count_yearText (year : Int) (padding : Padding) :
    (yearText year padding).count x ≤ ['-'].count x := by
  have hsign : ((if year < 0 then '-' else '+') :: Text.digits year.natAbs).count x
      ≤ ['-'].count x := by
    rw [List.count_cons, hx.count_digits]
    rcases hx with rfl | rfl <;> split <;> decide
  unfold yearText
  dsimp only
  split
  · rw [count_padded hx, hx.count_digits]
    exact Nat.zero_le _
  · cases padding with
    | zeros =>
        show ((if year < 0 then '-' else '+') :: padded 4 .zeros _).count x ≤ _
        rw [List.count_cons, count_padded hx, ← List.count_cons]
        exact hsign
    | bare =>
        show (padded 5 .bare _).count x ≤ _
        rw [count_padded hx]
        exact hsign
    | blanks =>
        show (padded 5 .blanks _).count x ≤ _
        rw [count_padded hx]
        exact hsign

theorem count_twoPlaces (n : Nat) (padding : Padding) : (twoPlaces n padding).count x = 0 := by
  have hbounds : x.toNat < '0'.toNat ∧ x.toNat ≠ 0 ∧ x ≠ '0' ∧ x ≠ ' ' := by
    rcases hx with rfl | rfl <;> decide
  obtain ⟨hlower, hnull, hzero, hblank⟩ := hbounds
  have hones := ofNat_ne hlower hnull (n % 10)
  have htens := ofNat_ne hlower hnull (n / 10)
  refine List.count_eq_zero.mpr fun hmem => ?_
  unfold twoPlaces at hmem
  dsimp only at hmem
  split at hmem
  · cases padding
    · exact hones (List.mem_singleton.mp hmem).symm
    · exact hones (List.mem_singleton.mp (List.mem_of_ne_of_mem hzero hmem)).symm
    · exact hones (List.mem_singleton.mp (List.mem_of_ne_of_mem hblank hmem)).symm
  · exact hones (List.mem_singleton.mp (List.mem_of_ne_of_mem htens.symm hmem)).symm

theorem count_partText (d : Date) (part : DatePart) (padding : Padding) :
    (partText d part padding).count x ≤ (PatternItem.number part padding).marks.count x := by
  cases part
  case year => exact count_yearText hx _ _
  case isoYear => exact count_yearText hx _ _
  case quarter => exact (hx.count_digits _).le
  case weekdayFromSunday => exact (hx.count_digits _).le
  case weekdayFromMonday => exact (hx.count_digits _).le
  case dayOfYear =>
    show (padded 3 padding _).count x ≤ 0
    rw [count_padded hx, hx.count_digits]
  all_goals exact (count_twoPlaces hx _ _).le

/-- Names apart, an item shows no hyphens and points beside its marks. -/
theorem count_itemText? {d : Date} {item : PatternItem} {text : List Char}
    (hitem : item.isForeign = false) (h : itemText? d item = some text) :
    text.count x ≤ item.marks.count x := by
  cases item with
  | literal c =>
      cases h
      exact le_rfl
  | number part padding =>
      cases h
      exact count_partText hx d part padding
  | monthName short => cases hitem
  | weekdayName short => cases hitem
  | beyondDate => cases h
  | malformed => cases h

theorem count_itemsText? {d : Date} {items : List PatternItem} {text : List Char}
    (hitems : items.any PatternItem.isForeign = false) (h : itemsText? d items = some text) :
    text.count x ≤ (items.flatMap PatternItem.marks).count x := by
  induction items generalizing text with
  | nil =>
      cases h
      exact le_rfl
  | cons item rest ih =>
      rw [List.any_cons, Bool.or_eq_false_iff] at hitems
      simp only [itemsText?, Option.bind_eq_bind, Option.bind_eq_some_iff] at h
      obtain ⟨front, hfront, back, hback, hsome⟩ := h
      cases hsome
      have hfirst := count_itemText? hx hitems.1 hfront
      have hmore := ih hitems.2 hback
      rw [List.flatMap_cons, List.count_append, List.count_append]
      omega

end Marks

section Ending

theorem exists_digits_itemText? {d : Date} {item : PatternItem} {text : List Char}
    (hitem : item.endsInDigits = true) (h : itemText? d item = some text) :
    ∃ front ds, text = front ++ ds ∧ 3 ≤ ds.length ∧ ∀ c ∈ ds, c.isDigit = true := by
  have hpadded {width : Nat} (hwidth : 3 ≤ width) (n : Nat) :
      3 ≤ (Text.zeroPadded width n).length ∧
        ∀ c ∈ Text.zeroPadded width n, c.isDigit = true :=
    ⟨hwidth.trans (Text.le_length_zeroPadded width n), fun _ => Text.isDigit_of_mem_zeroPadded⟩
  have hyear (year : Int) : ∃ front ds, yearText year .zeros = front ++ ds ∧ 3 ≤ ds.length ∧
      ∀ c ∈ ds, c.isDigit = true := by
    unfold yearText
    dsimp only
    split
    · exact ⟨[], _, rfl, hpadded (by decide) year.natAbs⟩
    · exact ⟨[_], _, rfl, hpadded (by decide) year.natAbs⟩
  unfold PatternItem.endsInDigits at hitem
  split at hitem
  · cases h
    exact hyear _
  · cases h
    exact hyear _
  · cases h
    exact ⟨[], _, rfl, hpadded (by decide) d.dayOfYear⟩
  · cases hitem

/-- The last item ends the text. -/
theorem exists_digits_itemsText? {d : Date} {items : List PatternItem} {text : List Char}
    (hlast : items.getLast?.any PatternItem.endsInDigits = true)
    (h : itemsText? d items = some text) :
    ∃ front ds, text = front ++ ds ∧ 3 ≤ ds.length ∧ ∀ c ∈ ds, c.isDigit = true := by
  induction items generalizing text with
  | nil => cases hlast
  | cons item rest ih =>
      simp only [itemsText?, Option.bind_eq_bind, Option.bind_eq_some_iff] at h
      obtain ⟨first, hfirst, back, hback, hsome⟩ := h
      cases hsome
      cases rest with
      | nil =>
          cases hback
          rw [List.append_nil]
          exact exists_digits_itemText? hlast hfirst
      | cons next more =>
          obtain ⟨front, ds, rfl, hds⟩ := ih (by simpa using hlast) hback
          exact ⟨first ++ front, ds, (List.append_assoc _ _ _).symm, hds⟩

end Ending

section Foreign

/-- Each of the names has a letter that no date is read with among its first three. -/
theorem any_foreign_take_three : ∀ name ∈ monthNames ++ weekdayNames,
    (name.toList.take 3).any (fun c => !Calendar.isDateChar c) = true := by
  decide

theorem exists_foreign_nameChars {names : List String} (hnames : names ⊆ monthNames ++ weekdayNames)
    {index : Nat} (hindex : index < names.length) (short : Bool) :
    ∃ c ∈ nameChars names index short, Calendar.isDateChar c = false := by
  have hname : names.getD index "" ∈ monthNames ++ weekdayNames := by
    rw [List.getD_eq_getElem _ _ hindex]
    exact hnames (List.getElem_mem hindex)
  obtain ⟨c, hc, hforeign⟩ := List.any_eq_true.mp (any_foreign_take_three _ hname)
  refine ⟨c, ?_, by simpa using hforeign⟩
  unfold nameChars
  dsimp only
  split
  · exact hc
  · exact List.mem_of_mem_take hc

/-- A foreign item shows a character that no date is read with. -/
theorem exists_foreign_itemText? {d : Date} {item : PatternItem} {text : List Char}
    (hitem : item.isForeign = true) (h : itemText? d item = some text) :
    ∃ c ∈ text, Calendar.isDateChar c = false := by
  cases item with
  | literal c =>
      cases h
      exact ⟨c, List.mem_singleton_self c, by simpa [PatternItem.isForeign] using hitem⟩
  | monthName short =>
      cases h
      have hmonth : d.civil.month ≤ 12 :=
        (Civil.le_of_isValid (Civil.isValid_ofDayNumber d.dayNumber)).1
      have hindex : d.civil.month - 1 < monthNames.length := by
        have hlength : monthNames.length = 12 := rfl
        omega
      exact exists_foreign_nameChars (List.subset_append_left _ _) hindex short
  | weekdayName short =>
      cases h
      have hindex : d.sinceMonday < weekdayNames.length := by
        have hlength : weekdayNames.length = 7 := rfl
        unfold Date.sinceMonday
        omega
      exact exists_foreign_nameChars (List.subset_append_right _ _) hindex short
  | number part padding => cases hitem
  | beyondDate => cases h
  | malformed => cases h

theorem exists_foreign_itemsText? {d : Date} {items : List PatternItem} {text : List Char}
    (hitems : items.any PatternItem.isForeign = true) (h : itemsText? d items = some text) :
    ∃ c ∈ text, Calendar.isDateChar c = false := by
  induction items generalizing text with
  | nil => cases hitems
  | cons item rest ih =>
      rw [List.any_cons, Bool.or_eq_true] at hitems
      simp only [itemsText?, Option.bind_eq_bind, Option.bind_eq_some_iff] at h
      obtain ⟨front, hfront, back, hback, hsome⟩ := h
      cases hsome
      rcases hitems with hitem | hrest
      · obtain ⟨c, hc, hforeign⟩ := exists_foreign_itemText? hitem hfront
        exact ⟨c, List.mem_append_left _ hc, hforeign⟩
      · obtain ⟨c, hc, hforeign⟩ := ih hrest hback
        exact ⟨c, List.mem_append_right _ hc, hforeign⟩

end Foreign

section Plain

theorem yearText_zeros (year : Int) : yearText year .zeros = Calendar.yearChars year := by
  unfold yearText Calendar.yearChars
  split <;> rfl

theorem twoPlaces_zeros : ∀ n < 32, twoPlaces n .zeros = Text.zeroPadded 2 n := by
  decide +kernel

/-- Year, month and day with hyphens between them are the plain form. -/
theorem itemsText?_hyphened (d : Date) : itemsText? d hyphened = some d.isoChars := by
  have hbounds : d.civil.month ≤ 12 ∧ d.civil.day ≤ 31 :=
    Civil.le_of_isValid (Civil.isValid_ofDayNumber d.dayNumber)
  have hmonth := twoPlaces_zeros d.civil.month (by omega)
  have hday := twoPlaces_zeros d.civil.day (by omega)
  show some (yearText d.civil.year .zeros ++ ('-' :: (twoPlaces d.civil.month .zeros
    ++ ('-' :: (twoPlaces d.civil.day .zeros ++ []))))) = _
  rw [yearText_zeros, hmonth, hday, List.append_nil]
  rfl

theorem itemsText?_of_hasNoText {d : Date} {items : List PatternItem}
    (h : items.any PatternItem.hasNoText = true) : itemsText? d items = none := by
  induction items with
  | nil => cases h
  | cons item rest ih =>
      rw [List.any_cons, Bool.or_eq_true] at h
      unfold itemsText?
      rcases h with hitem | hrest
      · cases item <;> first | rfl | cases hitem
      · rw [ih hrest]
        cases itemText? d item <;> rfl

end Plain

/-- **A date that is shown in an unmistakable pattern is not read as another date.** -/
theorem read?_trim_of_isUnmistakable {pattern : String} (h : isUnmistakable pattern = true)
    {d other : Date}
    (hread : Date.read? (Text.trim ((render? pattern d).getD d.isoChars)) = some other) :
    other = d := by
  have hplain : Date.read? (Text.trim d.isoChars) = some d := by
    rw [Text.trim_of_isBody d.isBody_isoChars, d.read?_isoChars]
  unfold render? at hread
  cases htext : itemsText? d (items pattern) with
  | none =>
      rw [htext, Option.getD_none, hplain] at hread
      exact (Option.some.inj hread).symm
  | some text =>
      rw [htext, Option.getD_some] at hread
      by_cases hforeign : (items pattern).any PatternItem.isForeign = true
      · obtain ⟨c, hc, hcf⟩ := exists_foreign_itemsText? hforeign htext
        have hkept := Text.mem_trim_of_not_blank hc (Calendar.not_isBlank_of_foreign hcf)
        have hchar := (Date.isDateText_of_read? hread).chars c hkept
        rw [hchar] at hcf
        cases hcf
      · rw [Bool.not_eq_true] at hforeign
        simp only [isUnmistakable, hforeign, Bool.false_or, Bool.or_eq_true, Bool.and_eq_true,
          decide_eq_true_eq, beq_iff_eq, Bool.not_eq_true', List.contains_eq_mem] at h
        rcases h with ((hfew | ⟨hlast, hpoint⟩) | hhyphened) | hnone
        · have hshown := count_itemsText? (.inl rfl) hforeign htext
          have htrim := (Text.trim_infix text).sublist.count_le '-'
          have hhyphens := (Date.isDateText_of_read? hread).hyphens
          omega
        · obtain ⟨front, ds, rfl, hlength, hdigits⟩ := exists_digits_itemsText? hlast htext
          have hbody : Text.IsBody ds :=
            Text.isBody_of_forall_not_blank (List.ne_nil_of_length_pos (by omega))
              fun c hc => Text.not_isBlank_of_isDigit (hdigits c hc)
          have htrailing := Calendar.le_trailingDigits_append (Text.trimStart front) hdigits
          rw [← Text.trim_append hbody] at htrailing
          rcases (Date.isDateText_of_read? hread).ending with hshort | hmem
          · omega
          · have hshown := count_itemsText? (.inr rfl) hforeign htext
            have hsome := List.count_pos_iff.mpr ((Text.trim_infix _).subset hmem)
            have hnone := List.count_eq_zero.mpr (of_decide_eq_false hpoint)
            omega
        · rw [hhyphened, itemsText?_hyphened] at htext
          cases htext
          rw [hplain] at hread
          exact (Option.some.inj hread).symm
        · rw [itemsText?_of_hasNoText hnone] at htext
          cases htext

example : ["%m/%d/%Y", "%d.%m.%Y", "%d-%m-%Y", "%Y-%m-%d", "%-d %B %Y", "%Y-%j", "%H:%M"].all
    isUnmistakable = true ∧ ["%m-%d-%y", "%y-%m-%d"].any isUnmistakable = false := by
  decide

end Pattern

end Reporting
