import Reporting.Display
import Reporting.Proofs.Calendar.Pattern
import Reporting.Proofs.Calendar.Specifier

/-!
# Dates in a checked pattern

Settings that pass their check have a pattern without malformed items.  Such a pattern is honoured
for every date if it asks for no time of day and no zone: each of its items has a text for the date,
and the date is shown as these texts.  The check does not ask for that; a date in a checked pattern
with a specifier of a time of day or a zone is shown in the plain form
(`FormatSettings.date_of_checked`).
-/

namespace Reporting

namespace Pattern

/-- Some items in the form of some texts for a date, item by item. -/
def Texts (d : Date) (items : List PatternItem) (texts : List (List Char)) : Prop :=
  List.Forall₂ (fun item text => itemText? d item = some text) items texts

theorem exists_itemText? {item : PatternItem} (h : item.hasNoText = false) (d : Date) :
    ∃ text, itemText? d item = some text := by
  cases item with
  | literal c => exact ⟨_, rfl⟩
  | number part padding => exact ⟨_, rfl⟩
  | monthName short => exact ⟨_, rfl⟩
  | weekdayName short => exact ⟨_, rfl⟩
  | beyondDate => cases h
  | malformed => cases h

/-- Items that can be written for a date have texts for every date. -/
theorem exists_texts {items : List PatternItem} (h : ∀ item ∈ items, item.hasNoText = false)
    (d : Date) : ∃ texts, Texts d items texts := by
  induction items with
  | nil => exact ⟨[], .nil⟩
  | cons item rest ih =>
      obtain ⟨text, htext⟩ := exists_itemText? (h item List.mem_cons_self) d
      obtain ⟨texts, htexts⟩ := ih fun other hother => h other (List.mem_cons_of_mem _ hother)
      exact ⟨text :: texts, .cons htext htexts⟩

/-- A date in the form of some items is their texts, one after the other. -/
theorem Texts.itemsText?_eq {d : Date} {items : List PatternItem} {texts : List (List Char)}
    (h : Texts d items texts) : itemsText? d items = some texts.flatten := by
  induction h with
  | nil => rfl
  | cons htext _ ih =>
      unfold itemsText?
      rw [htext, ih]
      rfl

theorem isWellFormed_iff (pattern : String) :
    isWellFormed pattern = true ↔ .malformed ∉ items pattern := by
  unfold isWellFormed
  rw [List.all_eq_true]
  constructor
  · intro h hmalformed
    exact of_decide_eq_true (h .malformed hmalformed) rfl
  · intro h item hitem
    apply decide_eq_true
    rintro rfl
    exact h hitem

end Pattern

namespace FormatSettings

variable {settings : FormatSettings}

/-- **Settings are refused for their pattern if, and only if, it is malformed.** -/
theorem fault?_eq_datePattern_iff :
    settings.fault? = some (.datePattern settings.dateFormat) ↔
      .malformed ∈ Pattern.items settings.dateFormat := by
  by_cases hwell : Pattern.isWellFormed settings.dateFormat = true
  · have hitems := (Pattern.isWellFormed_iff settings.dateFormat).mp hwell
    refine iff_of_false ?_ hitems
    unfold fault?
    rw [hwell, Bool.not_true, if_neg Bool.false_ne_true]
    intro hfault
    split_ifs at hfault <;> cases hfault
  · have hitems := not_not.mp (mt (Pattern.isWellFormed_iff settings.dateFormat).mpr hwell)
    refine iff_of_true ?_ hitems
    unfold fault?
    rw [Bool.not_eq_true] at hwell
    rw [hwell]
    rfl

/-- **Dates in a checked pattern.**  A pattern that passes the check has no malformed items.  If it
does not ask for a time of day or a zone, each of its items has a text for each date, and the date
is shown as these texts.  If it does, the date is shown in the plain form. -/
theorem date_of_checked (hchecked : settings.fault? = none) (d : Date) :
    .malformed ∉ Pattern.items settings.dateFormat ∧
    (¬ Pattern.AsksForClock settings.dateFormat →
      ∃ texts, Pattern.Texts d (Pattern.items settings.dateFormat) texts ∧
        settings.date d = texts.flatten) ∧
    (Pattern.AsksForClock settings.dateFormat → settings.date d = d.isoChars) := by
  have hwell : .malformed ∉ Pattern.items settings.dateFormat := by
    intro hmalformed
    have hfault := fault?_eq_datePattern_iff.mpr hmalformed
    rw [hchecked] at hfault
    cases hfault
  unfold date Pattern.render?
  rw [← Pattern.beyondDate_mem_items_iff]
  refine ⟨hwell, ?_, ?_⟩
  · intro hclock
    have hitems : ∀ item ∈ Pattern.items settings.dateFormat, item.hasNoText = false := by
      intro item hitem
      cases item with
      | beyondDate => exact absurd hitem hclock
      | malformed => exact absurd hitem hwell
      | _ => rfl
    obtain ⟨texts, htexts⟩ := Pattern.exists_texts hitems d
    refine ⟨texts, htexts, ?_⟩
    rw [htexts.itemsText?_eq]
    rfl
  · intro hclock
    rw [Pattern.itemsText?_of_hasNoText (List.any_eq_true.mpr ⟨.beyondDate, hclock, rfl⟩)]
    rfl

/-- The theorem at the leap day, in a pattern of names and of a number without its zero. -/
theorem date_of_checked_leap_day :
    let settings := { default with dateFormat := "%A, %-d %B %Y" }
    let d : Date := ⟨19782, by decide, by decide⟩
    settings.fault? = none ∧ ¬ Pattern.AsksForClock settings.dateFormat ∧
      settings.date d = "Thursday, 29 February 2024".toList ∧
      ∃ texts, Pattern.Texts d (Pattern.items settings.dateFormat) texts ∧
        settings.date d = texts.flatten := by
  intro settings d
  have hchecked : settings.fault? = none := by decide
  have hclock : ¬ Pattern.AsksForClock settings.dateFormat := by
    rw [← Pattern.beyondDate_mem_items_iff]
    decide
  exact ⟨hchecked, hclock, by decide +kernel, (date_of_checked hchecked d).2.1 hclock⟩

/-- Settings pass the check with a pattern in which no date can be written. -/
theorem checked_pattern_not_rendered :
    let settings := { default with dateFormat := "%H" }
    let d : Date := ⟨19737, by decide, by decide⟩
    settings.fault? = none ∧ Pattern.render? settings.dateFormat d = none ∧
      settings.date d = "2024-01-15".toList := by
  decide +kernel

end FormatSettings

end Reporting
