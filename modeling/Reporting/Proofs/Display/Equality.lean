import Reporting.Proofs.Display.Shown
import Reporting.Proofs.Filter.Algebra
import Reporting.Proofs.Record.Ties

/-!
# Equal values are shown alike

A rule asks for equality in the terms of a field type, and a field of this type shows a value in the
same terms: both look at one view of the value.  So values that an equality rule takes for the same
have the same text (`FormatSettings.format_eq_of_equals`).  The two zeros, which are equal as
numbers, are told apart by percentages alone.
-/

namespace Reporting

namespace Binary64

theorem natAbs_value (x : Binary64) : x.value.natAbs = x.units := by
  unfold value
  split <;> simp

/-- Numbers of the same value have the same magnitude. -/
theorem abs_eq_of_sameValue {x y : Binary64} (h : x.sameValue y = true) : x.abs = y.abs := by
  apply ext
  · rfl
  · show x.units = y.units
    rw [← natAbs_value x, ← natAbs_value y, eq_of_beq h]

end Binary64

namespace Json

/-- Whether the number of a value is the negative zero. -/
def readsNegativeZero (value : Json) : Bool :=
  value.numberView.any Binary64.isNegativeZero

theorem isNegativeZero_of_numberView {value : Json} {x : Binary64}
    (hzero : value.readsNegativeZero = false) (hx : value.numberView = some x) :
    x.isNegativeZero = false := by
  unfold readsNegativeZero at hzero
  rw [hx] at hzero
  exact hzero

/-- Two views are both there and equal. -/
theorem exists_of_bothEqual {α : Type} {same : α → α → Bool} {view view' : Option α}
    (h : bothEqual same view view' = true) :
    ∃ x y, view = some x ∧ view' = some y ∧ same x y = true := by
  cases view with
  | none => cases h
  | some x =>
      cases view' with
      | none => cases h
      | some y => exact ⟨x, y, rfl, rfl, h⟩

variable {value target : Json}

/-- For all numeric types equality is that of the numbers. -/
theorem exists_sameValue_of_equalAs {type : FieldType} (hnumeric : type.isNumeric = true)
    (h : value.equalAs type target = true) :
    ∃ x y, value.numberView = some x ∧ target.numberView = some y ∧ x.sameValue y = true := by
  cases type
  case number => exact exists_of_bothEqual h
  case currency => exact exists_of_bothEqual h
  case percentage => exact exists_of_bothEqual h
  all_goals cases hnumeric

end Json

/-- What an equality rule accepts is there and equal to the target. -/
theorem FilterRule.equalAs_of_accepts {rule : FilterRule} {record value : Json}
    (hequals : rule.operator = .equals) (haccepts : rule.accepts record = true)
    (hvalue : record.resolve? rule.field = some value) :
    value.equalAs rule.fieldType rule.target = true := by
  unfold FilterRule.accepts at haccepts
  by_cases hnull : value = .null
  · have hmissing : record.resolvePresent? rule.field = none := by
      rw [Json.resolvePresent?, hvalue, hnull]
      rfl
    rw [hmissing, hequals] at haccepts
    cases haccepts
  · rw [Json.resolvePresent?_eq_some hvalue hnull] at haccepts
    simpa only [FilterRule.acceptsValue, hequals] using haccepts

namespace FormatSettings

/-- **Numbers of the same value have the same text**, the percentages of the two zeros apart. -/
theorem numberText_congr (settings : FormatSettings) (type : FieldType) {x y : Binary64}
    (h : x.sameValue y = true) (hzero : type = .percentage → x = y) :
    settings.numberText type x = settings.numberText type y := by
  have hmagnitude : (Extended.finite x).abs = (Extended.finite y).abs :=
    congrArg Extended.finite (Binary64.abs_eq_of_sameValue h)
  have hsign : (Extended.finite x).isNegative = (Extended.finite y).isNegative := by
    have hvalue : x.value = y.value := eq_of_beq h
    show decide (x.value < 0) = decide (y.value < 0)
    rw [hvalue]
  have hnumber : settings.number (.finite x) = settings.number (.finite y) := by
    unfold number sign
    rw [hmagnitude, hsign]
  cases type with
  | percentage => rw [hzero rfl]
  | currency =>
      show settings.currency (.finite x) = settings.currency (.finite y)
      unfold currency sign
      rw [hmagnitude, hsign]
  | _ => exact hnumber

/-- Values that are equal in the terms of a type are formatted alike. -/
theorem formatValue_eq_of_equalAs (settings : FormatSettings) {type : FieldType}
    {value target : Json} (h : value.equalAs type target = true)
    (hzero : type = .percentage →
      value.readsNegativeZero = false ∧ target.readsNegativeZero = false) :
    settings.formatValue type value = settings.formatValue type target := by
  by_cases hnumeric : type.isNumeric = true
  · obtain ⟨x, y, hx, hy, hsame⟩ := Json.exists_sameValue_of_equalAs hnumeric h
    rw [formatValue_of_numberView settings hnumeric hx,
      formatValue_of_numberView settings hnumeric hy]
    apply congrArg String.ofList
    apply numberText_congr settings type hsame
    intro htype
    obtain ⟨hvalue, htarget⟩ := hzero htype
    exact Binary64.eq_of_sameValue (Json.isNegativeZero_of_numberView hvalue hx)
      (Json.isNegativeZero_of_numberView htarget hy) hsame
  · cases type with
    | text => exact eq_of_beq h
    | date =>
        obtain ⟨d, e, hd, he, hsame⟩ := Json.exists_of_bothEqual h
        rw [formatValue_date settings hd, formatValue_date settings he, eq_of_beq hsame]
    | boolean =>
        obtain ⟨b, c, hb, hc, hsame⟩ := Json.exists_of_bothEqual h
        rw [formatValue_boolean settings hb, formatValue_boolean settings hc, eq_of_beq hsame]
    | _ => exact absurd rfl hnumeric

/-- **Values that a rule takes for equal are shown alike.**  If an equality rule accepts a record,
the value at the rule's path and the rule's target have the same text in a field of the rule's type,
under all settings.  Only in a field of percentages it matters that neither is the negative zero. -/
theorem format_eq_of_equals (settings : FormatSettings) {rule : FilterRule} {record value : Json}
    (hequals : rule.operator = .equals) (haccepts : rule.accepts record = true)
    (hvalue : record.resolve? rule.field = some value)
    (hzero : rule.fieldType = .percentage →
      value.readsNegativeZero = false ∧ rule.target.readsNegativeZero = false) :
    settings.format rule.fieldType (some value)
      = settings.format rule.fieldType (some rule.target) := by
  rw [format_eq, format_eq, Option.getD_some, Option.getD_some]
  exact formatValue_eq_of_equalAs settings (FilterRule.equalAs_of_accepts hequals haccepts hvalue)
    hzero

/-- The theorem at a percentage that is written with blanks and an exponent, and asked for as it is
shown. -/
theorem format_eq_of_equals_scientific_percentage :
    let rule : FilterRule := ⟨"rate", "rate", .percentage, .equals, .str "+250.0", .and⟩
    let deal : Json := .obj [("rate", .str " 2.5e2 ")]
    rule.operator = .equals ∧ rule.accepts deal = true ∧
      deal.resolve? rule.field = some (.str " 2.5e2 ") ∧
      (Json.str " 2.5e2 ").readsNegativeZero = false ∧
      rule.target.readsNegativeZero = false ∧
      default.format .percentage (some (.str " 2.5e2 "))
        = default.format .percentage (some (.str "+250.0")) := by
  intro rule deal
  have hvalue : deal.resolve? rule.field = some (.str " 2.5e2 ") := by
    rw [Json.resolve?_eq_get? (by decide) (by decide)]
    rfl
  have haccepts : rule.accepts deal = true := by
    unfold FilterRule.accepts
    rw [Json.resolvePresent?_eq_some hvalue nofun]
    decide +kernel
  have hzero : (Json.str " 2.5e2 ").readsNegativeZero = false ∧
      rule.target.readsNegativeZero = false := by decide +kernel
  exact ⟨rfl, haccepts, hvalue, hzero.1, hzero.2,
    format_eq_of_equals default rfl haccepts hvalue fun _ => hzero⟩

/-- The two zeros are equal, and percentages tell them apart. -/
example : (Json.str "0").equalAs .percentage (.str "-0") = true ∧
    default.format .percentage (some (.str "0")) = "0.0%" ∧
    default.format .percentage (some (.str "-0")) = "-0.0%" := by
  decide +kernel

end FormatSettings

end Reporting
