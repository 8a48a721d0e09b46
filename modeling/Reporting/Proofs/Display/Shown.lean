import Reporting.Proofs.Display.Amount

/-!
# What a value is shown as

A value is shown by the view that its type needs.  All numeric types look at the same view, the
number, and write it in their own way (`FormatSettings.numberText`): an amount, with a sign and a
currency symbol in front of it or a percent sign behind it (`FormatSettings.numberText_eq`).
-/

namespace Reporting

namespace FormatSettings

/-- The text of a number in a field of a numeric type. -/
def numberText (settings : FormatSettings) (type : FieldType) (x : Binary64) : List Char :=
  match type with
  | .currency => settings.currency (.finite x)
  | .percentage => percentage (.finite x)
  | _ => settings.number (.finite x)

variable (settings : FormatSettings) {type : FieldType} {value : Json}

/-- A value that is a number is shown by its number alone. -/
theorem formatValue_of_numberView (hnumeric : type.isNumeric = true) {x : Binary64}
    (h : value.numberView = some x) :
    settings.formatValue type value = String.ofList (settings.numberText type x) := by
  unfold formatValue
  cases type
  case number => simp only [h, numberText]
  case currency => simp only [h, numberText]
  case percentage => simp only [h, numberText]
  all_goals cases hnumeric

theorem formatValue_date {d : Date} (h : value.dateView = some d) :
    settings.formatValue .date value = String.ofList (settings.date d) := by
  unfold formatValue
  dsimp only
  rw [h]

theorem formatValue_boolean {b : Bool} (h : value.truthView = some b) :
    settings.formatValue .boolean value = settings.label b := by
  unfold formatValue
  dsimp only
  rw [h]

/-- A value that is not there is shown like `null`. -/
theorem format_eq (settings : FormatSettings) (type : FieldType) (value : Option Json) :
    settings.format type value = settings.formatValue type (value.getD .null) := by
  have hnull : settings.formatValue type .null = "" := by cases type <;> rfl
  cases value with
  | none => exact hnull.symm
  | some value =>
      cases value with
      | null => exact hnull.symm
      | _ => rfl

/-- A field of a numeric type shows the text of the number. -/
theorem toList_format_of_numberView (settings : FormatSettings) {type : FieldType}
    (hnumeric : type.isNumeric = true) {value : Json} {x : Binary64}
    (h : value.numberView = some x) :
    (settings.format type (some value)).toList = settings.numberText type x := by
  rw [format_eq, Option.getD_some, formatValue_of_numberView settings hnumeric h,
    String.toList_ofList]

section Amounts

variable (settings : FormatSettings)

/-- The number of decimals in the amounts of a numeric type. -/
def places : FieldType → Nat
  | .currency => settings.currencyDecimals.toNat
  | .percentage => 1
  | _ => 3

/-- What stands in front of an amount, behind its sign. -/
def front : FieldType → List Char
  | .currency => settings.currencySymbol.toList
  | _ => []

/-- What stands behind an amount. -/
def back : FieldType → List Char
  | .percentage => ['%']
  | _ => []

/-- The digits of a number as a numeric type shows them, with their separators. -/
def amount (type : FieldType) (x : Binary64) : List Char :=
  match type with
  | .currency => settings.grouped (x.fixed settings.currencyDecimals.toNat)
  | .percentage => (x.fixed 1).chars
  | _ => settings.grouped (x.fixed 3).trimmed

/-- Whether a minus sign is shown in front of an amount. -/
def showsMinus (type : FieldType) (x : Binary64) : Bool :=
  match type with
  | .percentage => x.negative
  | _ => (Extended.finite x).isNegative && hasNonzeroDigit (settings.amount type x)

/-- **The text of a number is its amount between a sign and symbols.** -/
theorem numberText_eq {settings : FormatSettings}
    (hmark : ∃ c ∈ settings.decimalMark, c.isDigit = false) (type : FieldType) (x : Binary64) :
    settings.numberText type x = (if settings.showsMinus type x then ['-'] else [])
      ++ settings.front type ++ settings.amount type x ++ back type := by
  have hnumber : settings.number (.finite x)
      = sign (.finite x) (settings.grouped (x.fixed 3).trimmed) ++ []
        ++ settings.grouped (x.fixed 3).trimmed ++ [] := by
    rw [number_eq hmark, List.append_nil, List.append_nil]
  cases type with
  | currency => exact (List.append_nil _).symm
  | percentage =>
      show (_ ++ (x.fixed 1).whole ++ _) ++ ['%'] = _ ++ [] ++ ((x.fixed 1).whole ++ _) ++ ['%']
      rw [List.append_nil, List.append_assoc _ (x.fixed 1).whole]
      rfl
  | _ => exact hnumber

end Amounts

end FormatSettings

end Reporting
