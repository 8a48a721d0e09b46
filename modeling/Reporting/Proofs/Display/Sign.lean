import Reporting.Proofs.Display.Shown

/-!
# The sign of a shown amount

Numbers of opposite sign have the same amount.  Amounts of money and plain numbers show a minus sign
exactly if the number is below zero and the amount has a digit other than zero, which is the case if
the number is not rounded to zero (`FormatSettings.hasNonzeroDigit_amount_iff`).  Percentages show
the sign of the number itself, also in front of an amount of zeros
(`FormatSettings.format_opposite`).
-/

namespace Reporting

namespace Binary64

/-- The number on the other side of zero. -/
def opposite (x : Binary64) : Binary64 :=
  { x with negative := !x.negative }

end Binary64

namespace FormatSettings

open FixedNumeral (hasNonzeroDigit_append hasNonzeroDigit_of_not_isDigit)

/-- Separators that cannot be taken for digits of an amount. -/
structure SeparatorsWithoutDigits (settings : FormatSettings) : Prop where
  thousands : ∀ c ∈ settings.thousandsSeparator.toList, c.isDigit = false
  decimals : ∀ c ∈ settings.decimalSeparator.toList, c.isDigit = false

/-- Separators between the thousands are no digits of an amount. -/
theorem hasNonzeroDigit_groupThousands {separator : List Char}
    (h : ∀ c ∈ separator, c.isDigit = false) (ds : List Char) :
    hasNonzeroDigit (groupThousands separator ds) = hasNonzeroDigit ds := by
  induction ds with
  | nil => rfl
  | cons d rest ih =>
      have hcons (cs : List Char) :
          hasNonzeroDigit (d :: cs) = (hasNonzeroDigit [d] || hasNonzeroDigit cs) :=
        hasNonzeroDigit_append [d] cs
      unfold groupThousands
      split
      · rw [hcons, hasNonzeroDigit_append, hasNonzeroDigit_of_not_isDigit h, ih, Bool.false_or,
          hcons rest]
      · rw [hcons, ih, hcons rest]

section Amounts

variable {settings : FormatSettings} (hseparators : settings.SeparatorsWithoutDigits)
include hseparators

/-- A numeral with its separators has a digit other than zero if its number is not rounded to
zero. -/
theorem hasNonzeroDigit_grouped_iff {numeral : FixedNumeral} {x : Binary64} {places : Nat}
    (h : numeral.Says x places) :
    hasNonzeroDigit (settings.grouped numeral) = true ↔ x.fixedSteps places ≠ 0 := by
  have hmark := hasNonzeroDigit_of_not_isDigit (not_isDigit_of_mem_decimalMark hseparators.decimals)
  rw [← h.hasNonzeroDigit_digits_iff, hasNonzeroDigit_append]
  unfold grouped
  rw [hasNonzeroDigit_append, hasNonzeroDigit_groupThousands hseparators.thousands]
  rcases FixedNumeral.fraction_cases h.fraction_ne_nil with ⟨hnone, hempty⟩ | ⟨hsome, -⟩
  · rw [hnone, hempty]
  · rw [hsome, hasNonzeroDigit_append, hmark, Bool.false_or]

/-- **An amount has a digit other than zero if its number is not rounded to zero.** -/
theorem hasNonzeroDigit_amount_iff (type : FieldType) (x : Binary64) :
    hasNonzeroDigit (settings.amount type x) = true ↔ x.fixedSteps (settings.places type) ≠ 0 := by
  cases type with
  | currency => exact hasNonzeroDigit_grouped_iff hseparators (FixedNumeral.says_fixed x _)
  | percentage => exact (FixedNumeral.says_fixed x 1).hasNonzeroDigit_chars_iff
  | _ => exact hasNonzeroDigit_grouped_iff hseparators (FixedNumeral.says_fixed x 3).trimmed

end Amounts

section Opposite

variable (settings : FormatSettings) (type : FieldType) {x : Binary64} (hx : x.negative = false)

/-- An amount does not depend on the sign. -/
theorem amount_opposite (x : Binary64) :
    settings.amount type x.opposite = settings.amount type x := by
  cases type <;> rfl

include hx

/-- A number that is not below zero shows no minus sign. -/
theorem showsMinus_of_nonneg : settings.showsMinus type x = false := by
  have hnonneg : (Extended.finite x).isNegative = false := by
    simp [Extended.isNegative, Binary64.value, hx]
  cases type with
  | percentage => exact hx
  | _ =>
      unfold showsMinus
      rw [hnonneg, Bool.false_and]

/-- On the other side of zero a minus sign is shown in front of each amount with a digit other than
zero, and in front of each percentage. -/
theorem showsMinus_opposite (hseparators : settings.SeparatorsWithoutDigits) :
    settings.showsMinus type x.opposite
      = (type == .percentage || hasNonzeroDigit (settings.amount type x)) := by
  -- An amount with such a digit is not that of zero, whose opposite is not below zero.
  have hsign : ((Extended.finite x.opposite).isNegative
      && hasNonzeroDigit (settings.amount type x)) = hasNonzeroDigit (settings.amount type x) := by
    rw [Bool.and_eq_right_iff_imp, hasNonzeroDigit_amount_iff hseparators]
    intro hsteps
    have hunits : x.units ≠ 0 := by
      intro hzero
      exact hsteps (Binary64.fixedSteps_of_units_eq_zero hzero _)
    simp [Extended.isNegative, Binary64.value, Binary64.opposite, hx, Nat.pos_iff_ne_zero, hunits]
  cases type with
  | percentage => simp [showsMinus, Binary64.opposite, hx]
  | _ => exact hsign

end Opposite

/-- **Signs of shown amounts.**  If no separator has a digit, a number that is not below zero shows
an amount without a sign, with a digit other than zero if the number is not rounded to zero.  If the
amount has such a digit, the opposite number shows the same text behind a minus sign.  If not, the
opposite number, which may be the negative zero, shows the same text as an amount of money and as a
plain number; as a percentage it shows this text behind a minus sign as well. -/
theorem format_opposite {settings : FormatSettings}
    (hseparators : settings.SeparatorsWithoutDigits) {type : FieldType}
    (hnumeric : type.isNumeric = true) {x : Binary64} (hx : x.negative = false)
    {value opposite : Json} (hvalue : value.numberView = some x)
    (hopposite : opposite.numberView = some x.opposite) :
    ∃ amount,
      (settings.format type (some value)).toList = settings.front type ++ amount ++ back type ∧
      (hasNonzeroDigit amount = true ↔ x.fixedSteps (settings.places type) ≠ 0) ∧
      (hasNonzeroDigit amount = true →
        settings.format type (some opposite) = "-" ++ settings.format type (some value)) ∧
      (hasNonzeroDigit amount = false → type ≠ .percentage →
        settings.format type (some opposite) = settings.format type (some value)) ∧
      (type = .percentage →
        settings.format type (some opposite) = "-" ++ settings.format type (some value)) := by
  have hmark := exists_mem_decimalMark hseparators.decimals
  have hformat : (settings.format type (some value)).toList
      = settings.front type ++ settings.amount type x ++ back type := by
    rw [toList_format_of_numberView settings hnumeric hvalue, numberText_eq hmark,
      showsMinus_of_nonneg settings type hx]
    rfl
  have hother : (settings.format type (some opposite)).toList
      = (if type == .percentage || hasNonzeroDigit (settings.amount type x) then ['-'] else [])
        ++ (settings.format type (some value)).toList := by
    rw [hformat, toList_format_of_numberView settings hnumeric hopposite, numberText_eq hmark,
      amount_opposite, showsMinus_opposite settings type hx hseparators]
    simp only [List.append_assoc]
  have hdigits := hasNonzeroDigit_amount_iff hseparators type x
  refine ⟨settings.amount type x, hformat, hdigits, ?_, ?_, ?_⟩
  · intro hdigit
    apply String.toList_inj.mp
    rw [hother, hdigit, Bool.or_true, String.toList_append]
    rfl
  · intro hzeros htype
    apply String.toList_inj.mp
    rw [hother, hzeros, beq_false_of_ne htype]
    rfl
  · rintro rfl
    apply String.toList_inj.mp
    rw [hother, String.toList_append]
    rfl

theorem separatorsWithoutDigits_default : default.SeparatorsWithoutDigits := by
  have hthousands : default.thousandsSeparator.toList = [','] := by decide
  have hdecimals : default.decimalSeparator.toList = ['.'] := by decide
  constructor
  · rw [hthousands]
    simp
  · rw [hdecimals]
    simp

/-- The theorem at a plain number below zero that is rounded to zero. -/
theorem format_opposite_of_rounded_to_zero :
    ∃ x : Binary64, default.SeparatorsWithoutDigits ∧ x.negative = false ∧
      (Json.str "0.0004").numberView = some x ∧
      (Json.str "-0.0004").numberView = some x.opposite ∧
      default.format .number (some (.str "-0.0004"))
        = default.format .number (some (.str "0.0004")) := by
  let x := (Json.str "0.0004").numberView.get (by decide +kernel)
  have hnumeric : FieldType.number.isNumeric = true := rfl
  have hx : x.negative = false := by decide +kernel
  have hvalue : (Json.str "0.0004").numberView = some x := (Option.some_get _).symm
  have hopposite : (Json.str "-0.0004").numberView = some x.opposite := by decide +kernel
  have hsteps : x.fixedSteps (default.places .number) = 0 := by decide +kernel
  obtain ⟨amount, -, hdigit, -, hzeros, -⟩ :=
    format_opposite separatorsWithoutDigits_default hnumeric hx hvalue hopposite
  have hamount : hasNonzeroDigit amount = false := by
    rw [Bool.eq_false_iff, ne_eq, hdigit, not_not]
    exact hsteps
  exact ⟨x, separatorsWithoutDigits_default, hx, hvalue, hopposite, hzeros hamount nofun⟩

/-- A percentage that is rounded to zero shows a minus sign if the number is below zero or the
negative zero. -/
theorem percentages_of_zero_show_minus :
    ∃ x : Binary64, default.SeparatorsWithoutDigits ∧ 0 < x.value ∧
      default.format .percentage (some (.num (.real x))) = "0.0%" ∧
      default.format .percentage (some (.num (.real x.opposite))) = "-0.0%" ∧
      default.format .percentage (some (.num (.real (Binary64.zero true)))) = "-0.0%" :=
  ⟨(Json.str "0.01").numberView.get (by decide +kernel), separatorsWithoutDigits_default,
    by decide +kernel, by decide +kernel, by decide +kernel, by decide +kernel⟩

end FormatSettings

end Reporting
