import Reporting.Binary64.Fixed
import Reporting.Field
import Reporting.Record.View
import Reporting.Settings
import Reporting.Text.Split

/-!
# Display text

How a value of a field is shown.  Formatting never fails: nothing and `null` are the empty text,
and a value without the view that its type needs is shown as its text.

Amounts have their digits in groups of three and a fixed number of decimals.  Plain numbers have up
to three decimals and no zeros at their end.  A minus sign stands in front only if the shown amount
has a digit other than zero; percentages show the sign of the number as it is.
-/

namespace Reporting

namespace FormatSettings

/-- The separator in front of the decimals, a point if the setting is empty. -/
def decimalMark (settings : FormatSettings) : List Char :=
  if settings.decimalSeparator.isEmpty then ['.'] else settings.decimalSeparator.toList

/-- Digits in groups of three, counted from the right. -/
def groupThousands (separator : List Char) : List Char → List Char
  | [] => []
  | c :: rest =>
    if rest.length % 3 = 0 ∧ rest ≠ [] then c :: (separator ++ groupThousands separator rest)
    else c :: groupThousands separator rest

/-- A numeral with grouped thousands and the decimal separator of the settings. -/
def grouped (settings : FormatSettings) (numeral : FixedNumeral) : List Char :=
  groupThousands settings.thousandsSeparator.toList numeral.whole
    ++ (match numeral.fraction with
        | some fraction => settings.decimalMark ++ fraction
        | none => [])

/-- Whether an amount shows a digit other than zero. -/
def hasNonzeroDigit (cs : List Char) : Bool :=
  cs.any fun c => c.isDigit && c != '0'

/-- The sign in front of a shown amount. -/
def sign (x : Extended) (body : List Char) : List Char :=
  if x.isNegative && hasNonzeroDigit body then ['-'] else []

/-- An amount of money. -/
def currency (settings : FormatSettings) (x : Extended) : List Char :=
  let body := settings.grouped (x.abs.fixed settings.currencyDecimals.toNat)
  sign x body ++ settings.currencySymbol.toList ++ body

/-- Drop the zeros behind the last decimal separator, and the separator if nothing is left behind
it. -/
def trimFraction (settings : FormatSettings) (body : List Char) : List Char :=
  match Text.splitLast settings.decimalMark body with
  | some (whole, fraction) =>
    let kept := (fraction.reverse.dropWhile fun c => c == '0').reverse
    if kept.isEmpty then whole else whole ++ settings.decimalMark ++ kept
  | none => body

/-- A plain number. -/
def number (settings : FormatSettings) (x : Extended) : List Char :=
  let body := settings.trimFraction (settings.grouped (x.abs.fixed 3))
  sign x body ++ body

/-- A percentage with one decimal. -/
def percentage (x : Extended) : List Char :=
  x.fixedText 1 ++ ['%']

/-- A date in the pattern of the settings, or in plain form if the pattern has no text for a
date. -/
def date (settings : FormatSettings) (d : Date) : List Char :=
  (Pattern.render? settings.dateFormat d).getD d.isoChars

/-- The label of a truth value. -/
def label (settings : FormatSettings) (b : Bool) : String :=
  if b then settings.trueLabel else settings.falseLabel

/-- The display text of a value that is there. -/
def formatValue (settings : FormatSettings) (type : FieldType) (value : Json) : String :=
  match type with
  | .currency =>
    match value.numberView with
    | some n => String.ofList (settings.currency (.finite n))
    | none => value.textView
  | .percentage =>
    match value.numberView with
    | some n => String.ofList (percentage (.finite n))
    | none => value.textView
  | .number =>
    match value.numberView with
    | some n => String.ofList (settings.number (.finite n))
    | none => value.textView
  | .date =>
    match value.dateView with
    | some d => String.ofList (settings.date d)
    | none => value.textView
  | .boolean =>
    match value.truthView with
    | some b => settings.label b
    | none => value.textView
  | .text => value.textView

/-- The display text of a value that may be missing. -/
def format (settings : FormatSettings) (type : FieldType) (value : Option Json) : String :=
  match value with
  | some .null => ""
  | some value => settings.formatValue type value
  | none => ""

end FormatSettings

end Reporting
