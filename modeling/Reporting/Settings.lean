import Reporting.Calendar.Pattern

/-!
# Format settings

The display conventions of an engine.  Settings can be used only if the date pattern is well formed
and the decimal separator is neither empty nor equal to the thousands separator.
-/

namespace Reporting

/-- Display conventions. -/
structure FormatSettings where
  currencySymbol : String
  currencyDecimals : UInt64
  thousandsSeparator : String
  decimalSeparator : String
  dateFormat : String
  trueLabel : String
  falseLabel : String
  deriving DecidableEq

/-- What is wrong with some settings. -/
inductive SettingsFault where
  | datePattern (pattern : String)
  | noDecimalSeparator
  | equalSeparators (separator : String)
  deriving DecidableEq

/-- The wording of a fault. -/
def SettingsFault.message : SettingsFault → String
  | .datePattern pattern => "invalid date format '" ++ pattern ++ "'"
  | .noDecimalSeparator => "decimal separator must not be empty"
  | .equalSeparators separator =>
    "decimal separator '" ++ separator ++ "' equals the thousands separator"

namespace FormatSettings

/-- The usual conventions. -/
def default : FormatSettings where
  currencySymbol := "$"
  currencyDecimals := 2
  thousandsSeparator := ","
  decimalSeparator := "."
  dateFormat := "%m/%d/%Y"
  trueLabel := "Yes"
  falseLabel := "No"

/-- The first fault of some settings. -/
def fault? (settings : FormatSettings) : Option SettingsFault :=
  if !Pattern.isWellFormed settings.dateFormat then some (.datePattern settings.dateFormat)
  else if settings.decimalSeparator.isEmpty then some .noDecimalSeparator
  else if settings.decimalSeparator = settings.thousandsSeparator then
    some (.equalSeparators settings.decimalSeparator)
  else none

end FormatSettings

end Reporting
