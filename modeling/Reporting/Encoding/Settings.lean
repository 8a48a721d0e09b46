import Reporting.Encoding.Shape
import Reporting.Error
import Reporting.Json.Reader

/-!
# Format settings as JSON

Settings are written with every field; when they are read, each field that is missing has its usual
value.  A settings file has to hold JSON, and the settings in it have to be usable.
-/

namespace Reporting.FormatSettings

/-- Settings as a value. -/
def json (settings : FormatSettings) : Json :=
  .object [("currencySymbol", .str settings.currencySymbol),
    ("currencyDecimals", .ofUInt64 settings.currencyDecimals),
    ("thousandsSeparator", .str settings.thousandsSeparator),
    ("decimalSeparator", .str settings.decimalSeparator),
    ("dateFormat", .str settings.dateFormat),
    ("trueLabel", .str settings.trueLabel),
    ("falseLabel", .str settings.falseLabel)]

/-- Read settings. -/
def ofDocument? (document : Document) : Option FormatSettings := do
  let fields ← document.fields?
    ["currencySymbol", "currencyDecimals", "thousandsSeparator", "decimalSeparator",
      "dateFormat", "trueLabel", "falseLabel"]
  let text (name usual : String) : Option String :=
    Document.defaulted? fields name usual Document.string?
  let currencySymbol ← text "currencySymbol" default.currencySymbol
  let currencyDecimals ←
    Document.defaulted? fields "currencyDecimals" default.currencyDecimals Document.natural?
  let thousandsSeparator ← text "thousandsSeparator" default.thousandsSeparator
  let decimalSeparator ← text "decimalSeparator" default.decimalSeparator
  let dateFormat ← text "dateFormat" default.dateFormat
  let trueLabel ← text "trueLabel" default.trueLabel
  let falseLabel ← text "falseLabel" default.falseLabel
  some ⟨currencySymbol, currencyDecimals, thousandsSeparator, decimalSeparator, dateFormat,
    trueLabel, falseLabel⟩

/-- The settings, if they have no fault. -/
def checked (settings : FormatSettings) : Result FormatSettings :=
  match settings.fault? with
  | some fault => .error (.invalidArgument (.settings fault))
  | none => .ok settings

/-- The settings in a document, checked. -/
def checkedOfDocument (document : Option Document) : Result FormatSettings :=
  match document.bind ofDocument? with
  | some settings => settings.checked
  | none => .error .json

/-- The settings in a file, checked.  The file may be missing. -/
def ofFile (text : Option String) : Result FormatSettings :=
  match text with
  | some text => checkedOfDocument (Document.read? text)
  | none => .error .io

end Reporting.FormatSettings
