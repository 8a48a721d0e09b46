import Reporting.Display
import Reporting.Record.Path
import Reporting.Row

/-!
# Projection

Without grouping every record becomes one row with the display text of each selected field.  A
field reads from its own source only: in a record that names another source its cell is empty.
-/

namespace Reporting

/-- The value that a field reads from a record. -/
def SelectedField.valueIn? (field : SelectedField) (record : Json) : Option Json :=
  match record.source? with
  | some source => if source = field.source then record.resolve? field.path else none
  | none => record.resolve? field.path

/-- Add the cell of a field to a row, and remember the value behind it. -/
def Row.addField (settings : FormatSettings) (record : Json) (row : Row) (field : SelectedField) :
    Row :=
  let raw := field.valueIn? record
  let row :=
    match raw with
    | some value => row.insertPathValue field.path value
    | none => row
  row.insertFormatted field.id (.str (settings.format field.type raw)) (raw.getD .null)

/-- The row of a record. -/
def Row.project (settings : FormatSettings) (fields : List SelectedField) (record : Json) : Row :=
  fields.foldl (Row.addField settings record) Row.empty

/-- The rows of some records. -/
def projectAll (settings : FormatSettings) (fields : List SelectedField) (records : List Json) :
    List Row :=
  records.map (Row.project settings fields)

end Reporting
