import Reporting.Field

/-!
# Columns

The head of a report: one column for each selected field, in their order.  Numbers and amounts stand
on the right, everything else on the left.
-/

namespace Reporting

/-- The side on which a column is aligned. -/
inductive ColumnAlign where
  | left
  | right
  deriving DecidableEq

/-- The name of a side. -/
def ColumnAlign.name : ColumnAlign → String
  | .left => "left"
  | .right => "right"

/-- The side for a field type. -/
def FieldType.align : FieldType → ColumnAlign
  | .number | .currency => .right
  | .text | .percentage | .date | .boolean => .left

/-- One column of a report. -/
structure Column where
  id : String
  label : String
  type : FieldType
  align : ColumnAlign
  deriving DecidableEq

/-- The column of a field. -/
def Column.ofField (field : SelectedField) : Column :=
  ⟨field.id, field.label, field.type, field.type.align⟩

/-- The columns of some fields. -/
def Column.ofFields (fields : List SelectedField) : List Column :=
  fields.map Column.ofField

end Reporting
