import Reporting.Source

/-!
# Fields

A field is a path into the records of one source, with a label and a declared type.  The catalog
lists the fields that are available; a report selects some of them.
-/

namespace Reporting

/-- The declared type of a field. -/
inductive FieldType where
  | text
  | number
  | currency
  | percentage
  | date
  | boolean
  deriving DecidableEq

namespace FieldType

/-- All types in their usual order. -/
def all : List FieldType := [.text, .number, .currency, .percentage, .date, .boolean]

/-- The name of a type. -/
def name : FieldType → String
  | .text => "text"
  | .number => "number"
  | .currency => "currency"
  | .percentage => "percentage"
  | .date => "date"
  | .boolean => "boolean"

/-- Numbers, amounts and percentages. -/
def isNumeric : FieldType → Bool
  | .number | .currency | .percentage => true
  | .text | .date | .boolean => false

end FieldType

/-- A field chosen for a report. -/
structure SelectedField where
  id : String
  source : Source
  path : String
  label : String
  type : FieldType
  deriving DecidableEq

/-- A field that a catalog offers. -/
structure AvailableField where
  id : String
  source : Source
  path : String
  label : String
  type : FieldType
  allowGrouping : Bool
  allowAggregation : Bool
  deriving DecidableEq

namespace AvailableField

/-- A field whose id is made of its source and its path, and which allows neither grouping nor
aggregation. -/
def make (source : Source) (path label : String) (type : FieldType) : AvailableField :=
  ⟨source.name ++ "." ++ path, source, path, label, type, false, false⟩

/-- The field with grouping allowed. -/
def groupable (field : AvailableField) : AvailableField :=
  { field with allowGrouping := true }

/-- The field with aggregation allowed. -/
def aggregatable (field : AvailableField) : AvailableField :=
  { field with allowAggregation := true }

/-- The field as chosen for a report. -/
def select (field : AvailableField) : SelectedField :=
  ⟨field.id, field.source, field.path, field.label, field.type⟩

end AvailableField

end Reporting
