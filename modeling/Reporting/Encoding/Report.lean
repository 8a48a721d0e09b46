import Reporting.Encoding.Configuration
import Reporting.Report

/-!
# Reports as JSON

Rows, columns, validation results and whole reports.  Of a row only the display values are written,
so a row that is read back knows no values behind them.
-/

namespace Reporting

namespace ColumnAlign

/-- The name of a side as a value. -/
def json (align : ColumnAlign) : Json := .str align.name

/-- Read a side from its name. -/
def ofDocument? : Document → Option ColumnAlign := Document.named? name [.left, .right]

end ColumnAlign

namespace Column

/-- A column as a value. -/
def json (column : Column) : Json :=
  .object [("id", .str column.id), ("label", .str column.label), ("type", column.type.json),
    ("align", column.align.json)]

/-- Read a column. -/
def ofDocument? (document : Document) : Option Column := do
  let fields ← document.fields? ["id", "label", "type", "align"]
  let id ← Document.required? fields "id" Document.string?
  let label ← Document.required? fields "label" Document.string?
  let type ← Document.required? fields "type" FieldType.ofDocument?
  let align ← Document.required? fields "align" ColumnAlign.ofDocument?
  some ⟨id, label, type, align⟩

end Column

namespace Row

/-- Read a row from an object of its display values. -/
def ofDocument? (document : Document) : Option Row := do
  let value ← document.json?
  let members ← value.members?
  some (ofMembers members)

end Row

namespace ValidationResult

/-- A validation result as a value. -/
def json (result : ValidationResult) : Json :=
  .object [("isValid", .bool result.isValid), ("errors", .arr (result.errors.map .str))]

/-- Read a validation result. -/
def ofDocument? (document : Document) : Option ValidationResult := do
  let fields ← document.fields? ["isValid", "errors"]
  let isValid ← Document.required? fields "isValid" Document.boolean?
  let errors ← Document.required? fields "errors" (Document.array? Document.string?)
  some ⟨isValid, errors⟩

end ValidationResult

namespace Instant

/-- A moment as a value. -/
def json (moment : Instant) : Json := .str (String.ofList moment.chars)

/-- Read a moment from a timestamp. -/
def ofDocument? (document : Document) : Option Instant :=
  document.string?.bind fun text => read? text.toList

end Instant

namespace Report

/-- The parts of a report that its configuration and the records decide. -/
def contentMembers (report : Report) : Members :=
  [("config", report.config.json),
    ("data", .arr (report.data.map Row.json)),
    ("columns", .arr (report.columns.map Column.json)),
    ("generatedBy", .str report.generatedBy),
    ("rowCount", .ofNat report.rowCount)]

/-- A report as a value. -/
def json (report : Report) : Json :=
  .object ([("id", .str report.id), ("generatedAt", report.generatedAt.json)]
    ++ report.contentMembers)

/-- Read a report. -/
def ofDocument? (document : Document) : Option Report := do
  let fields ← document.fields?
    ["id", "config", "data", "columns", "generatedAt", "generatedBy", "rowCount"]
  let id ← Document.required? fields "id" Document.string?
  let config ← Document.required? fields "config" Configuration.ofDocument?
  let data ← Document.required? fields "data" (Document.array? Row.ofDocument?)
  let columns ← Document.required? fields "columns" (Document.array? Column.ofDocument?)
  let generatedAt ← Document.required? fields "generatedAt" Instant.ofDocument?
  let generatedBy ← Document.required? fields "generatedBy" Document.string?
  let rowCount ← Document.required? fields "rowCount" Document.natural?
  some ⟨id, config, data, columns, generatedAt, generatedBy, rowCount.toNat⟩

end Report

end Reporting
