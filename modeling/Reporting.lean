import Reporting.Binary64.Basic
import Reporting.Binary64.Decimal
import Reporting.Binary64.Fixed
import Reporting.Binary64.Rounding
import Reporting.Binary64.Shortest
import Reporting.Calendar.Date
import Reporting.Calendar.Instant
import Reporting.Calendar.Iso
import Reporting.Calendar.Pattern
import Reporting.Calendar.Week
import Reporting.Catalog.Basic
import Reporting.Catalog.Standard
import Reporting.Column
import Reporting.Configuration
import Reporting.DataDirectory
import Reporting.Display
import Reporting.Encoding.Configuration
import Reporting.Encoding.Report
import Reporting.Encoding.Settings
import Reporting.Encoding.Shape
import Reporting.Engine.Basic
import Reporting.Engine.Call
import Reporting.Engine.Shared
import Reporting.Error
import Reporting.Field
import Reporting.Filter.Match
import Reporting.Filter.Operator
import Reporting.Filter.Rule
import Reporting.Grouping.Accumulator
import Reporting.Grouping.Group
import Reporting.Json.Basic
import Reporting.Json.Document
import Reporting.Json.Lexeme
import Reporting.Json.Printer
import Reporting.Json.Reader
import Reporting.Keyed
import Reporting.Projection
import Reporting.Proofs.Binary64.Decimal
import Reporting.Proofs.Binary64.Nearest
import Reporting.Proofs.Binary64.Range
import Reporting.Proofs.Binary64.Shortest
import Reporting.Proofs.Binary64.Whole
import Reporting.Proofs.Binary64.WholeText
import Reporting.Proofs.Calendar.Chronology
import Reporting.Proofs.Calendar.Civil
import Reporting.Proofs.Calendar.Counting
import Reporting.Proofs.Calendar.Pattern
import Reporting.Proofs.Calendar.Plain
import Reporting.Proofs.Calendar.Reading
import Reporting.Proofs.Calendar.Specifier
import Reporting.Proofs.Calendar.Timestamp
import Reporting.Proofs.Catalog.Lookup
import Reporting.Proofs.Catalog.Registry
import Reporting.Proofs.Display.Amount
import Reporting.Proofs.Display.CheckedDates
import Reporting.Proofs.Display.Equality
import Reporting.Proofs.Display.Idempotence
import Reporting.Proofs.Display.Sign
import Reporting.Proofs.Display.Thousands
import Reporting.Proofs.Distinct
import Reporting.Proofs.Encoding.RoundTrip
import Reporting.Proofs.Encoding.Shape
import Reporting.Proofs.Engine.Atomicity
import Reporting.Proofs.Engine.Generate
import Reporting.Proofs.Engine.Noninterference
import Reporting.Proofs.Engine.Poisoning
import Reporting.Proofs.FieldOrder
import Reporting.Proofs.Filter.Algebra
import Reporting.Proofs.Filter.Fault
import Reporting.Proofs.Filter.Matching
import Reporting.Proofs.Filter.Narrowing
import Reporting.Proofs.Filter.Verbatim
import Reporting.Proofs.Grouping.Average
import Reporting.Proofs.Grouping.Coarsening
import Reporting.Proofs.Grouping.Cutting
import Reporting.Proofs.Grouping.Key
import Reporting.Proofs.Grouping.Magnitude
import Reporting.Proofs.Grouping.Numbers
import Reporting.Proofs.Grouping.Partition
import Reporting.Proofs.Grouping.Permutation
import Reporting.Proofs.Grouping.Selection
import Reporting.Proofs.Grouping.Summary
import Reporting.Proofs.Grouping.Total
import Reporting.Proofs.Grouping.Tuples
import Reporting.Proofs.Json.Document
import Reporting.Proofs.Json.Numeral
import Reporting.Proofs.Json.Printer
import Reporting.Proofs.Json.Unambiguous
import Reporting.Proofs.Keyed
import Reporting.Proofs.Output
import Reporting.Proofs.Projection
import Reporting.Proofs.Record.Moment
import Reporting.Proofs.Record.Nested
import Reporting.Proofs.Record.NumberText
import Reporting.Proofs.Record.Order
import Reporting.Proofs.Record.Path
import Reporting.Proofs.Record.Ties
import Reporting.Proofs.Record.View
import Reporting.Proofs.Row
import Reporting.Proofs.RowHistory
import Reporting.Proofs.Sort
import Reporting.Proofs.SortKey
import Reporting.Proofs.SortValue
import Reporting.Proofs.SortedColumn
import Reporting.Proofs.Sql.Integers
import Reporting.Proofs.Sql.Placeholders
import Reporting.Proofs.StableSort
import Reporting.Proofs.Store.Appending
import Reporting.Proofs.Store.Fetch
import Reporting.Proofs.Store.History
import Reporting.Proofs.Store.Import
import Reporting.Proofs.Store.Lines
import Reporting.Proofs.Store.Numbering
import Reporting.Proofs.Store.Origin
import Reporting.Proofs.Store.Refinement
import Reporting.Proofs.Store.Scoping
import Reporting.Proofs.Text.Blank
import Reporting.Proofs.Text.Lower
import Reporting.Proofs.Text.Numeral
import Reporting.Proofs.Text.Utf8
import Reporting.Proofs.Validation.Offers
import Reporting.Proofs.Validation.Requirements
import Reporting.Proofs.Validation.SourceOrder
import Reporting.Record.Order
import Reporting.Record.Path
import Reporting.Record.View
import Reporting.Report
import Reporting.Row
import Reporting.Scope
import Reporting.Settings
import Reporting.Sort
import Reporting.Source
import Reporting.Sql.Cast
import Reporting.Sql.Cell
import Reporting.Sql.FixedPoint
import Reporting.Sql.Floating
import Reporting.Sql.Integer
import Reporting.Sql.Moment
import Reporting.Sql.Numeral
import Reporting.Sql.Result
import Reporting.Sql.Select
import Reporting.Sql.TypeName
import Reporting.Sql.WideInteger
import Reporting.Store.Basic
import Reporting.Store.Database
import Reporting.Store.Import
import Reporting.Store.Memory
import Reporting.Store.Program
import Reporting.Text.Blank
import Reporting.Text.CaseTable
import Reporting.Text.Lower
import Reporting.Text.Numeral
import Reporting.Text.Split
import Reporting.Text.Utf8
import Reporting.Validation
