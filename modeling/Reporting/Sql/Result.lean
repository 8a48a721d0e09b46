import Reporting.Keyed
import Reporting.Sql.Cell

/-!
# Reading query results

The database answers a query with named columns and with rows of one cell for each column.  All of it
is read, each row as the values of its cells under the names of their columns, or only the first cell
of the first row.
-/

namespace Reporting

/-- What the database answers to a query. -/
structure QueryResult where
  columns : List String
  rows : List (List Cell)
  columns_ne_nil : columns ≠ []
  length_eq : ∀ row ∈ rows, row.length = columns.length

namespace QueryResult

/-- The rows with the values of their cells.  Where columns share a name the last one counts. -/
def records (result : QueryResult) : List Members :=
  result.rows.map fun row => Keyed.ofList (result.columns.zip (row.map Cell.json))

/-- The value of the first cell of the first row, if there are rows. -/
def scalar? (result : QueryResult) : Option Json :=
  result.rows.head?.bind fun row => row.head?.map Cell.json

end QueryResult

end Reporting
