import Reporting.Grouping.Accumulator
import Reporting.Record.Path
import Reporting.Row

/-!
# Grouping

Records are put into groups by the texts of their values at some paths.  The texts are joined into
one key by a separator that is first removed from them, so the key can be cut into the texts again.
Groups come in the order in which they are first seen.  Each becomes one row: the texts under their
paths, then the result of each aggregation under its label.
-/

namespace Reporting

/-- A computation over the values at a path, shown under a label. -/
structure Aggregation where
  field : String
  function : AggregationFunction
  label : String
  deriving DecidableEq

/-- What to group by and what to compute. -/
structure Grouping where
  groupBy : List String
  aggregations : List Aggregation
  deriving DecidableEq

namespace Grouping

/-- The character between the texts of a group key. -/
def separator : Char := '\x1f'

/-- The text of a record at a path, without the separator.  A missing value has the empty text. -/
def textAt (record : Json) (path : String) : List Char :=
  match record.resolve? path with
  | some value => Text.erase separator value.textView.toList
  | none => []

/-- The key of the group that a record belongs to. -/
def key (paths : List String) (record : Json) : String :=
  String.ofList (Text.join separator (paths.map (textAt record)))

/-- A group under construction: its key and one accumulator for each aggregation. -/
abbrev Bucket := String × List Accumulator

/-- Let each accumulator take the record's value for its aggregation. -/
def addRecord (aggregations : List Aggregation) (record : Json) (accs : List Accumulator) :
    List Accumulator :=
  List.zipWith (fun acc (agg : Aggregation) => acc.add (record.resolve? agg.field)) accs
    aggregations

/-- Put a record into the group with a key, which is made at the end if it is not there. -/
def place (aggregations : List Aggregation) (record : Json) (key : String) :
    List Bucket → List Bucket
  | [] => [(key, addRecord aggregations record (aggregations.map fun _ => .empty))]
  | (k, accs) :: rest =>
    if k = key then (k, addRecord aggregations record accs) :: rest
    else (k, accs) :: place aggregations record key rest

/-- The groups of some records. -/
def buckets (grouping : Grouping) (records : List Json) : List Bucket :=
  records.foldl
    (fun done record => place grouping.aggregations record (key grouping.groupBy record) done) []

/-- The cells of the texts that a group key is made of. -/
def keyCells (paths : List String) (key : String) : List (String × Json) :=
  List.zip paths ((Text.split separator key.toList).map fun part => .str (String.ofList part))

/-- The cells of the results of some aggregations. -/
def resultCells (aggregations : List Aggregation) (accs : List Accumulator) :
    List (String × Json) :=
  List.zipWith
    (fun acc (agg : Aggregation) => (agg.label, .ofExtended (acc.compute agg.function))) accs
    aggregations

/-- The row of a group. -/
def row (grouping : Grouping) (bucket : Bucket) : Row :=
  (keyCells grouping.groupBy bucket.1 ++ resultCells grouping.aggregations bucket.2).foldl
    (fun row cell => row.insert cell.1 cell.2) Row.empty

/-- One row for each group of records. -/
def rows (grouping : Grouping) (records : List Json) : List Row :=
  (grouping.buckets records).map grouping.row

end Grouping

end Reporting
