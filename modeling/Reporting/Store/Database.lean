import Reporting.Error
import Reporting.Json.Reader
import Reporting.Json.Printer
import Reporting.Store.Basic

/-!
# The database

The durable store has one table for each built-in source.  A row of a table is a sequence number,
the owner of a record, and the record as compact JSON text.  Sequence numbers go on from the
greatest one in the table, so that reading by them gives the order of insertion.

Loading reads the text of the records back; a row whose text is no JSON is passed over.  The tables
know nothing about the inside of a record apart from its owner.
-/

namespace Reporting

/-- A row of a table. -/
structure StoredRecord where
  seq : Int
  owner : Option String
  body : String
  deriving DecidableEq

/-- The rows of a table, in the order in which they were written. -/
abbrev Table := List StoredRecord

namespace Table

/-- A sequence number of 64 bits; beyond the greatest one the numbers start again at the least. -/
def wrapped (n : Int) : Int :=
  Int.bmod n UInt64.size

/-- The greatest sequence number, zero for an empty table. -/
def maxSeq : Table → Int
  | [] => 0
  | row :: rest => rest.foldl (fun greatest row => max greatest row.seq) row.seq

/-- The rows of some records, numbered from the number after `seq`. -/
def rowsAfter (seq : Int) : List Json → Table
  | [] => []
  | record :: rest =>
    ⟨wrapped (seq + 1), record.owner?, record.text⟩ :: rowsAfter (wrapped (seq + 1)) rest

/-- Add some records at the end. -/
def append (table : Table) (records : List Json) : Table :=
  table ++ rowsAfter table.maxSeq records

/-- The rows by sequence number; rows with one number stay in the order of writing. -/
def bySeq (table : Table) : Table :=
  table.mergeSort fun a b => a.seq ≤ b.seq

/-- The rows with an owner. -/
def ownedBy (table : Table) (owner : String) : Table :=
  table.filter fun row => row.owner == some owner

/-- The rows that a scope sees. -/
def visible (table : Table) (scope : Scope) : Table :=
  match scope.role with
  | .admin => table
  | .agent => table.ownedBy scope.userId

/-- The records that a scope sees, in the order of their numbers. -/
def load (table : Table) (scope : Scope) : List Json :=
  (table.visible scope).bySeq.filterMap fun row => Json.read? row.body

end Table

/-- The tables of the built-in sources. -/
structure Database where
  deals : Table
  properties : Table
  expenses : Table
  commissions : Table
  deriving DecidableEq

namespace Database

/-- Empty tables. -/
def empty : Database := ⟨[], [], [], []⟩

/-- The table of a built-in source. -/
def table (db : Database) : BuiltIn → Table
  | .deals => db.deals
  | .properties => db.properties
  | .expenses => db.expenses
  | .commissions => db.commissions

/-- The tables with one of them replaced. -/
def withTable (db : Database) (rows : Table) : BuiltIn → Database
  | .deals => { db with deals := rows }
  | .properties => { db with properties := rows }
  | .expenses => { db with expenses := rows }
  | .commissions => { db with commissions := rows }

@[simp] theorem table_withTable_self (db : Database) (rows : Table) (b : BuiltIn) :
    (db.withTable rows b).table b = rows := by
  cases b <;> rfl

theorem table_withTable_of_ne (db : Database) (rows : Table) {b c : BuiltIn} (h : c ≠ b) :
    (db.withTable rows b).table c = db.table c := by
  cases b <;> cases c <;> first | rfl | exact absurd rfl h

/-- The rows of a source; none for a source without a table. -/
def rows (db : Database) (source : Source) : Table :=
  match source with
  | .builtIn b => db.table b
  | .other _ _ => []

/-- The table of a source, or the error that it has none. -/
def requireTable (source : Source) : Result BuiltIn :=
  match source with
  | .builtIn b => .ok b
  | .other _ _ => .error (.invalidArgument (.noTable source))

/-- Add records of a source at the end of its table. -/
def insertRecords (db : Database) (source : Source) (records : List Json) : Result Database := do
  let b ← requireTable source
  .ok (db.withTable ((db.table b).append records) b)

/-- Add one record of a source. -/
def insertRecord (db : Database) (source : Source) (record : Json) : Result Database :=
  db.insertRecords source [record]

/-- Add a row as it is. -/
def insertRow (db : Database) (source : Source) (row : StoredRecord) : Result Database := do
  let b ← requireTable source
  .ok (db.withTable (db.table b ++ [row]) b)

/-- The number of records of a source. -/
def count (db : Database) (source : Source) : Nat :=
  (db.rows source).length

/-- Remove all records of a source. -/
def clear (db : Database) (source : Source) : Result Database := do
  let b ← requireTable source
  .ok (db.withTable [] b)

instance : RecordStore Database where
  load db source scope := (db.rows source).load scope

end Database

end Reporting
