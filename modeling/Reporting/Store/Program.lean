import Reporting.Store.Import

/-!
# Store operations as they take effect

A store program works on the tables step by step.  What it has written stays written, also if it
fails later on: with the reason of a failure come the tables as they are at that point.  Records are
written row by row.

So that a program fails as a whole, everything that can fail has to come before its first write.
-/

namespace Reporting

/-- A computation that reads and writes the tables of a database and may fail on the way. -/
abbrev StoreProgram (α : Type) := EStateM ReportError Database α

namespace StoreProgram

/-- Go on with the value of a computation that has nothing to do with the tables. -/
def ofResult {α : Type} : Result α → StoreProgram α
  | .ok value => pure value
  | .error reason => throw reason

/-- Write one row at the end of a table. -/
def writeRow (b : BuiltIn) (row : StoredRecord) : StoreProgram Unit :=
  modify fun db => db.withTable (db.table b ++ [row]) b

/-- Write the rows of some records, numbered from the number after `seq`. -/
def writeRecords (b : BuiltIn) : Int → List Json → StoreProgram Unit
  | _, [] => pure ()
  | seq, record :: rest => do
    let next := Table.wrapped (seq + 1)
    writeRow b ⟨next, record.owner?, record.text⟩
    writeRecords b next rest

/-- Add records of a source, and count them. -/
def insertRecords (source : Source) (records : List Json) : StoreProgram Nat := do
  let b ← ofResult (Database.requireTable source)
  let db ← get
  writeRecords b (db.table b).maxSeq records
  return records.length

/-- Add one record of a source. -/
def insertRecord (source : Source) (record : Json) : StoreProgram Unit := do
  let _ ← insertRecords source [record]

/-- Add the records of a file, and count them. -/
def importFile (source : Source) (file : Option FileContent) : StoreProgram Nat := do
  let content ← match file with
    | some content => pure content
    | none => throw .io
  let records ← ofResult content.records
  insertRecords source records

/-- Remove all records of a source. -/
def clear (source : Source) : StoreProgram Unit := do
  let b ← ofResult (Database.requireTable source)
  modify fun db => db.withTable [] b

/-- The number of records of a source. -/
def count (source : Source) : StoreProgram Nat := do
  return (← get).count source

/-- The records of a source that a scope sees. -/
def load (source : Source) (scope : Scope) : StoreProgram (List Json) := do
  return RecordStore.load (← get) source scope

end StoreProgram

end Reporting
