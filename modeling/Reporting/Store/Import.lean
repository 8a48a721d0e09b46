import Reporting.Store.Database
import Reporting.Text.Blank
import Reporting.Text.Utf8

/-!
# Importing files

A file with one JSON record on each line.  Lines end at a line feed, and one carriage return in
front of it belongs to the line end; the last line may lack its end.  Blank lines are skipped.

The lines are read in order, so the first line that is not text or not JSON decides about the
error.  Nothing is written unless every line can be read.
-/

namespace Reporting

/-- The content of a file: its characters, with `none` for a byte that belongs to none. -/
abbrev FileContent := List (Option Char)

namespace FileContent

/-- The content of a file with a text. -/
def ofText (text : String) : FileContent :=
  text.toList.map some

/-- The content of a file with some bytes. -/
def ofBytes (bytes : List UInt8) : FileContent :=
  Text.decodeUtf8 bytes

/-- Put one character in front of the first line. -/
def consFirst (c : Option Char) : List FileContent → List FileContent
  | [] => [[c]]
  | line :: lines => (c :: line) :: lines

/-- The lines of a file, without their ends.  There is no line after the last line feed. -/
def lines : FileContent → List FileContent
  | [] => []
  | some '\n' :: rest => [] :: lines rest
  | some '\r' :: some '\n' :: rest => [] :: lines rest
  | c :: rest => consFirst c (lines rest)

/-- The characters of a line, unless a byte of it belongs to none. -/
def characters? : FileContent → Option (List Char)
  | [] => some []
  | none :: _ => none
  | some c :: rest => (characters? rest).map (c :: ·)

/-- The records on some lines. -/
def readLines : List FileContent → Result (List Json)
  | [] => .ok []
  | line :: rest =>
    match characters? line with
    | none => .error .io
    | some cs =>
      if cs.all Text.isBlank then readLines rest
      else
        match Json.read? (String.ofList cs) with
        | none => .error .json
        | some record => (readLines rest).map (record :: ·)

/-- The records of a file. -/
def records (content : FileContent) : Result (List Json) :=
  readLines content.lines

end FileContent

namespace Database

/-- Add the records of a file to a table, with their number.  A file that is not there cannot be
imported. -/
def importFile (db : Database) (source : Source) (file : Option FileContent) :
    Result (Nat × Database) := do
  let content ← match file with
    | some content => .ok content
    | none => .error .io
  let records ← content.records
  let db ← db.insertRecords source records
  .ok (records.length, db)

end Database

end Reporting
