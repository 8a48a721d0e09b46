import Reporting.Calendar.Instant
import Reporting.Column
import Reporting.Filter.Match
import Reporting.Projection
import Reporting.Store.Basic
import Reporting.Validation

/-!
# Reports

A report is made in steps: fetch the records of the sources, keep those that match the filters,
group or project them, and sort the rows.  `Configuration.rows` is that pipeline; it depends on the
records that the scope sees and on nothing else.

A finished report also says when and by whom it was made.  Its id is made of the moment and of a
token, both of which the caller provides.
-/

namespace Reporting

namespace Configuration

/-- The rows of some records. -/
def rowsOf (config : Configuration) (settings : FormatSettings) (records : List Json) :
    List Row :=
  match config.grouping with
  | some grouping => grouping.rows records
  | none => projectAll settings config.fields records

/-- The rows of a report. -/
def rows {σ : Type} [RecordStore σ] (config : Configuration) (settings : FormatSettings)
    (store : σ) (scope : Scope) : List Row :=
  let records := RecordStore.fetchAll store config.dataSources scope
  Row.sort config.sortRules (config.rowsOf settings (keepMatching config.filters records))

end Configuration

/-- The random part of a report id. -/
structure Token where
  chars : List Char
  deriving DecidableEq

namespace Token

/-- The number of characters of a token. -/
def size : Nat := 9

/-- The characters of tokens. -/
def alphabet : List Char := "0123456789abcdefghijklmnopqrstuvwxyz".toList

/-- The first places of a number to base 36, the lowest one first. -/
def places : Nat → Nat → List Char
  | 0, _ => []
  | count + 1, n => alphabet.getD (n % 36) '0' :: places count (n / 36)

/-- The token of a number.  The first `36 ^ 9` numbers have different tokens. -/
def ofNat (n : Nat) : Token :=
  ⟨places size n⟩

/-- Whether a text can be the random part of a report id. -/
def isToken (cs : List Char) : Bool :=
  cs.length == size && cs.all alphabet.contains

end Token

/-- What distinguishes one run from another: its moment and its token. -/
structure Stamp where
  moment : Instant
  token : Token

namespace Stamp

/-- The part of a report id that tells the moment. -/
def idStart (moment : Instant) : String :=
  "report_" ++ String.ofList (Text.signedDigits moment.milliseconds) ++ "_"

/-- The id of a report. -/
def reportId (stamp : Stamp) : String :=
  idStart stamp.moment ++ String.ofList stamp.token.chars

end Stamp

/-- A finished report. -/
structure Report where
  id : String
  config : Configuration
  data : List Row
  columns : List Column
  generatedAt : Instant
  generatedBy : String
  rowCount : Nat

namespace Report

/-- Whether the id of a report tells its moment and ends in a token. -/
def hasOwnId (report : Report) : Bool :=
  let start := (Stamp.idStart report.generatedAt).toList
  start.isPrefixOf report.id.toList && Token.isToken (report.id.toList.drop start.length)

/-- Make a report, if the configuration has what it needs. -/
def generate {σ : Type} [RecordStore σ] (store : σ) (settings : FormatSettings)
    (config : Configuration) (scope : Scope) (stamp : Stamp) : Result Report :=
  let issues := config.requiredIssues
  if issues.isEmpty then
    let data := config.rows settings store scope
    .ok {
      id := stamp.reportId
      config := config
      data := data
      columns := Column.ofFields config.fields
      generatedAt := stamp.moment
      generatedBy := scope.userId
      rowCount := data.length }
  else .error (.configurationInvalid (issues.map Issue.message))

end Report

end Reporting
