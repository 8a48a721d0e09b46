import Reporting.Filter.Rule
import Reporting.Settings
import Reporting.Source

/-!
# Errors

The reasons for which an operation can fail.  Failures of the database, of files and of JSON texts
have no wording of their own here; every other reason has a message.
-/

namespace Reporting

/-- Why an argument cannot be used. -/
inductive ArgumentFault where
  | settings (fault : SettingsFault)
  | noTable (source : Source)
  /-- An earlier task failed while it held the engine. -/
  | lockPoisoned
  /-- The task itself failed. -/
  | taskFailed
  deriving DecidableEq

/-- The wording of a fault; a failed task has none. -/
def ArgumentFault.message? : ArgumentFault → Option String
  | .settings fault => some fault.message
  | .noTable source => some ("no record table for source '" ++ source.name ++ "'")
  | .lockPoisoned => some "engine lock poisoned"
  | .taskFailed => none

/-- Why an operation failed. -/
inductive ReportError where
  | database
  | io
  | json
  | configurationInvalid (messages : List String)
  | invalidFilter (fault : FilterFault)
  | invalidArgument (fault : ArgumentFault)
  deriving DecidableEq

/-- The wording of an error, for the reasons that have one. -/
def ReportError.message? : ReportError → Option String
  | .database => none
  | .io => none
  | .json => none
  | .configurationInvalid messages =>
    some ("Invalid report configuration: " ++ String.intercalate "; " messages)
  | .invalidFilter fault => some ("Invalid filter: " ++ fault.message)
  | .invalidArgument fault => fault.message?.map fun text => "Invalid argument: " ++ text

/-- The result of an operation that can fail. -/
abbrev Result (α : Type) := Except ReportError α

end Reporting
