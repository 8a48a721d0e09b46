/-!
# The data directory

Where the records of an engine are kept when no place is named: in the directory that
`XDG_DATA_HOME` names, if that is an absolute path, otherwise below the home directory.
-/

namespace Reporting.DataDirectory

/-- The name of the directory of this library. -/
def name : String := "agency-reports"

/-- The name of the database file. -/
def databaseFile : String := "records.duckdb"

/-- A path with one more part. -/
def child (path part : String) : String :=
  if path.isEmpty then part
  else if path.endsWith "/" then path ++ part
  else path ++ "/" ++ part

/-- The data directory. -/
def default (dataHome : Option String) (home : String) : String :=
  match dataHome with
  | some path =>
    if path.startsWith "/" then child path name
    else child (child home ".local/share") name
  | none => child (child home ".local/share") name

/-- The path of the database file in the data directory. -/
def databasePath (dataHome : Option String) (home : String) : String :=
  child (default dataHome home) databaseFile

end Reporting.DataDirectory
