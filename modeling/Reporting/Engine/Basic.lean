import Reporting.Catalog.Standard
import Reporting.Report
import Reporting.Store.Import

/-!
# The report engine

An engine has a record store, a catalog and display conventions.  It is opened with options; the
conventions are checked then, and a store in a file has to be reachable.  What is in a file is
there again when the engine is opened the next time, what is in memory is not.
-/

namespace Reporting

/-- Where an engine keeps its records. -/
inductive Location where
  | memory
  | file (path : String)
  /-- A file whose directory cannot be made, because a plain file stands in its way. -/
  | obstructed (path : String)
  deriving DecidableEq

/-- What an engine is opened with. -/
structure EngineOptions where
  location : Location
  catalog : Option Catalog
  settings : Option FormatSettings

/-- An open engine. -/
structure Engine where
  location : Location
  database : Database
  catalog : Catalog
  settings : FormatSettings

namespace EngineOptions

/-- Records in memory, the standard catalog and the usual conventions. -/
def default : EngineOptions := ⟨.memory, none, none⟩

/-- Open an engine whose file, if it has one, holds some tables already. -/
def openWith (options : EngineOptions) (stored : Database) : Result Engine :=
  let settings := options.settings.getD .default
  let catalog := options.catalog.getD .standard
  match settings.fault? with
  | some fault => .error (.invalidArgument (.settings fault))
  | none =>
    match options.location with
    | .memory => .ok ⟨.memory, .empty, catalog, settings⟩
    | .file path => .ok ⟨.file path, stored, catalog, settings⟩
    | .obstructed _ => .error .io

/-- Open an engine for the first time. -/
def openNew (options : EngineOptions) : Result Engine :=
  options.openWith .empty

end EngineOptions

namespace Engine

/-- Close an engine and open it again. -/
def reopen (engine : Engine) : Result Engine :=
  EngineOptions.openWith ⟨engine.location, some engine.catalog, some engine.settings⟩
    engine.database

/-- Whether the records are kept in memory. -/
def isInMemory (engine : Engine) : Bool :=
  engine.location == .memory

/-- Validate a configuration against the catalog. -/
def validate (engine : Engine) (config : Configuration) : ValidationResult :=
  config.validate (some engine.catalog)

/-- Make a report of a configuration without consulting the catalog. -/
def generateUnchecked (engine : Engine) (config : Configuration) (scope : Scope)
    (stamp : Stamp) : Result Report :=
  Report.generate engine.database engine.settings config scope stamp

/-- Validate a configuration and make its report. -/
def generate (engine : Engine) (config : Configuration) (scope : Scope) (stamp : Stamp) :
    Result Report := do
  (engine.validate config).toResult
  engine.generateUnchecked config scope stamp

/-- The rows of a configuration, without any validation. -/
def rows (engine : Engine) (config : Configuration) (scope : Scope) : List Row :=
  config.rows engine.settings engine.database scope

/-- The engine with other tables. -/
def withDatabase (engine : Engine) (database : Database) : Engine :=
  { engine with database := database }

/-- Add a record of a source. -/
def insertRecord (engine : Engine) (source : Source) (record : Json) : Result Engine :=
  (engine.database.insertRecord source record).map engine.withDatabase

/-- Add records of a source. -/
def insertRecords (engine : Engine) (source : Source) (records : List Json) : Result Engine :=
  (engine.database.insertRecords source records).map engine.withDatabase

/-- Add a row as it is. -/
def insertRow (engine : Engine) (source : Source) (row : StoredRecord) : Result Engine :=
  (engine.database.insertRow source row).map engine.withDatabase

/-- Add the records of a file, with their number. -/
def importFile (engine : Engine) (source : Source) (file : Option FileContent) :
    Result (Nat × Engine) :=
  (engine.database.importFile source file).map fun (count, database) =>
    (count, engine.withDatabase database)

/-- Remove all records of a source. -/
def clear (engine : Engine) (source : Source) : Result Engine :=
  (engine.database.clear source).map engine.withDatabase

/-- A line about the engine: where its records are, and which sources its catalog has. -/
def describe (engine : Engine) : String :=
  let store :=
    match engine.location with
    | .memory => ":memory:"
    | .file path => path
    | .obstructed path => path
  "ReportEngine(store=" ++ store ++ ", sources=["
    ++ String.intercalate ", " (engine.catalog.sources.map Source.name) ++ "])"

end Engine

end Reporting
