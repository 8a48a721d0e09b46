import Reporting.Scope
import Reporting.Source

/-!
# Record stores

A record store answers one question: which records of a source does a scope see, in which order.
Fetching for a report adds the name of the source to every record.  Only objects can carry it, so
other records are left out; a source that is not built in has no records for a report.

Loading is total: stores whose load fails are left out.  A failed load would be the answer to the whole
report, before any row is made, so whatever is said of fetched records and of rows is said of reports
whose loads succeed.
-/

namespace Reporting

/-- Something that holds records.  A store whose load fails, such as a database that cannot be read any
more, is left out. -/
class RecordStore (σ : Type) where
  /-- The records of a source that a scope sees, in their stable order. -/
  load : σ → Source → Scope → List Json

/-- The record with the name of its source, if it is an object. -/
def Json.tag? (source : Source) (record : Json) : Option Json :=
  match record with
  | .obj members => some (.obj (Keyed.insert sourceKey (.str source.name) members))
  | _ => none

namespace RecordStore

variable {σ : Type} [RecordStore σ]

/-- The tagged records of a source. -/
def fetch (store : σ) (source : Source) (scope : Scope) : List Json :=
  match source with
  | .builtIn _ => (load store source scope).filterMap (Json.tag? source)
  | .other _ _ => []

/-- The tagged records of some sources, one source after the other. -/
def fetchAll (store : σ) (sources : List Source) (scope : Scope) : List Json :=
  sources.flatMap fun source => fetch store source scope

end RecordStore

end Reporting
