import Reporting.Field

/-!
# Field catalogs

A catalog lists the fields of each source, each path once.  Registering a field whose path is
listed already replaces the entry where it stands.  A source that has no fields is not in the
catalog.
-/

namespace Reporting

/-- The fields of each source, in the order of the sources. -/
structure Catalog where
  entries : List (Source × List AvailableField)

namespace Catalog

/-- A catalog without sources. -/
def empty : Catalog := ⟨[]⟩

/-- The fields of a source, in the order in which their paths were first registered. -/
def listFields (catalog : Catalog) (source : Source) : List AvailableField :=
  (Keyed.find? source catalog.entries).getD []

/-- Replace the field with the same path, or add the field at the end. -/
def putField (field : AvailableField) : List AvailableField → List AvailableField
  | [] => [field]
  | entry :: rest =>
    if entry.path = field.path then field :: rest else entry :: putField field rest

/-- Register one field under its source. -/
def registerOne (catalog : Catalog) (field : AvailableField) : Catalog :=
  ⟨Keyed.insert field.source (putField field (catalog.listFields field.source)) catalog.entries⟩

/-- Register some fields in turn. -/
def register (catalog : Catalog) (fields : List AvailableField) : Catalog :=
  fields.foldl registerOne catalog

/-- The field of a source with a path. -/
def field? (catalog : Catalog) (source : Source) (path : String) : Option AvailableField :=
  (catalog.listFields source).find? fun field => field.path = path

/-- The field with a path of the first of some sources that has one. -/
def findIn? (catalog : Catalog) (sources : List Source) (path : String) :
    Option AvailableField :=
  sources.findSome? fun source => catalog.field? source path

/-- The fields of a source that allow grouping. -/
def groupableFields (catalog : Catalog) (source : Source) : List AvailableField :=
  (catalog.listFields source).filter AvailableField.allowGrouping

/-- The fields of a source that allow aggregation. -/
def aggregatableFields (catalog : Catalog) (source : Source) : List AvailableField :=
  (catalog.listFields source).filter AvailableField.allowAggregation

/-- The sources with fields, in their order. -/
def sources (catalog : Catalog) : List Source :=
  catalog.entries.map Prod.fst

end Catalog

end Reporting
