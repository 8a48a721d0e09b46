import Reporting.Catalog.Basic
import Reporting.Configuration
import Reporting.Error

/-!
# Validation

The issues that keep a configuration from being run, found before any record is read.  Some can be
seen from the configuration alone; a catalog also shows which paths are unknown and which fields
allow no grouping or aggregation.  Every issue is found, in a fixed order.
-/

namespace Reporting

/-- Something that is wrong with a configuration. -/
inductive Issue where
  | noSource
  | noField
  | noGroupBy
  | filter (id : String) (fault : FilterFault)
  | noLabel (function : AggregationFunction) (field : String)
  | blankSortField
  | foreignField (id : String) (source : Source)
  | unknownField (path : String) (source : Source)
  | unknownFilterField (id field : String)
  | unknownGroupBy (path : String)
  | notGroupable (path : String)
  | unknownAggregate (field : String)
  | notAggregatable (field : String)
  deriving DecidableEq

/-- The wording of an issue. -/
def Issue.message : Issue → String
  | .noSource => "At least one data source is required"
  | .noField => "At least one field must be selected"
  | .noGroupBy => "Grouping requires at least one group-by field"
  | .filter id fault => "Filter '" ++ id ++ "': " ++ fault.message
  | .noLabel function field => "Aggregation " ++ function.name ++ " of '" ++ field
      ++ "' needs a label"
  | .blankSortField => "Sort rules must name a field"
  | .foreignField id source => "Field '" ++ id ++ "' reads from source '" ++ source.name
      ++ "', which is not selected"
  | .unknownField path source => "Unknown field '" ++ path ++ "' on source '" ++ source.name ++ "'"
  | .unknownFilterField id field => "Filter '" ++ id ++ "' uses unknown field '" ++ field ++ "'"
  | .unknownGroupBy path => "Cannot group by unknown field '" ++ path ++ "'"
  | .notGroupable path => "Field '" ++ path ++ "' does not support grouping"
  | .unknownAggregate field => "Cannot aggregate unknown field '" ++ field ++ "'"
  | .notAggregatable field => "Field '" ++ field ++ "' does not support aggregation"

/-- The outcome of a validation. -/
structure ValidationResult where
  isValid : Bool
  errors : List String
  deriving DecidableEq

namespace ValidationResult

/-- Valid if there is no issue. -/
def ofIssues (issues : List Issue) : ValidationResult :=
  ⟨issues.isEmpty, issues.map Issue.message⟩

/-- Success, or an error with every message. -/
def toResult (result : ValidationResult) : Result Unit :=
  if result.isValid then .ok () else .error (.configurationInvalid result.errors)

end ValidationResult

namespace Configuration

/-- What a configuration needs before it can run at all: a source, a field, and a path to group by
if there is a grouping. -/
def requiredIssues (config : Configuration) : List Issue :=
  (if config.dataSources.isEmpty then [.noSource] else [])
    ++ (if config.fields.isEmpty then [.noField] else [])
    ++ (match config.grouping with
        | some grouping => if grouping.groupBy.isEmpty then [.noGroupBy] else []
        | none => [])

/-- The issue of a filter by itself. -/
def filterIssues (rule : FilterRule) : List Issue :=
  match rule.fault? with
  | some fault => [.filter rule.id fault]
  | none => []

/-- The issue of an aggregation by itself. -/
def labelIssues (agg : Aggregation) : List Issue :=
  if Text.isBlankText agg.label then [.noLabel agg.function agg.field] else []

/-- The aggregations of a configuration. -/
def aggregations (config : Configuration) : List Aggregation :=
  match config.grouping with
  | some grouping => grouping.aggregations
  | none => []

/-- The paths that a configuration groups by. -/
def groupPaths (config : Configuration) : List String :=
  match config.grouping with
  | some grouping => grouping.groupBy
  | none => []

/-- The issues that show without a catalog. -/
def structuralIssues (config : Configuration) : List Issue :=
  config.filters.flatMap filterIssues
    ++ config.aggregations.flatMap labelIssues
    ++ (if config.sortRules.any fun rule => Text.isBlankText rule.field then [.blankSortField]
        else [])

/-- The issue of a selected field. -/
def fieldIssues (catalog : Catalog) (sources : List Source) (field : SelectedField) :
    List Issue :=
  if !sources.contains field.source then [.foreignField field.id field.source]
  else if (catalog.field? field.source field.path).isNone then
    [.unknownField field.path field.source]
  else []

/-- The issue of the path of a filter.  The source of a record can always be asked for. -/
def filterPathIssues (catalog : Catalog) (sources : List Source) (rule : FilterRule) :
    List Issue :=
  if rule.field ≠ sourceKey ∧ (catalog.findIn? sources rule.field).isNone then
    [.unknownFilterField rule.id rule.field]
  else []

/-- The issue of a path to group by. -/
def groupByIssues (catalog : Catalog) (sources : List Source) (path : String) : List Issue :=
  match catalog.findIn? sources path with
  | none => [.unknownGroupBy path]
  | some field => if field.allowGrouping then [] else [.notGroupable path]

/-- The issue of the path of an aggregation.  Every field can be counted. -/
def aggregationIssues (catalog : Catalog) (sources : List Source) (agg : Aggregation) :
    List Issue :=
  match catalog.findIn? sources agg.field with
  | none => [.unknownAggregate agg.field]
  | some field =>
    if field.allowAggregation || agg.function == .count then [] else [.notAggregatable agg.field]

/-- The issues that a catalog shows. -/
def catalogIssues (catalog : Catalog) (config : Configuration) : List Issue :=
  config.fields.flatMap (fieldIssues catalog config.dataSources)
    ++ config.filters.flatMap (filterPathIssues catalog config.dataSources)
    ++ config.groupPaths.flatMap (groupByIssues catalog config.dataSources)
    ++ config.aggregations.flatMap (aggregationIssues catalog config.dataSources)

/-- All issues, those that a catalog shows only if there is one. -/
def issues (catalog : Option Catalog) (config : Configuration) : List Issue :=
  config.requiredIssues ++ config.structuralIssues
    ++ (match catalog with
        | some catalog => catalogIssues catalog config
        | none => [])

/-- Validate a configuration, with a catalog or without. -/
def validate (catalog : Option Catalog) (config : Configuration) : ValidationResult :=
  .ofIssues (config.issues catalog)

end Configuration

end Reporting
