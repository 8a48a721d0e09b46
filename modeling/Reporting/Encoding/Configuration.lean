import Reporting.Configuration
import Reporting.Encoding.Shape
import Reporting.Scope

/-!
# Configurations as JSON

Every part of a configuration is written as JSON and read from documents.  What is written has
every field, except a grouping or an order that is absent; what is read may leave out the fields
with a default.
-/

namespace Reporting

namespace FieldType

/-- The name of a type as a value. -/
def json (type : FieldType) : Json := .str type.name

/-- Read a type from its name. -/
def ofDocument? : Document → Option FieldType := Document.named? name all

end FieldType

namespace FilterOperator

/-- The name of an operator as a value. -/
def json (operator : FilterOperator) : Json := .str operator.name

/-- Read an operator from its name. -/
def ofDocument? : Document → Option FilterOperator := Document.named? name all

end FilterOperator

namespace LogicalOperator

/-- The name of a combination as a value. -/
def json (operator : LogicalOperator) : Json := .str operator.name

/-- Read a combination from its name, in small or in capital letters. -/
def ofDocument? (document : Document) : Option LogicalOperator := do
  let name ← document.choice?
  if name = "and" ∨ name = "AND" then some .and
  else if name = "or" ∨ name = "OR" then some .or
  else none

end LogicalOperator

namespace AggregationFunction

/-- The name of a function as a value. -/
def json (function : AggregationFunction) : Json := .str function.name

/-- Read a function from its name. -/
def ofDocument? : Document → Option AggregationFunction := Document.named? name all

end AggregationFunction

namespace SortDirection

/-- The name of a direction as a value. -/
def json (direction : SortDirection) : Json := .str direction.name

/-- Read a direction from its name. -/
def ofDocument? : Document → Option SortDirection := Document.named? name [.asc, .desc]

end SortDirection

namespace Role

/-- The name of a role. -/
def name : Role → String
  | .admin => "admin"
  | .agent => "agent"

/-- The name of a role as a value. -/
def json (role : Role) : Json := .str role.name

/-- Read a role from its name. -/
def ofDocument? : Document → Option Role := Document.named? name [.admin, .agent]

end Role

namespace Source

/-- The name of a source as a value. -/
def json (source : Source) : Json := .str source.name

/-- Read a source from its name. -/
def ofDocument? (document : Document) : Option Source :=
  document.string?.map ofName

end Source

namespace Scope

/-- A scope as a value. -/
def json (scope : Scope) : Json :=
  .object [("userId", .str scope.userId), ("role", scope.role.json)]

/-- Read a scope. -/
def ofDocument? (document : Document) : Option Scope := do
  let fields ← document.fields? ["userId", "role"]
  let userId ← Document.required? fields "userId" Document.string?
  let role ← Document.required? fields "role" Role.ofDocument?
  some ⟨userId, role⟩

end Scope

namespace SelectedField

/-- A selected field as a value. -/
def json (field : SelectedField) : Json :=
  .object [("id", .str field.id), ("source", field.source.json), ("path", .str field.path),
    ("label", .str field.label), ("type", field.type.json)]

/-- Read a selected field. -/
def ofDocument? (document : Document) : Option SelectedField := do
  let fields ← document.fields? ["id", "source", "path", "label", "type"]
  let id ← Document.required? fields "id" Document.string?
  let source ← Document.required? fields "source" Source.ofDocument?
  let path ← Document.required? fields "path" Document.string?
  let label ← Document.required? fields "label" Document.string?
  let type ← Document.required? fields "type" FieldType.ofDocument?
  some ⟨id, source, path, label, type⟩

end SelectedField

namespace AvailableField

/-- An available field as a value. -/
def json (field : AvailableField) : Json :=
  .object [("id", .str field.id), ("source", field.source.json), ("path", .str field.path),
    ("label", .str field.label), ("type", field.type.json),
    ("allowGrouping", .bool field.allowGrouping),
    ("allowAggregation", .bool field.allowAggregation)]

/-- Read an available field. -/
def ofDocument? (document : Document) : Option AvailableField := do
  let fields ← document.fields?
    ["id", "source", "path", "label", "type", "allowGrouping", "allowAggregation"]
  let id ← Document.required? fields "id" Document.string?
  let source ← Document.required? fields "source" Source.ofDocument?
  let path ← Document.required? fields "path" Document.string?
  let label ← Document.required? fields "label" Document.string?
  let type ← Document.required? fields "type" FieldType.ofDocument?
  let allowGrouping ← Document.required? fields "allowGrouping" Document.boolean?
  let allowAggregation ← Document.required? fields "allowAggregation" Document.boolean?
  some ⟨id, source, path, label, type, allowGrouping, allowAggregation⟩

end AvailableField

namespace FilterRule

/-- A rule as a value. -/
def json (rule : FilterRule) : Json :=
  .object [("id", .str rule.id), ("field", .str rule.field), ("fieldType", rule.fieldType.json),
    ("operator", rule.operator.json), ("value", rule.target),
    ("logicalOperator", rule.logicalOperator.json)]

/-- Read a rule.  Without a target it is `null`. -/
def ofDocument? (document : Document) : Option FilterRule := do
  let fields ← document.fields?
    ["id", "field", "fieldType", "operator", "value", "logicalOperator"]
  let id ← Document.required? fields "id" Document.string?
  let field ← Document.required? fields "field" Document.string?
  let fieldType ← Document.required? fields "fieldType" FieldType.ofDocument?
  let operator ← Document.required? fields "operator" FilterOperator.ofDocument?
  let target ← Document.defaulted? fields "value" .null Document.json?
  let logicalOperator ←
    Document.defaulted? fields "logicalOperator" .and LogicalOperator.ofDocument?
  some ⟨id, field, fieldType, operator, target, logicalOperator⟩

end FilterRule

namespace Aggregation

/-- An aggregation as a value. -/
def json (agg : Aggregation) : Json :=
  .object [("field", .str agg.field), ("function", agg.function.json), ("label", .str agg.label)]

/-- Read an aggregation. -/
def ofDocument? (document : Document) : Option Aggregation := do
  let fields ← document.fields? ["field", "function", "label"]
  let field ← Document.required? fields "field" Document.string?
  let function ← Document.required? fields "function" AggregationFunction.ofDocument?
  let label ← Document.required? fields "label" Document.string?
  some ⟨field, function, label⟩

end Aggregation

namespace Grouping

/-- A grouping as a value. -/
def json (grouping : Grouping) : Json :=
  .object [("groupBy", .arr (grouping.groupBy.map .str)),
    ("aggregations", .arr (grouping.aggregations.map Aggregation.json))]

/-- Read a grouping. -/
def ofDocument? (document : Document) : Option Grouping := do
  let fields ← document.fields? ["groupBy", "aggregations"]
  let groupBy ← Document.required? fields "groupBy" (Document.array? Document.string?)
  let aggregations ←
    Document.defaulted? fields "aggregations" [] (Document.array? Aggregation.ofDocument?)
  some ⟨groupBy, aggregations⟩

end Grouping

namespace SortRule

/-- A sort rule as a value. -/
def json (rule : SortRule) : Json :=
  .object [("field", .str rule.field), ("direction", rule.direction.json)]

/-- Read a sort rule.  Without a direction it goes upwards. -/
def ofDocument? (document : Document) : Option SortRule := do
  let fields ← document.fields? ["field", "direction"]
  let field ← Document.required? fields "field" Document.string?
  let direction ← Document.defaulted? fields "direction" .asc SortDirection.ofDocument?
  some ⟨field, direction⟩

end SortRule

namespace Configuration

/-- The member of a part that may be absent. -/
def optionalMember (name : String) : Option Json → Members
  | some value => [(name, value)]
  | none => []

/-- A configuration as a value. -/
def json (config : Configuration) : Json :=
  .object ([("dataSources", .arr (config.dataSources.map Source.json)),
      ("fields", .arr (config.fields.map SelectedField.json)),
      ("filters", .arr (config.filters.map FilterRule.json))]
    ++ optionalMember "grouping" (config.grouping.map Grouping.json)
    ++ optionalMember "sorting"
        (config.sorting.map fun rules => .arr (rules.map SortRule.json)))

/-- Read a configuration. -/
def ofDocument? (document : Document) : Option Configuration := do
  let fields ← document.fields? ["dataSources", "fields", "filters", "grouping", "sorting"]
  let dataSources ← Document.required? fields "dataSources" (Document.array? Source.ofDocument?)
  let selected ← Document.required? fields "fields" (Document.array? SelectedField.ofDocument?)
  let filters ← Document.defaulted? fields "filters" [] (Document.array? FilterRule.ofDocument?)
  let grouping ← Document.optional? fields "grouping" Grouping.ofDocument?
  let sorting ← Document.optional? fields "sorting" (Document.array? SortRule.ofDocument?)
  some ⟨dataSources, selected, filters, grouping, sorting⟩

end Configuration

end Reporting
