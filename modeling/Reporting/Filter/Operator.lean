import Reporting.Field

/-!
# Filter operators

What a filter may ask of a value, and which of these questions make sense for which field type.
-/

namespace Reporting

/-- What a filter asks of a value. -/
inductive FilterOperator where
  | equals
  | notEquals
  | contains
  | notContains
  | startsWith
  | endsWith
  | greaterThan
  | lessThan
  | greaterOrEqual
  | lessOrEqual
  | between
  | oneOf
  | isNull
  | isNotNull
  deriving DecidableEq

namespace FilterOperator

/-- All operators. -/
def all : List FilterOperator :=
  [.equals, .notEquals, .contains, .notContains, .startsWith, .endsWith, .greaterThan, .lessThan,
    .greaterOrEqual, .lessOrEqual, .between, .oneOf, .isNull, .isNotNull]

/-- The name of an operator. -/
def name : FilterOperator → String
  | .equals => "equals"
  | .notEquals => "not-equals"
  | .contains => "contains"
  | .notContains => "not-contains"
  | .startsWith => "starts-with"
  | .endsWith => "ends-with"
  | .greaterThan => "greater-than"
  | .lessThan => "less-than"
  | .greaterOrEqual => "greater-or-equal"
  | .lessOrEqual => "less-or-equal"
  | .between => "between"
  | .oneOf => "in"
  | .isNull => "is-null"
  | .isNotNull => "is-not-null"

/-- The operators that a filter on a field of some type may use. -/
def allowedFor : FieldType → List FilterOperator
  | .text =>
    [.equals, .notEquals, .contains, .notContains, .startsWith, .endsWith, .oneOf, .isNull,
      .isNotNull]
  | .number | .currency | .percentage =>
    [.equals, .notEquals, .greaterThan, .lessThan, .greaterOrEqual, .lessOrEqual, .between, .oneOf,
      .isNull, .isNotNull]
  | .date =>
    [.equals, .notEquals, .greaterThan, .lessThan, .greaterOrEqual, .lessOrEqual, .between,
      .isNull, .isNotNull]
  | .boolean => [.equals, .notEquals, .isNull, .isNotNull]

/-- Whether a filter on a field of some type may use the operator. -/
def isValidFor (operator : FilterOperator) (type : FieldType) : Bool :=
  (allowedFor type).contains operator

end FilterOperator

/-- How a filter says it wants to be combined with the others.  All filters are required,
whatever they say. -/
inductive LogicalOperator where
  | and
  | or
  deriving DecidableEq

/-- The name of a combination. -/
def LogicalOperator.name : LogicalOperator → String
  | .and => "and"
  | .or => "or"

end Reporting
