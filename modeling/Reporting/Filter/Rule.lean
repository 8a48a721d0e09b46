import Reporting.Filter.Operator
import Reporting.Text.Blank

/-!
# Filter rules

A rule asks a question about the value at a path, in the terms of a field type.  `FilterRule.fault?`
finds what makes a rule impossible to evaluate: no path, an operator that the type does not have,
or a target of the wrong shape.
-/

namespace Reporting

/-- A question about the value at a path. -/
structure FilterRule where
  id : String
  field : String
  fieldType : FieldType
  operator : FilterOperator
  /-- A value, a pair for a range, or a list of alternatives. -/
  target : Json
  logicalOperator : LogicalOperator

/-- What is wrong with a rule. -/
inductive FilterFault where
  | noField (id : String)
  | wrongType (operator : FilterOperator) (type : FieldType) (field : String)
  | noRange (field : String)
  | noList (field : String)
  deriving DecidableEq

/-- The wording of a fault. -/
def FilterFault.message : FilterFault → String
  | .noField id => "filter '" ++ id ++ "' has no field"
  | .wrongType operator type field =>
    "operator '" ++ operator.name ++ "' is not valid for " ++ type.name ++ " field '" ++ field
      ++ "'"
  | .noRange field => "'between' on '" ++ field ++ "' requires a [low, high] pair"
  | .noList field => "'in' on '" ++ field ++ "' requires a list of values"

namespace FilterRule

/-- The fault in the shape of the target, if there is one. -/
def targetFault? (rule : FilterRule) : Option FilterFault :=
  match rule.operator, rule.target with
  | .between, .arr [_, _] => none
  | .between, _ => some (.noRange rule.field)
  | .oneOf, .arr _ => none
  | .oneOf, _ => some (.noList rule.field)
  | _, _ => none

/-- The first fault of a rule: of its path, of its operator, of its target. -/
def fault? (rule : FilterRule) : Option FilterFault :=
  if Text.isBlankText rule.field then some (.noField rule.id)
  else if !rule.operator.isValidFor rule.fieldType then
    some (.wrongType rule.operator rule.fieldType rule.field)
  else rule.targetFault?

/-- A rule without faults. -/
def make (id field : String) (type : FieldType) (operator : FilterOperator) (target : Json) :
    Except FilterFault FilterRule :=
  let rule : FilterRule := ⟨id, field, type, operator, target, .and⟩
  match rule.fault? with
  | some fault => .error fault
  | none => .ok rule

/-- The rule with another wish for its combination. -/
def withLogicalOperator (rule : FilterRule) (operator : LogicalOperator) : FilterRule :=
  { rule with logicalOperator := operator }

end FilterRule

end Reporting
