import Reporting.Filter.Rule
import Reporting.Record.Order
import Reporting.Record.Path
import Reporting.Record.View

/-!
# Matching records

A rule about a value that is missing or `null` accepts nothing except the question whether it is
missing.  Equality and order of a value and a target are those of the field type's view, so that
`"1200"` is the number 1200 for a number field; where either side has no such view nothing is
equal, less or greater.  Text is searched without regard to letter case.
-/

namespace Reporting

namespace Json

/-- The lower-case text view. -/
def lowerView (value : Json) : List Char :=
  Text.lower value.textView.toList

/-- Whether two optional views are both there and equal. -/
def bothEqual {α : Type} (same : α → α → Bool) : Option α → Option α → Bool
  | some a, some b => same a b
  | _, _ => false

/-- Equality in the terms of a field type. -/
def equalAs (type : FieldType) (value target : Json) : Bool :=
  match type with
  | .number | .currency | .percentage =>
    bothEqual Binary64.sameValue value.numberView target.numberView
  | .date => bothEqual (fun a b => a == b) value.dateView target.dateView
  | .boolean => bothEqual (fun a b => a == b) value.truthView target.truthView
  | .text => value.textView == target.textView

/-- Order in the terms of a field type: by date for a date, otherwise by number. -/
def orderAs? (type : FieldType) (value target : Json) : Option Ordering :=
  match type with
  | .date => do
    let a ← value.dateView
    let b ← target.dateView
    some (a.compare b)
  | _ => do
    let a ← value.numberView
    let b ← target.numberView
    some (a.compare b)

/-- Whether a value is at least a target. -/
def atLeast (type : FieldType) (value target : Json) : Bool :=
  match orderAs? type value target with
  | some .gt | some .eq => true
  | _ => false

/-- Whether a value is at most a target. -/
def atMost (type : FieldType) (value target : Json) : Bool :=
  match orderAs? type value target with
  | some .lt | some .eq => true
  | _ => false

end Json

namespace FilterRule

/-- Whether a value that is there answers the rule's question. -/
def acceptsValue (rule : FilterRule) (value : Json) : Bool :=
  match rule.operator with
  | .equals => value.equalAs rule.fieldType rule.target
  | .notEquals => !value.equalAs rule.fieldType rule.target
  | .contains => Text.occursIn rule.target.lowerView value.lowerView
  | .notContains => !Text.occursIn rule.target.lowerView value.lowerView
  | .startsWith => rule.target.lowerView.isPrefixOf value.lowerView
  | .endsWith => rule.target.lowerView.isSuffixOf value.lowerView
  | .greaterThan => value.orderAs? rule.fieldType rule.target == some .gt
  | .lessThan => value.orderAs? rule.fieldType rule.target == some .lt
  | .greaterOrEqual => value.atLeast rule.fieldType rule.target
  | .lessOrEqual => value.atMost rule.fieldType rule.target
  | .between =>
    match rule.target with
    | .arr [low, high] => value.atLeast rule.fieldType low && value.atMost rule.fieldType high
    | _ => false
  | .oneOf =>
    match rule.target with
    | .arr candidates => candidates.any value.strictEq
    | _ => false
  | .isNull => false
  | .isNotNull => true

/-- Whether a record answers the rule's question. -/
def accepts (rule : FilterRule) (record : Json) : Bool :=
  match record.resolvePresent? rule.field with
  | some value => rule.acceptsValue value
  | none => rule.operator == .isNull

end FilterRule

/-- The records that every rule accepts. -/
def keepMatching (rules : List FilterRule) (records : List Json) : List Json :=
  records.filter fun record => rules.all fun rule => rule.accepts record

end Reporting
