import Reporting.Record.Order
import Reporting.Row

/-!
# Sorting rows

Rows are sorted by a list of rules.  The first rule on which two rows differ decides, and rows that
agree on every rule keep their order.
-/

namespace Reporting

/-- Upwards or downwards. -/
inductive SortDirection where
  | asc
  | desc
  deriving DecidableEq

/-- The name of a direction. -/
def SortDirection.name : SortDirection → String
  | .asc => "asc"
  | .desc => "desc"

/-- Sort by the value under an output key or at a path. -/
structure SortRule where
  field : String
  direction : SortDirection
  deriving DecidableEq

namespace SortRule

/-- Sort upwards. -/
def ascending (field : String) : SortRule := ⟨field, .asc⟩

/-- Sort downwards. -/
def descending (field : String) : SortRule := ⟨field, .desc⟩

/-- The order of two rows by one rule. -/
def compare (rule : SortRule) (a b : Row) : Ordering :=
  let order := Json.order (a.sortValue? rule.field) (b.sortValue? rule.field)
  match rule.direction with
  | .asc => order
  | .desc => order.swap

end SortRule

namespace Row

/-- The order of two rows by a list of rules. -/
def compare : List SortRule → Row → Row → Ordering
  | [], _, _ => .eq
  | rule :: rules, a, b => (rule.compare a b).then (compare rules a b)

/-- Whether a row may stand before another one. -/
def precedes (rules : List SortRule) (a b : Row) : Bool :=
  compare rules a b != .gt

/-- The rows in the order of the rules. -/
def sort (rules : List SortRule) (rows : List Row) : List Row :=
  rows.mergeSort (precedes rules)

end Row

end Reporting
