import Reporting.Filter.Rule
import Reporting.Grouping.Group
import Reporting.Sort

/-!
# Report configurations

What a report is to show: the sources, the selected fields, the filters, and optionally a grouping
and an order.  The builder functions add one part each.
-/

namespace Reporting

/-- A description of a report. -/
structure Configuration where
  dataSources : List Source
  fields : List SelectedField
  filters : List FilterRule
  grouping : Option Grouping
  sorting : Option (List SortRule)

namespace Configuration

/-- A configuration without filters, grouping and order. -/
def make (dataSources : List Source) (fields : List SelectedField) : Configuration :=
  ⟨dataSources, fields, [], none, none⟩

/-- The rules to sort by. -/
def sortRules (config : Configuration) : List SortRule :=
  config.sorting.getD []

/-- Add a filter. -/
def filter (rule : FilterRule) (config : Configuration) : Configuration :=
  { config with filters := config.filters ++ [rule] }

/-- Set the grouping. -/
def group (grouping : Grouping) (config : Configuration) : Configuration :=
  { config with grouping := some grouping }

/-- Add a rule to sort by after those that are there. -/
def sort (rule : SortRule) (config : Configuration) : Configuration :=
  { config with sorting := some (config.sortRules ++ [rule]) }

end Configuration

end Reporting
