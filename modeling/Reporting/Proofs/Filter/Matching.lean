import Reporting.Report

/-!
# Lists of rules

All rules of a list are required, so a rule more is a choice more among the records that are kept.
It makes no difference whether that choice is made after the others (`keepMatching_concat`) or
before them (`keepMatching_filter`), so a report with a rule more is the report of any store whose
fetched records are those that the rule accepts (`Configuration.rows_filter_of_fetchAll`).

A rule that asks for a text accepts the records that have a value with this text at its path
(`FilterRule.accepts_textIs`).
-/

namespace Reporting

/-- A rule more is a choice among the records that the other rules keep. -/
theorem keepMatching_concat (rules : List FilterRule) (rule : FilterRule) (records : List Json) :
    keepMatching (rules ++ [rule]) records = (keepMatching rules records).filter rule.accepts := by
  simp [keepMatching, List.filter_filter, List.all_append, Bool.and_comm]

/-- A choice by a rule may be made before the other rules are asked. -/
theorem keepMatching_filter (rules : List FilterRule) (rule : FilterRule) (records : List Json) :
    keepMatching rules (records.filter rule.accepts) = keepMatching (rules ++ [rule]) records := by
  simp [keepMatching, List.filter_filter, List.all_append]

namespace Configuration

variable {σ τ : Type} [RecordStore σ] [RecordStore τ]

/-- The rows of a report with a rule more are made of the records that the rule accepts, among
those that the other rules keep. -/
theorem rows_filter_eq_sort (config : Configuration) (rule : FilterRule)
    (settings : FormatSettings) (store : σ) (scope : Scope) :
    (config.filter rule).rows settings store scope
      = Row.sort config.sortRules (config.rowsOf settings
          ((keepMatching config.filters
            (RecordStore.fetchAll store config.dataSources scope)).filter rule.accepts)) := by
  rw [← keepMatching_concat]
  rfl

/-- If the records that a rule accepts are what is fetched elsewhere, then the report with the rule
is the report that is made there. -/
theorem rows_filter_of_fetchAll {config : Configuration} {rule : FilterRule} {store : σ}
    {other : τ} {scope scope' : Scope} {sources : List Source}
    (hfetch : (RecordStore.fetchAll store config.dataSources scope).filter rule.accepts
      = RecordStore.fetchAll other sources scope') (settings : FormatSettings) :
    (config.filter rule).rows settings store scope
      = ({ config with dataSources := sources } : Configuration).rows settings other scope' := by
  rw [rows_filter_eq_sort, ← keepMatching_concat, ← keepMatching_filter, hfetch]
  rfl

end Configuration

/-- Nothing equals a string strictly but the string. -/
theorem Json.strictEq_str (value : Json) (s : String) :
    value.strictEq (.str s) = (value.str? == some s) := by
  cases value <;> simp [strictEq, same, str?]

/-- The rule that a record has to have a value with a given text at a path. -/
def FilterRule.textIs (id path : String) (combination : LogicalOperator) (text : String) :
    FilterRule :=
  ⟨id, path, .text, .equals, .str text, combination⟩

/-- Such a rule looks at the text view of a value that is neither missing nor `null`. -/
theorem FilterRule.accepts_textIs (id path : String) (combination : LogicalOperator)
    (text : String) (record : Json) :
    (textIs id path combination text).accepts record
      = ((record.resolvePresent? path).map Json.textView == some text) := by
  unfold accepts
  cases hvalue : record.resolvePresent? path with
  | none => simp [textIs, hvalue]
  | some value => simp [textIs, hvalue, acceptsValue, Json.equalAs, Json.textView]

end Reporting
