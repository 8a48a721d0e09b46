import Reporting.Proofs.Filter.Matching
import Reporting.Proofs.Grouping.Partition
import Reporting.Proofs.Sort
import Reporting.Report
import Reporting.Store.Memory

/-!
# Selecting groups

A filter on a path that is grouped by may be asked of the records, or of the finished rows: it
selects whole groups.  The two questions are not put to the same thing.  The filter looks at the
text of a value that is there, the row shows a text from which the separator was removed, and the
empty text for a value that is missing or `null`.  For a text that is not empty both agree on every
record whose own text holds no separator (`accepts_textIs_eq_textAt`).

`Configuration.rows_filter_textIs` carries this through the pipeline, up to the order of the rows.
-/

namespace Reporting

/-- A rule that asks for a text that is not empty and the text of a group key agree on a record,
unless the separator was removed from the text. -/
theorem FilterRule.accepts_textIs_eq_textAt (id : String) (combination : LogicalOperator)
    {path text : String} {record : Json} (htext : text ≠ "")
    (hclean : ∀ value, record.resolve? path = some value →
      Grouping.separator ∉ value.textView.toList) :
    (textIs id path combination text).accepts record
      = (String.ofList (Grouping.textAt record path) == text) := by
  rw [accepts_textIs]
  unfold Json.resolvePresent? Grouping.textAt
  cases hvalue : record.resolve? path with
  | none => simp [Ne.symm htext]
  | some value =>
      by_cases hnull : value.isNull = true
      · have hempty : value.textView = "" := by
          cases value <;> first | rfl | cases hnull
        simp [Option.filter, hnull, hempty, Text.erase, Ne.symm htext]
      · have herase : Text.erase Grouping.separator value.textView.toList
            = value.textView.toList := Text.erase_of_not_mem (hclean value hvalue)
        simp [Option.filter, hnull, herase]

/-- **Filtering before grouping is selecting groups afterwards.**  Take a path that is grouped by
and that is no label.  If no fetched record has the separator in its text at the path, then a rule
that asks for a text there, other than the empty one, leaves exactly the rows that show the text
under the path: each with the same cells, and in the same order after sorting. -/
theorem Configuration.rows_filter_textIs {σ : Type} [RecordStore σ] {config : Configuration}
    {grouping : Grouping} (hgrouping : config.grouping = some grouping) {path : String}
    (hpath : path ∈ grouping.groupBy) (hlabel : ∀ agg ∈ grouping.aggregations, agg.label ≠ path)
    {store : σ} {scope : Scope}
    (hclean : ∀ record ∈ RecordStore.fetchAll store config.dataSources scope,
      ∀ value, record.resolve? path = some value →
        Grouping.separator ∉ value.textView.toList)
    {text : String} (htext : text ≠ "") (id : String) (combination : LogicalOperator)
    (settings : FormatSettings) :
    (config.filter (.textIs id path combination text)).rows settings store scope
      = (config.rows settings store scope).filter fun row =>
          (row.get? path).bind Json.str? == some text := by
  have hgroups : grouping.rows
        ((keepMatching config.filters (RecordStore.fetchAll store config.dataSources scope)).filter
          (FilterRule.textIs id path combination text).accepts)
      = (grouping.rows (keepMatching config.filters
          (RecordStore.fetchAll store config.dataSources scope))).filter fun row =>
            (row.get? path).bind Json.str? == some text := by
    refine grouping.rows_filter fun record hrecord accs => ?_
    have hfetched := (List.mem_filter.mp hrecord).1
    rw [Grouping.get?_row_path hpath hlabel,
      FilterRule.accepts_textIs_eq_textAt id combination htext (hclean record hfetched)]
    simp [Json.str?]
  rw [rows_filter_eq_sort]
  unfold rows rowsOf
  simp only [hgrouping, hgroups]
  exact Row.sort_filter config.sortRules _ _

/-- The theorem at deals of which one has a `null` where the others have a text. -/
theorem Configuration.rows_filter_textIs_won_deals :
    let deal (stage : Json) : Json := .obj [("price", .ofNat 5), ("stage", stage)]
    let store : MemoryStore :=
      MemoryStore.empty.extend (.builtIn .deals)
        [deal (.str "won"), deal .null, deal (.str "lost"), deal (.str "won")]
    let grouping : Grouping := ⟨["stage"], [⟨"price", .sum, "total"⟩]⟩
    let config :=
      ((make [.builtIn .deals] []).group grouping).sort (.descending "total")
    let scope : Scope := .admin "u"
    config.grouping = some grouping ∧ "stage" ∈ grouping.groupBy ∧
      (∀ agg ∈ grouping.aggregations, agg.label ≠ "stage") ∧
      (∀ record ∈ RecordStore.fetchAll store config.dataSources scope,
        ∀ value, record.resolve? "stage" = some value →
          Grouping.separator ∉ value.textView.toList) ∧
      "won" ≠ "" ∧
      (config.filter (.textIs "f" "stage" .and "won")).rows .default store scope
        = (config.rows .default store scope).filter fun row =>
            (row.get? "stage").bind Json.str? == some "won" := by
  intro deal store grouping config scope
  have hgrouping : config.grouping = some grouping := rfl
  have hpath : "stage" ∈ grouping.groupBy := List.mem_singleton.mpr rfl
  have hlabel : ∀ agg ∈ grouping.aggregations, agg.label ≠ "stage" := by
    simp [grouping]
  have hclean : ∀ record ∈ RecordStore.fetchAll store config.dataSources scope,
      ∀ value, record.resolve? "stage" = some value →
        Grouping.separator ∉ value.textView.toList := by
    intro record hrecord value hvalue
    have hfetch : RecordStore.fetchAll store config.dataSources scope
        = [.str "won", .null, .str "lost", .str "won"].map fun stage =>
            .obj [(sourceKey, .str "deals"), ("price", .ofNat 5), ("stage", stage)] := rfl
    rw [hfetch] at hrecord
    obtain ⟨stage, hstage, rfl⟩ := List.mem_map.mp hrecord
    obtain rfl : stage = value := Option.some.inj hvalue
    simp only [List.mem_cons, List.not_mem_nil, or_false] at hstage
    rcases hstage with rfl | rfl | rfl | rfl
    all_goals decide
  exact ⟨hgrouping, hpath, hlabel, hclean, by decide,
    rows_filter_textIs hgrouping hpath hlabel hclean (by decide) "f" .and .default⟩

end Reporting
