import Reporting.Proofs.Filter.Matching
import Reporting.Proofs.Sort
import Reporting.Report
import Reporting.Store.Memory

/-!
# One more filter

Without grouping every row of a report is the row of one record, so a report is told by its
records in sorted order (`Configuration.rows_eq_map`).  A rule more leaves out the records that it
does not accept, and since sorting is stable the others keep their order: the report with the rule
is a part of the report without it (`Configuration.rows_filter_sublist`).
-/

namespace Reporting.Configuration

variable {σ : Type} [RecordStore σ]

/-- The records that the filters of a configuration keep, in the order of their rows. -/
def sortedRecords (config : Configuration) (settings : FormatSettings) (store : σ)
    (scope : Scope) : List Json :=
  Row.sortBy config.sortRules (Row.project settings config.fields)
    (keepMatching config.filters (RecordStore.fetchAll store config.dataSources scope))

/-- The rows of a report without grouping are the rows of its records. -/
theorem rows_eq_map {config : Configuration} (hgrouping : config.grouping = none)
    (settings : FormatSettings) (store : σ) (scope : Scope) :
    config.rows settings store scope
      = (config.sortedRecords settings store scope).map
          (Row.project settings config.fields) := by
  unfold rows rowsOf
  simp only [hgrouping, projectAll]
  exact Row.sort_map config.sortRules (Row.project settings config.fields) _

/-- With one more filter they are the rows of those of the records that the rule accepts. -/
theorem rows_filter_eq_map {config : Configuration} (hgrouping : config.grouping = none)
    (rule : FilterRule) (settings : FormatSettings) (store : σ) (scope : Scope) :
    (config.filter rule).rows settings store scope
      = ((config.sortedRecords settings store scope).filter rule.accepts).map
          (Row.project settings config.fields) := by
  rw [rows_filter_eq_sort]
  unfold rowsOf
  simp only [hgrouping, projectAll]
  exact Row.sort_map_filter config.sortRules (Row.project settings config.fields) _ rule.accepts

/-- **One more filter only removes rows.**  In a configuration without grouping, whatever its
sorting, every row comes from one of the records that its filters keep.  After a rule is added the
rows are those whose records the rule accepts: each is unchanged, and they stand in the order in
which they stood. -/
theorem rows_filter_sublist {config : Configuration} (hgrouping : config.grouping = none)
    (rule : FilterRule) (settings : FormatSettings) (store : σ) (scope : Scope) :
    ∃ records : List Json,
      records.Perm (keepMatching config.filters
        (RecordStore.fetchAll store config.dataSources scope)) ∧
      config.rows settings store scope
        = records.map (Row.project settings config.fields) ∧
      (config.filter rule).rows settings store scope
        = (records.filter rule.accepts).map (Row.project settings config.fields) ∧
      ((config.filter rule).rows settings store scope).Sublist
        (config.rows settings store scope) := by
  have hrows := rows_eq_map hgrouping settings store scope
  have hfiltered := rows_filter_eq_map hgrouping rule settings store scope
  refine ⟨config.sortedRecords settings store scope, Row.sortBy_perm _ _ _, hrows, hfiltered, ?_⟩
  rw [hrows, hfiltered]
  exact List.filter_sublist.map _

/-- The theorem at two deals that tie and one that is left out between them. -/
theorem rows_filter_sublist_tied_deals :
    let deal (name stage : String) : Json := .obj [("name", .str name), ("stage", .str stage)]
    let store : MemoryStore :=
      MemoryStore.empty.extend (.builtIn .deals)
        [deal "a" "won", deal "b" "lost", deal "c" "won"]
    let fields : List SelectedField :=
      [⟨"name", .builtIn .deals, "name", "Name", .text⟩,
        ⟨"stage", .builtIn .deals, "stage", "Stage", .text⟩]
    let config := (make [.builtIn .deals] fields).sort (.descending "stage")
    let rule : FilterRule := ⟨"won", "stage", .text, .equals, .str "won", .or⟩
    config.grouping = none ∧ ∃ records : List Json,
      records.Perm (keepMatching config.filters
        (RecordStore.fetchAll store config.dataSources (.admin "u"))) ∧
      config.rows .default store (.admin "u") = records.map (Row.project .default fields) ∧
      (config.filter rule).rows .default store (.admin "u")
        = (records.filter rule.accepts).map (Row.project .default fields) ∧
      ((config.filter rule).rows .default store (.admin "u")).Sublist
        (config.rows .default store (.admin "u")) := by
  intro deal store fields config rule
  exact ⟨rfl, rows_filter_sublist rfl rule .default store (.admin "u")⟩

end Reporting.Configuration
