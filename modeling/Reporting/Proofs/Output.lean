import Mathlib.Data.List.Forall2
import Reporting.Proofs.Engine.Generate
import Reporting.Proofs.Filter.Narrowing
import Reporting.Proofs.Grouping.Partition
import Reporting.Proofs.Projection

/-!
# What a report holds

The keys of the cells of a row are chosen by whoever writes the configuration, and nothing keeps two
cells from having the same key.  Cells are put into a row one after the other, so a cell is lost to
a later one with its key and in no other way.

`Report.holds_of_valid` says so for every report.  Without grouping its rows are one for one those
of the records that the filters keep, and a field has its cell unless a later field has the same id.
With grouping its rows are one for one those of the groups, a path has its text unless an
aggregation is labelled like it, and an aggregation has its result unless a later one has the same
label.
-/

namespace Reporting

namespace Row

/-- A row under some columns holds the fields of a record from a source: each of them, unless it
shares its id with a later one, is shown under the id of the column at its place. -/
def HoldsFields (settings : FormatSettings) (fields : List SelectedField) (columns : List Column)
    (source : Source) (record : Json) (row : Row) : Prop :=
  ∀ place field, LastAt SelectedField.id fields place field →
    ∃ column, columns[place]? = some column ∧
      row.get? column.id = some (.str (field.shownText settings source record))

/-- A row holds a group: for each path, unless it is a label, the text that every record of the
group has there, and for each aggregation, unless it shares its label with a later one, the result
over the records of the group. -/
structure HoldsGroup (grouping : Grouping) (records : List Json) (row : Row) : Prop where
  nonempty : records ≠ []
  text : ∀ path ∈ grouping.groupBy, (∀ agg ∈ grouping.aggregations, agg.label ≠ path) →
    ∀ record ∈ records,
      row.get? path = some (.str (String.ofList (Grouping.textAt record path)))
  result : ∀ place agg, LastAt Aggregation.label grouping.aggregations place agg →
    row.get? agg.label = some (.ofExtended
      ((Accumulator.ofList (records.map fun record => record.resolve? agg.field)).compute
        agg.function))

/-- The row of a record holds its fields. -/
theorem holdsFields_project (settings : FormatSettings) (fields : List SelectedField)
    {source : Source} {record : Json} (hsource : record.source? = some source) :
    (project settings fields record).HoldsFields settings fields (Column.ofFields fields) source
      record := by
  intro place field hlast
  refine ⟨Column.ofField field, ?_, ?_⟩
  · rw [Column.ofFields, List.getElem?_map, hlast.1]
    rfl
  · show (project settings fields record).get? field.id = _
    rw [get?_project, hlast.findRev?_eq, Option.map_some,
      SelectedField.format_valueIn? settings hsource]

end Row

/-- The row of a group holds it. -/
theorem Grouping.holdsGroup_rowFor (grouping : Grouping) {records : List Json} {key : String}
    (hkey : key ∈ keys grouping.groupBy records) :
    (grouping.rowFor records key).HoldsGroup grouping (members grouping.groupBy key records) where
  nonempty := by
    obtain ⟨record, hrecord, hsame⟩ := mem_keys.mp hkey
    exact List.ne_nil_of_mem (List.mem_filter.mpr ⟨hrecord, decide_eq_true hsame⟩)
  text := by
    intro path hpath hlabel record hrecord
    have hsame : Grouping.key grouping.groupBy record = key :=
      of_decide_eq_true (List.mem_filter.mp hrecord).2
    rw [← hsame]
    exact get?_row_path hpath hlabel record _
  result := by
    intro place agg hlast
    exact get?_row_of_lastAt hlast key _

namespace Configuration

variable {σ : Type} [RecordStore σ]

/-- The records that a configuration reports on. -/
def reported (config : Configuration) (store : σ) (scope : Scope) : List Json :=
  keepMatching config.filters (RecordStore.fetchAll store config.dataSources scope)

/-- Without grouping the rows are, in some order, those of the reported records. -/
theorem rows_holdFields {config : Configuration} (hgrouping : config.grouping = none)
    (settings : FormatSettings) (store : σ) (scope : Scope) :
    ∃ records : List Json, records.Perm (config.reported store scope) ∧
      List.Forall₂ (fun record row => ∃ source ∈ config.dataSources,
          record ∈ RecordStore.fetch store source scope ∧
          Row.HoldsFields settings config.fields (Column.ofFields config.fields) source record row)
        records (config.rows settings store scope) := by
  have hperm : (config.sortedRecords settings store scope).Perm (config.reported store scope) :=
    Row.sortBy_perm _ _ _
  refine ⟨config.sortedRecords settings store scope, hperm, ?_⟩
  rw [rows_eq_map hgrouping, List.forall₂_map_right_iff, List.forall₂_same]
  intro record hrecord
  have hkept : record ∈ config.reported store scope := hperm.mem_iff.mp hrecord
  obtain ⟨source, hsource, hfetched⟩ := List.mem_flatMap.mp (List.mem_filter.mp hkept).1
  exact ⟨source, hsource, hfetched, Row.holdsFields_project settings config.fields
    (RecordStore.source?_of_mem_fetch hfetched)⟩

/-- With grouping the rows are, in some order, those of the groups of the reported records. -/
theorem rows_holdGroups {config : Configuration} {grouping : Grouping}
    (hgrouping : config.grouping = some grouping) (settings : FormatSettings) (store : σ)
    (scope : Scope) :
    ∃ keys : List String,
      keys.Perm (Grouping.keys grouping.groupBy (config.reported store scope)) ∧
      List.Forall₂ (fun key row => Row.HoldsGroup grouping
          (Grouping.members grouping.groupBy key (config.reported store scope)) row)
        keys (config.rows settings store scope) := by
  let records := config.reported store scope
  have hrows : config.rows settings store scope
      = (Row.sortBy config.sortRules (grouping.rowFor records)
          (Grouping.keys grouping.groupBy records)).map (grouping.rowFor records) := by
    rw [← Row.sort_map, ← Grouping.rows_eq]
    unfold rows rowsOf
    simp only [hgrouping]
    rfl
  have hperm : (Row.sortBy config.sortRules (grouping.rowFor records)
      (Grouping.keys grouping.groupBy records)).Perm (Grouping.keys grouping.groupBy records) :=
    Row.sortBy_perm _ _ _
  refine ⟨_, hperm, ?_⟩
  rw [hrows, List.forall₂_map_right_iff, List.forall₂_same]
  intro key hkey
  exact Grouping.holdsGroup_rowFor grouping (hperm.mem_iff.mp hkey)

end Configuration

/-- **A cell is lost only to a later one with its key.**  Every configuration that passes validation
is reported on.  Without grouping each row holds the fields of one of the reported records; with
grouping each row holds one of their groups. -/
theorem Report.holds_of_valid {σ : Type} [RecordStore σ] {catalog : Catalog}
    {config : Configuration} (hvalid : (config.validate (some catalog)).isValid = true)
    (settings : FormatSettings) (store : σ) (scope : Scope) (stamp : Stamp) :
    ∃ report, Report.generate store settings config scope stamp = .ok report ∧
      (config.grouping = none →
        ∃ records : List Json, records.Perm (config.reported store scope) ∧
          List.Forall₂ (fun record row => ∃ source ∈ config.dataSources,
              record ∈ RecordStore.fetch store source scope ∧
              Row.HoldsFields settings config.fields report.columns source record row)
            records report.data) ∧
      ∀ grouping, config.grouping = some grouping →
        ∃ keys : List String,
          keys.Perm (Grouping.keys grouping.groupBy (config.reported store scope)) ∧
          List.Forall₂ (fun key row => Row.HoldsGroup grouping
              (Grouping.members grouping.groupBy key (config.reported store scope)) row)
            keys report.data := by
  have hissues : config.issues (some catalog) = [] := List.isEmpty_iff.mp hvalid
  have hrequired := Configuration.requiredIssues_eq_nil hissues
  have hgenerate : Report.generate store settings config scope stamp = .ok
      { id := stamp.reportId
        config := config
        data := config.rows settings store scope
        columns := Column.ofFields config.fields
        generatedAt := stamp.moment
        generatedBy := scope.userId
        rowCount := (config.rows settings store scope).length } := by
    unfold Report.generate
    rw [hrequired]
    rfl
  exact ⟨_, hgenerate,
    fun hgrouping => Configuration.rows_holdFields hgrouping settings store scope,
    fun grouping hgrouping => Configuration.rows_holdGroups hgrouping settings store scope⟩

/-- The theorem at a deal that is shown by two fields with different ids, of which one is of another
source. -/
theorem Report.holds_of_valid_deal_among_expenses :
    let field (b : BuiltIn) : AvailableField := .make (.builtIn b) "price" "Price" .currency
    let catalog : Catalog := (Catalog.empty.register [field .deals]).register [field .expenses]
    let config : Configuration :=
      .make [.builtIn .deals, .builtIn .expenses] [(field .expenses).select, (field .deals).select]
    let store : MemoryStore :=
      MemoryStore.empty.extend (.builtIn .deals) [.obj [("price", .ofNat 250)]]
    let stamp : Stamp := ⟨⟨0, 0⟩, .ofNat 0⟩
    (config.validate (some catalog)).isValid = true ∧
    ∃ report, Report.generate store .default config (.admin "kim") stamp = .ok report ∧
      ∃ records : List Json, records.Perm (config.reported store (.admin "kim")) ∧
        List.Forall₂ (fun record row => ∃ source ∈ config.dataSources,
            record ∈ RecordStore.fetch store source (.admin "kim") ∧
            Row.HoldsFields .default config.fields report.columns source record row)
          records report.data := by
  intro field catalog config store stamp
  have hvalid : (config.validate (some catalog)).isValid = true := rfl
  obtain ⟨report, hreport, hrecords, -⟩ :=
    Report.holds_of_valid hvalid .default store (.admin "kim") stamp
  exact ⟨hvalid, report, hreport, hrecords rfl⟩

/-- Valid configurations whose reports lose cells: of two fields with one id the first has no cell,
of two aggregations with one label the first has none, and the text at a path gives way to a result
with this label. -/
theorem Report.cells_lost_to_later_keys :
    let city : AvailableField :=
      (AvailableField.make (.builtIn .deals) "city" "City" .text).groupable
    let price : AvailableField :=
      (AvailableField.make (.builtIn .deals) "price" "Price" .currency).aggregatable
    let catalog : Catalog := Catalog.empty.register [city, price]
    let store : MemoryStore := MemoryStore.empty.extend (.builtIn .deals)
      [.obj [("city", .str "Lisbon"), ("price", .ofNat 250)]]
    let oneId : Configuration :=
      .make [.builtIn .deals] [{ city.select with id := "x" }, { price.select with id := "x" }]
    let oneLabel : Configuration := (Configuration.make [.builtIn .deals] [city.select]).group
      ⟨["city"], [⟨"price", .sum, "n"⟩, ⟨"price", .count, "n"⟩]⟩
    let labelledPath : Configuration := (Configuration.make [.builtIn .deals] [city.select]).group
      ⟨["city"], [⟨"price", .sum, "city"⟩]⟩
    let cells (config : Configuration) : List (List (String × String)) :=
      (config.rows .default store (.admin "kim")).map fun row =>
        row.values.map fun cell => (cell.1, cell.2.textView)
    (oneId.validate (some catalog)).isValid = true ∧ cells oneId = [[("x", "$250.00")]] ∧
    (oneLabel.validate (some catalog)).isValid = true ∧
      cells oneLabel = [[("city", "Lisbon"), ("n", "1")]] ∧
    (labelledPath.validate (some catalog)).isValid = true ∧
      cells labelledPath = [[("city", "250")]] := by
  decide +kernel

end Reporting
