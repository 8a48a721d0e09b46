import Reporting.Proofs.Filter.Narrowing
import Reporting.Proofs.Keyed
import Reporting.Proofs.Projection

/-!
# What projected rows are sorted by

A projected row has a value behind every cell, so the display text of a cell is never what the row
is sorted by: a key that is the id of a field stands for the value of the last field with this id,
and every other key for the value at a path (`Row.sortValue?_project`).  Nothing of this looks at
the display settings.

Hence settings never move a row.  The records of a report stand in one order, and each way of
displaying them shows the same records in the same places (`Configuration.rows_of_any_settings`).
-/

namespace Reporting

/-- A field reads what stands at its path, if it reads anything. -/
theorem SelectedField.resolve?_of_valueIn? {field : SelectedField} {record value : Json}
    (h : field.valueIn? record = some value) : record.resolve? field.path = some value := by
  unfold valueIn? at h
  cases hsource : record.source? with
  | none =>
      rw [hsource] at h
      exact h
  | some source =>
      simp only [hsource] at h
      split at h
      · exact h
      · cases h

namespace Row

theorem raw_addField (settings : FormatSettings) (record : Json) (row : Row)
    (field : SelectedField) :
    (addField settings record row field).raw
      = Keyed.insert field.id ((field.valueIn? record).getD .null) row.raw := by
  unfold addField
  cases field.valueIn? record <;> rfl

theorem byPath_addField (settings : FormatSettings) (record : Json) (row : Row)
    (field : SelectedField) :
    (addField settings record row field).byPath
      = match field.valueIn? record with
        | some value => Keyed.insertNew field.path value row.byPath
        | none => row.byPath := by
  unfold addField
  cases field.valueIn? record <;> rfl

theorem raw_foldl_addField (settings : FormatSettings) (record : Json)
    (fields : List SelectedField) (row : Row) :
    (fields.foldl (addField settings record) row).raw
      = fields.foldl (fun done field =>
          Keyed.insert field.id ((field.valueIn? record).getD .null) done) row.raw := by
  induction fields generalizing row with
  | nil => rfl
  | cons field rest ih => rw [List.foldl_cons, ih, raw_addField, List.foldl_cons]

/-- The value behind a cell is the one that the last field with the id reads. -/
theorem find?_raw_project (settings : FormatSettings) (fields : List SelectedField)
    (record : Json) (key : String) :
    Keyed.find? key (project settings fields record).raw
      = (fields.findRev? fun field => field.id == key).map fun field =>
          (field.valueIn? record).getD .null := by
  unfold project
  rw [raw_foldl_addField, Keyed.find?_foldl_insert]
  exact Option.or_none

/-- Whether some field reads a value at a path of a record. -/
def readsAt (fields : List SelectedField) (record : Json) (path : String) : Bool :=
  fields.any fun field => field.path == path && (field.valueIn? record).isSome

/-- Fields that are added to a row leave the path of a value alone, and under a path that has no
value they put the one that stands there in the record, if one of them reads it. -/
theorem find?_byPath_foldl_addField (settings : FormatSettings) (record : Json) (path : String)
    (fields : List SelectedField) (row : Row) :
    Keyed.find? path (fields.foldl (addField settings record) row).byPath
      = (Keyed.find? path row.byPath).or
          (if readsAt fields record path then record.resolve? path else none) := by
  induction fields generalizing row with
  | nil => simp [readsAt]
  | cons field rest ih =>
      rw [List.foldl_cons, ih, byPath_addField]
      unfold readsAt
      rw [List.any_cons]
      cases hvalue : field.valueIn? record with
      | none => simp
      | some value =>
          have hresolve := SelectedField.resolve?_of_valueIn? hvalue
          rw [Keyed.find?_insertNew]
          by_cases hpath : field.path = path
          · -- Whatever a later field reads at this path is the same value.
            subst hpath
            cases Keyed.find? field.path row.byPath <;> simp [hresolve]
          · simp [hpath]

/-- The value at a path is the one that stands there in the record, if some field reads it.  It
makes no difference which field was the first to read it. -/
theorem find?_byPath_project (settings : FormatSettings) (fields : List SelectedField)
    (record : Json) (path : String) :
    Keyed.find? path (project settings fields record).byPath
      = if readsAt fields record path then record.resolve? path else none :=
  find?_byPath_foldl_addField settings record path fields empty

/-- **What a projected row is sorted by** is never a display text.  Where there is a cell there is a
value behind it, so a key without such a value has no cell either and can only be a path. -/
theorem sortValue?_project (settings : FormatSettings) (fields : List SelectedField)
    (record : Json) (key : String) :
    (project settings fields record).sortValue? key
      = ((fields.findRev? fun field => field.id == key).map fun field =>
          (field.valueIn? record).getD .null).or
        (if readsAt fields record key then record.resolve? key else none) := by
  have hcell : Keyed.find? key (project settings fields record).values
      = (fields.findRev? fun field => field.id == key).map fun field =>
          .str (settings.format field.type (field.valueIn? record)) :=
    get?_project settings fields record key
  unfold sortValue?
  rw [hcell, find?_raw_project, find?_byPath_project]
  cases fields.findRev? fun field => field.id == key <;> rfl

/-- Rules compare rows by their sort values and by nothing else. -/
theorem compare_congr {a a' b b' : Row} (ha : ∀ key, a.sortValue? key = a'.sortValue? key)
    (hb : ∀ key, b.sortValue? key = b'.sortValue? key) (rules : List SortRule) :
    compare rules a b = compare rules a' b' := by
  induction rules with
  | nil => rfl
  | cons rule rest ih =>
      have hrule : rule.compare a b = rule.compare a' b' := by
        unfold SortRule.compare
        rw [ha rule.field, hb rule.field]
      unfold compare
      rw [hrule, ih]

/-- Items are sorted alike by rows with the same sort values. -/
theorem sortBy_congr {α : Type} {row row' : α → Row}
    (h : ∀ item key, (row item).sortValue? key = (row' item).sortValue? key)
    (rules : List SortRule) (items : List α) :
    sortBy rules row items = sortBy rules row' items := by
  have hle : (fun a b => precedes rules (row a) (row b))
      = fun a b => precedes rules (row' a) (row' b) := by
    funext a b
    unfold precedes
    rw [compare_congr (h a) (h b)]
  unfold sortBy
  rw [hle]

end Row

namespace Configuration

variable {σ : Type} [RecordStore σ]

/-- The order of the records behind a report does not depend on how they are displayed. -/
theorem sortedRecords_settings (config : Configuration) (settings settings' : FormatSettings)
    (store : σ) (scope : Scope) :
    config.sortedRecords settings store scope = config.sortedRecords settings' store scope := by
  unfold sortedRecords
  refine Row.sortBy_congr (fun record key => ?_) _ _
  rw [Row.sortValue?_project, Row.sortValue?_project]

/-- **Display settings never move a row.**  Behind a report without grouping there is one list of
the records that its filters keep, and under any settings the rows are the projection of this list,
position by position, whatever its rules to sort by are.  A report with grouping is the same under
any two settings. -/
theorem rows_of_any_settings (config : Configuration) (store : σ) (scope : Scope) :
    (config.grouping = none → ∃ records : List Json,
      records.Perm (keepMatching config.filters
        (RecordStore.fetchAll store config.dataSources scope)) ∧
      ∀ settings : FormatSettings,
        config.rows settings store scope = projectAll settings config.fields records) ∧
    (config.grouping ≠ none → ∀ settings settings' : FormatSettings,
      config.rows settings store scope = config.rows settings' store scope) := by
  constructor
  · intro hgrouping
    refine ⟨config.sortedRecords .default store scope, Row.sortBy_perm _ _ _, fun settings => ?_⟩
    rw [rows_eq_map hgrouping, config.sortedRecords_settings settings .default]
    rfl
  · intro hgrouping settings settings'
    unfold rows rowsOf
    cases hsome : config.grouping with
    | none => exact absurd hsome hgrouping
    | some grouping => rfl

/-- The theorem at deals that are sorted by the id of an amount, by a path and by an unknown key,
with settings that no check lets pass, and at the same deals by stage. -/
theorem rows_of_any_settings_unchecked :
    let deal (name : String) (price : Nat) : Json :=
      .obj [("name", .str name), ("price", .ofNat price)]
    let store : MemoryStore :=
      MemoryStore.empty.extend (.builtIn .deals) [deal "a" 1000, deal "b" 9, deal "c" 9]
    let fields : List SelectedField :=
      [⟨"amount", .builtIn .deals, "price", "Price", .currency⟩,
        ⟨"title", .builtIn .deals, "name", "Name", .text⟩]
    let config := (((make [.builtIn .deals] fields).sort (.descending "amount")).sort
      (.ascending "nobody")).sort (.descending "name")
    let grouped := config.group ⟨["name"], [⟨"price", .sum, "total"⟩]⟩
    let settings : FormatSettings :=
      { FormatSettings.default with thousandsSeparator := "", decimalSeparator := "" }
    let scope : Scope := .admin "u"
    settings.fault? ≠ none ∧ config.grouping = none ∧ grouped.grouping ≠ none ∧
    (∃ records : List Json,
      records.Perm (keepMatching config.filters
        (RecordStore.fetchAll store config.dataSources scope)) ∧
      ∀ settings : FormatSettings,
        config.rows settings store scope = projectAll settings fields records) ∧
    grouped.rows settings store scope = grouped.rows .default store scope := by
  intro deal store fields config grouped settings scope
  have hnone : config.grouping = none := rfl
  have hsome : grouped.grouping ≠ none := Option.some_ne_none _
  refine ⟨by decide, hnone, hsome, ?_, ?_⟩
  · exact (rows_of_any_settings config store scope).1 hnone
  · exact (rows_of_any_settings grouped store scope).2 hsome settings .default

end Configuration

end Reporting
