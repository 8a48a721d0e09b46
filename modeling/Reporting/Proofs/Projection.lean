import Mathlib.Data.List.Forall2
import Reporting.Proofs.Row
import Reporting.Proofs.Sort
import Reporting.Proofs.Store.Origin
import Reporting.Store.Memory

/-!
# Values stay with their source

A projected row is filled field by field, so the last field with an id decides about the cell under
the id (`Row.get?_project`).  A field reads from the records of its own source and shows nothing of
the others; since every fetched record names the source it was fetched from, this holds whatever
the stored records say about themselves.

`Configuration.rows_showsFields` says so for a whole report without grouping: its rows are
those of fetched records, and each shows the fields of the record's source and no others.
-/

namespace Reporting

/-- The text that a field shows of a record from a source: the display text of the value at its path
if it is a field of the source, and otherwise the empty text. -/
def SelectedField.shownText (settings : FormatSettings) (source : Source) (record : Json)
    (field : SelectedField) : String :=
  if field.source = source then settings.format field.type (record.resolve? field.path) else ""

theorem SelectedField.format_valueIn? (settings : FormatSettings) {source : Source} {record : Json}
    (hsource : record.source? = some source) (field : SelectedField) :
    settings.format field.type (field.valueIn? record)
      = field.shownText settings source record := by
  unfold valueIn? shownText
  rw [hsource]
  by_cases h : field.source = source
  · simp [h]
  · simp [h, Ne.symm h, FormatSettings.format]

namespace Row

theorem values_addField (settings : FormatSettings) (record : Json) (row : Row)
    (field : SelectedField) :
    (addField settings record row field).values
      = Keyed.insert field.id (.str (settings.format field.type (field.valueIn? record)))
          row.values := by
  unfold addField
  cases field.valueIn? record <;> rfl

/-- Projecting a record sets the cells of the fields one after the other. -/
theorem values_foldl_addField (settings : FormatSettings) (record : Json)
    (fields : List SelectedField) (row : Row) :
    (fields.foldl (addField settings record) row).values
      = fields.foldl (fun done field => Keyed.insert field.id
          (.str (settings.format field.type (field.valueIn? record))) done) row.values := by
  induction fields generalizing row with
  | nil => rfl
  | cons field rest ih =>
      rw [List.foldl_cons, ih, values_addField, List.foldl_cons]

/-- **The last field with an id decides** about the cell under the id. -/
theorem get?_project (settings : FormatSettings) (fields : List SelectedField) (record : Json)
    (key : String) :
    (project settings fields record).get? key
      = (fields.findRev? fun field => field.id == key).map fun field =>
          .str (settings.format field.type (field.valueIn? record)) := by
  unfold project get?
  rw [values_foldl_addField, Keyed.find?_foldl_insert]
  exact Option.or_none

/-- A row shows some fields of a record from a source if under every key stands what the last field
with this id reads: the display text of the value at its path if it is a field of the source, and
otherwise the empty text. -/
def ShowsFields (settings : FormatSettings) (fields : List SelectedField) (source : Source)
    (record : Json) (row : Row) : Prop :=
  ∀ key, row.get? key = (fields.findRev? fun field => field.id == key).map fun field =>
    .str (if field.source = source then settings.format field.type (record.resolve? field.path)
      else "")

/-- The row of a record that names its source shows the fields of this source. -/
theorem showsFields_project (settings : FormatSettings) (fields : List SelectedField)
    {source : Source} {record : Json} (hsource : record.source? = some source) :
    (project settings fields record).ShowsFields settings fields source record := by
  intro key
  rw [get?_project]
  refine congrArg (Option.map · _) (funext fun field => ?_)
  rw [SelectedField.format_valueIn? settings hsource]
  rfl

end Row

namespace RecordStore

variable {σ : Type} [RecordStore σ]

/-- The fetched records of some sources, each with the source that it was fetched from. -/
def fetchAllFrom (store : σ) (sources : List Source) (scope : Scope) : List (Source × Json) :=
  sources.flatMap fun source => (fetch store source scope).map fun record => (source, record)

theorem map_snd_fetchAllFrom (store : σ) (sources : List Source) (scope : Scope) :
    (fetchAllFrom store sources scope).map Prod.snd = fetchAll store sources scope := by
  unfold fetchAllFrom fetchAll
  rw [List.map_flatMap]
  simp [Function.comp_def]

theorem mem_fetchAllFrom {store : σ} {sources : List Source} {scope : Scope} {source : Source}
    {record : Json} (h : (source, record) ∈ fetchAllFrom store sources scope) :
    record ∈ fetch store source scope := by
  obtain ⟨origin, _, hmem⟩ := List.mem_flatMap.mp h
  obtain ⟨found, hfound, hsame⟩ := List.mem_map.mp hmem
  obtain ⟨rfl, rfl⟩ := Prod.mk.inj hsame
  exact hfound

end RecordStore

namespace Configuration

variable {σ : Type} [RecordStore σ]

/-- **Values never cross sources.**  Whatever the store holds, every fetched record is an object
that names the source it was fetched from, and fetching passes over nothing but what is no object.
The rows of a report without grouping are, one for one and in some order, those of the fetched
records that match its filters, and every row shows the fields of its record's source. -/
theorem rows_showsFields {config : Configuration} (hgrouping : config.grouping = none)
    (settings : FormatSettings) (store : σ) (scope : Scope) :
    (∀ source, ∀ record ∈ RecordStore.fetch store source scope,
      record.isObject ∧ record.get? sourceKey = some (.str source.name)) ∧
    (∀ b, List.Forall₂ (Json.Tagged (.builtIn b))
      ((RecordStore.load store (.builtIn b) scope).filter Json.isObject)
      (RecordStore.fetch store (.builtIn b) scope)) ∧
    ∃ origins : List (Source × Json),
      origins.Perm ((RecordStore.fetchAllFrom store config.dataSources scope).filter fun origin =>
        config.filters.all fun rule => rule.accepts origin.2) ∧
      List.Forall₂ (fun origin row => row.ShowsFields settings config.fields origin.1 origin.2)
        origins (config.rows settings store scope) := by
  refine ⟨fun source record hrecord => RecordStore.tagged_of_mem_fetch hrecord,
    fun b => RecordStore.forall₂_tagged_fetch store b scope, ?_⟩
  -- A row does not keep its record's source, so the records are sorted with their sources first.
  let kept := (RecordStore.fetchAllFrom store config.dataSources scope).filter fun origin =>
    config.filters.all fun rule => rule.accepts origin.2
  let row : Source × Json → Row := fun origin => Row.project settings config.fields origin.2
  have hkept : keepMatching config.filters
      (RecordStore.fetchAll store config.dataSources scope) = kept.map Prod.snd := by
    rw [← RecordStore.map_snd_fetchAllFrom, keepMatching, List.filter_map]
    rfl
  have hrows : config.rows settings store scope
      = (Row.sortBy config.sortRules row kept).map row := by
    rw [← Row.sort_map]
    unfold rows rowsOf
    simp only [hgrouping, projectAll, hkept, List.map_map]
    rfl
  refine ⟨Row.sortBy config.sortRules row kept, Row.sortBy_perm _ _ _, ?_⟩
  rw [hrows, List.forall₂_map_right_iff, List.forall₂_same]
  intro origin horigin
  have hfetched : origin ∈ RecordStore.fetchAllFrom store config.dataSources scope :=
    (List.mem_filter.mp ((Row.sortBy_perm _ _ _).mem_iff.mp horigin)).1
  exact Row.showsFields_project settings config.fields
    (RecordStore.source?_of_mem_fetch (RecordStore.mem_fetchAllFrom hfetched))

/-- The theorem at a deal that claims to be an expense, with two fields under one id. -/
theorem rows_showsFields_claimed_source :
    let store : MemoryStore :=
      (MemoryStore.empty.extend (.builtIn .deals)
          [.obj [(sourceKey, .str "expenses"), ("price", .ofNat 5)], .str "no object"]).extend
        (.builtIn .expenses) [.obj [(sourceKey, .null), ("price", .ofNat 7)]]
    let fields : List SelectedField :=
      [⟨"price", .builtIn .deals, "price", "Price", .number⟩,
        ⟨"price", .builtIn .expenses, "price", "Price", .number⟩]
    let config := make [.builtIn .deals, .builtIn .expenses] fields
    let scope : Scope := .admin "u"
    config.grouping = none ∧
    (∀ source, ∀ record ∈ RecordStore.fetch store source scope,
      record.isObject ∧ record.get? sourceKey = some (.str source.name)) ∧
    (∀ b, List.Forall₂ (Json.Tagged (.builtIn b))
      ((RecordStore.load store (.builtIn b) scope).filter Json.isObject)
      (RecordStore.fetch store (.builtIn b) scope)) ∧
    ∃ origins : List (Source × Json),
      origins.Perm ((RecordStore.fetchAllFrom store config.dataSources scope).filter fun origin =>
        config.filters.all fun rule => rule.accepts origin.2) ∧
      List.Forall₂ (fun origin row => row.ShowsFields .default fields origin.1 origin.2)
        origins (config.rows .default store scope) := by
  intro store fields config scope
  exact ⟨rfl, rows_showsFields rfl .default store scope⟩

end Configuration

end Reporting
