import Mathlib.Data.List.Basic
import Mathlib.Data.List.Forall2
import Reporting.Proofs.Filter.Matching
import Reporting.Proofs.Record.Path
import Reporting.Proofs.Store.Fetch
import Reporting.Report

/-!
# Where records come from

A fetched record says which source it comes from, whatever the stored record says about itself:
fetching overwrites the name of the source and passes over what cannot carry one
(`RecordStore.forall₂_tagged_fetch`).

So the source of a record may be asked of the record.  A filter on the name of a source chooses the
records that were fetched from it, and a report with such a filter is the report that reads from
this source only (`Configuration.rows_filter_sourceIs`).
-/

namespace Reporting

namespace Json

/-- Whether a value is an object. -/
def isObject (json : Json) : Bool :=
  json.members?.isSome

/-- A fetched record is an object with the name of its source, and apart from the name it has what
the stored record has. -/
structure Tagged (source : Source) (stored fetched : Json) : Prop where
  isObject : fetched.isObject
  source : fetched.get? sourceKey = some (.str source.name)
  others : ∀ key, key ≠ sourceKey → fetched.get? key = stored.get? key

/-- Tagging gives a record what a fetched record has. -/
theorem tagged_of_tag {source : Source} {stored fetched : Json}
    (h : stored.tag? source = some fetched) : stored.Tagged source fetched where
  isObject := by
    cases stored with
    | obj members =>
        obtain rfl := Option.some.inj h
        rfl
    | _ => cases h
  source := by rw [get?_of_tag h, if_pos rfl]
  others := fun key hkey => by rw [get?_of_tag h, if_neg hkey]

/-- The objects are what can be tagged. -/
theorem forall₂_tagged_filterMap (source : Source) (stored : List Json) :
    List.Forall₂ (Tagged source) (stored.filter isObject) (stored.filterMap (tag? source)) := by
  induction stored with
  | nil => exact .nil
  | cons record rest ih =>
      -- Tagging fails on what is no object and on nothing else.
      cases htag : record.tag? source with
      | some fetched =>
          have hobject : record.isObject = true := by
            cases record <;> first | rfl | cases htag
          rw [List.filter_cons_of_pos hobject, List.filterMap_cons, htag]
          exact .cons (tagged_of_tag htag) ih
      | none =>
          have hobject : ¬record.isObject = true := by
            cases record <;> first | (cases htag; done) | exact Bool.false_ne_true
          rw [List.filter_cons_of_neg hobject, List.filterMap_cons, htag]
          exact ih

end Json

namespace RecordStore

variable {σ : Type} [RecordStore σ] {store : σ} {source : Source} {scope : Scope}

/-- Fetching takes the objects among the stored records, in their order, each with the name of the
source. -/
theorem forall₂_tagged_fetch (store : σ) (b : BuiltIn) (scope : Scope) :
    List.Forall₂ (Json.Tagged (.builtIn b))
      ((load store (.builtIn b) scope).filter Json.isObject) (fetch store (.builtIn b) scope) :=
  Json.forall₂_tagged_filterMap _ _

/-- A fetched record is an object that names its source. -/
theorem tagged_of_mem_fetch {record : Json} (h : record ∈ fetch store source scope) :
    record.isObject ∧ record.get? sourceKey = some (.str source.name) := by
  cases source with
  | builtIn b =>
      obtain ⟨stored, _, htag⟩ := List.mem_filterMap.mp h
      have htagged := Json.tagged_of_tag htag
      exact ⟨htagged.isObject, htagged.source⟩
  | other name unknown => cases h

/-- The source that a fetched record names is the one it was fetched from. -/
theorem source?_of_mem_fetch {record : Json} (h : record ∈ fetch store source scope) :
    record.source? = some source := by
  unfold Json.source?
  rw [(tagged_of_mem_fetch h).2]
  exact congrArg some (Source.ofName_name source)

end RecordStore

/-- The rule that a record has to come from a source. -/
def FilterRule.sourceIs (id : String) (combination : LogicalOperator) (source : Source) :
    FilterRule :=
  .textIs id sourceKey combination source.name

/-- The rule accepts a fetched record if it was fetched from the source. -/
theorem FilterRule.accepts_sourceIs {σ : Type} [RecordStore σ] {store : σ} {scope : Scope}
    (id : String) (combination : LogicalOperator) {source origin : Source} {record : Json}
    (h : record ∈ RecordStore.fetch store origin scope) :
    (sourceIs id combination source).accepts record = decide (origin = source) := by
  have hname : record.resolve? sourceKey = some (.str origin.name) := by
    rw [Json.resolve?_eq_get? (by decide) (by decide)]
    exact (RecordStore.tagged_of_mem_fetch h).2
  have hsame : origin.name = source.name ↔ origin = source :=
    ⟨Source.name_injective, congrArg Source.name⟩
  rw [sourceIs, accepts_textIs, Json.resolvePresent?, hname, ← decide_eq_decide.mpr hsame]
  simp [Option.filter, Json.isNull, Json.textView]
  rfl

namespace RecordStore

variable {σ : Type} [RecordStore σ]

/-- Choosing the fetched records by their source is choosing the sources. -/
theorem fetchAll_filter_sourceIs (store : σ) (sources : List Source) (scope : Scope) (id : String)
    (combination : LogicalOperator) (source : Source) :
    (fetchAll store sources scope).filter (FilterRule.sourceIs id combination source).accepts
      = fetchAll store (sources.filter (· = source)) scope := by
  unfold fetchAll
  induction sources with
  | nil => rfl
  | cons origin rest ih =>
      rw [List.flatMap_cons, List.filter_append, ih]
      have hall : ∀ record ∈ fetch store origin scope,
          (FilterRule.sourceIs id combination source).accepts record = decide (origin = source) :=
        fun record hrecord => FilterRule.accepts_sourceIs id combination hrecord
      by_cases h : origin = source
      · rw [List.filter_cons_of_pos (by simpa using h), List.flatMap_cons,
          List.filter_eq_self.mpr fun record hrecord => by simp [hall record hrecord, h]]
      · rw [List.filter_cons_of_neg (by simpa using h),
          List.filter_eq_nil_iff.mpr fun record hrecord => by simp [hall record hrecord, h]]
        rfl

end RecordStore

namespace Configuration

/-- The configuration that reads from one of its sources only, as often as it did. -/
def readOnly (source : Source) (config : Configuration) : Configuration :=
  { config with dataSources := config.dataSources.filter (· = source) }

/-- **Filtering by the name of a source is reading from the source only**, grouped or not and
whatever the order of the rows, also if the configuration names a source more than once or names
sources without records. -/
theorem rows_filter_sourceIs {σ : Type} [RecordStore σ] (config : Configuration)
    (settings : FormatSettings) (store : σ) (scope : Scope) (id : String)
    (combination : LogicalOperator) (source : Source) :
    (config.filter (.sourceIs id combination source)).rows settings store scope
      = (config.readOnly source).rows settings store scope :=
  rows_filter_of_fetchAll
    (RecordStore.fetchAll_filter_sourceIs store config.dataSources scope id combination source)
    settings

end Configuration

end Reporting
