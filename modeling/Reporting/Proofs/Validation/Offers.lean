import Reporting.Proofs.Catalog.Registry
import Reporting.Proofs.Validation.Requirements

/-!
# What a catalog offers is accepted

A catalog offers what may be asked about a source: the fields that it lists, paths to group by, and
paths to aggregate.  `Configuration.MadeOfOffers` says that a configuration reads one source and
asks for nothing else.

The offers are chosen from the entries of the catalog by what they allow, but validation looks up
the path of each offer again.  It comes upon the same entry, since a catalog that was built by
registering fields lists a path once and every field under its own source.  So every requirement of
such a configuration is met (`Configuration.MadeOfOffers.met`), and a report is made of it.
-/

namespace Reporting

namespace Catalog

/-- A catalog that was built is a registry of some fields. -/
theorem Built.exists_registers {catalog : Catalog} (h : catalog.Built) :
    ∃ registered, catalog.Registers registered := by
  have hfields : ∃ fields, catalog = Catalog.empty.register fields := by
    induction h with
    | empty => exact ⟨[], rfl⟩
    | register _ fields ih =>
        obtain ⟨earlier, rfl⟩ := ih
        refine ⟨earlier ++ fields, ?_⟩
        unfold Catalog.register
        rw [List.foldl_append]
  obtain ⟨fields, rfl⟩ := hfields
  exact ⟨fields, registers_register fields⟩

/-- Of one source alone every listed field answers for its path. -/
theorem answers_singleton {catalog : Catalog} {source : Source} {field : AvailableField}
    (h : field ∈ catalog.listFields source) : catalog.Answers [source] field.path field :=
  ⟨[], source, [], rfl, List.forall_mem_nil _, h, rfl⟩

end Catalog

/-- Whether a grouping uses only what a catalog offers for a source: paths of groupable fields, and
paths of aggregatable fields or, for counts, of any field, all of them under labels. -/
structure Grouping.MadeOfOffers (catalog : Catalog) (source : Source) (grouping : Grouping) :
    Prop where
  nonempty : grouping.groupBy ≠ []
  groupable : ∀ path ∈ grouping.groupBy,
    path ∈ (catalog.groupableFields source).map AvailableField.path
  labelled : ∀ agg ∈ grouping.aggregations, Text.isBlankText agg.label = false
  aggregatable : ∀ agg ∈ grouping.aggregations,
    agg.field ∈ (catalog.aggregatableFields source).map AvailableField.path ∨
      (agg.function = .count ∧ agg.field ∈ (catalog.listFields source).map AvailableField.path)

/-- Whether a configuration is about one source and uses only what a catalog offers for it.  Filters
have to pass their own check and may also ask for the source of a record; the order may name any
cell. -/
structure Configuration.MadeOfOffers (catalog : Catalog) (source : Source)
    (config : Configuration) : Prop where
  sources : config.dataSources = [source]
  fields : ∃ chosen, chosen ≠ [] ∧ chosen ⊆ catalog.listFields source ∧
    config.fields = chosen.map AvailableField.select
  checked : ∀ rule ∈ config.filters, rule.fault? = none
  filtered : ∀ rule ∈ config.filters, rule.field = sourceKey ∨
    rule.field ∈ (catalog.listFields source).map AvailableField.path
  grouped : ∀ grouping, config.grouping = some grouping → grouping.MadeOfOffers catalog source
  sorted : ∀ rule ∈ config.sortRules, Text.isBlankText rule.field = false

namespace Configuration

/-- Aggregations are those of the grouping. -/
theorem exists_of_mem_aggregations {config : Configuration} {agg : Aggregation}
    (h : agg ∈ config.aggregations) :
    ∃ grouping, config.grouping = some grouping ∧ agg ∈ grouping.aggregations := by
  unfold aggregations at h
  cases hgrouping : config.grouping with
  | none => simp [hgrouping] at h
  | some grouping => exact ⟨grouping, rfl, by simpa [hgrouping] using h⟩

/-- Paths to group by are those of the grouping. -/
theorem exists_of_mem_groupPaths {config : Configuration} {path : String}
    (h : path ∈ config.groupPaths) :
    ∃ grouping, config.grouping = some grouping ∧ path ∈ grouping.groupBy := by
  unfold groupPaths at h
  cases hgrouping : config.grouping with
  | none => simp [hgrouping] at h
  | some grouping => exact ⟨grouping, rfl, by simpa [hgrouping] using h⟩

namespace MadeOfOffers

variable {catalog : Catalog} {source : Source} {config : Configuration}

/-- The fields of such a configuration are those of the source. -/
theorem field_met (hcatalog : catalog.Built) (h : config.MadeOfOffers catalog source)
    {selected : SelectedField} (hselected : selected ∈ config.fields) :
    (Requirement.field selected).Met catalog config := by
  obtain ⟨chosen, -, hlisted, hfields⟩ := h.fields
  rw [hfields] at hselected
  obtain ⟨field, hfield, rfl⟩ := List.mem_map.mp hselected
  obtain ⟨registered, hregisters⟩ := hcatalog.exists_registers
  have hown : field.source = source := hregisters.own source field (hlisted hfield)
  show field.source ∈ config.dataSources ∧ catalog.Offers field.source field.path
  rw [hown, h.sources]
  exact ⟨List.mem_singleton_self source, field, hlisted hfield, rfl⟩

/-- The paths of its filters are known. -/
theorem filterPath_met (h : config.MadeOfOffers catalog source) {rule : FilterRule}
    (hrule : rule ∈ config.filters) : (Requirement.filterPath rule).Met catalog config := by
  rcases h.filtered rule hrule with hsource | hlisted
  · exact Or.inl hsource
  · obtain ⟨field, hfield, hpath⟩ := List.mem_map.mp hlisted
    refine Or.inr ⟨source, ?_, field, hfield, hpath⟩
    rw [h.sources]
    exact List.mem_singleton_self source

/-- A listed field answers for its path. -/
theorem exists_answers (h : config.MadeOfOffers catalog source) {path : String}
    {fields : List AvailableField} (hlisted : fields ⊆ catalog.listFields source)
    (hpath : path ∈ fields.map AvailableField.path) :
    ∃ field ∈ fields, catalog.Answers config.dataSources path field := by
  obtain ⟨field, hfield, rfl⟩ := List.mem_map.mp hpath
  refine ⟨field, hfield, ?_⟩
  rw [h.sources]
  exact Catalog.answers_singleton (hlisted hfield)

/-- The paths that it groups by allow grouping. -/
theorem groupPath_met (h : config.MadeOfOffers catalog source) {grouping : Grouping}
    (hgrouping : grouping.MadeOfOffers catalog source) {path : String}
    (hpath : path ∈ grouping.groupBy) : (Requirement.groupPath path).Met catalog config := by
  obtain ⟨field, hfield, hanswers⟩ :=
    h.exists_answers (List.filter_subset_self _) (hgrouping.groupable path hpath)
  exact ⟨field, hanswers, (List.mem_filter.mp hfield).2⟩

/-- The paths that it aggregates allow their aggregation. -/
theorem aggregatePath_met (h : config.MadeOfOffers catalog source) {grouping : Grouping}
    (hgrouping : grouping.MadeOfOffers catalog source) {agg : Aggregation}
    (hagg : agg ∈ grouping.aggregations) : (Requirement.aggregatePath agg).Met catalog config := by
  rcases hgrouping.aggregatable agg hagg with hallowed | ⟨hcount, hlisted⟩
  · obtain ⟨field, hfield, hanswers⟩ := h.exists_answers (List.filter_subset_self _) hallowed
    exact ⟨field, hanswers, Or.inl (List.mem_filter.mp hfield).2⟩
  · obtain ⟨field, -, hanswers⟩ := h.exists_answers (List.Subset.refl _) hlisted
    exact ⟨field, hanswers, Or.inr hcount⟩

/-- **Every requirement is met.** -/
theorem met (hcatalog : catalog.Built) (h : config.MadeOfOffers catalog source)
    {requirement : Requirement} (hrequirement : requirement ∈ config.requirements) :
    requirement.Met catalog config := by
  cases requirement with
  | sources =>
      show config.dataSources ≠ []
      rw [h.sources]
      exact List.cons_ne_nil _ _
  | fields =>
      obtain ⟨chosen, hnonempty, -, hfields⟩ := h.fields
      show config.fields ≠ []
      rw [hfields]
      exact mt List.map_eq_nil_iff.mp hnonempty
  | groupBy =>
      have hsome : config.grouping.isSome = true := by simpa [requirements] using hrequirement
      obtain ⟨grouping, hgrouping⟩ := Option.isSome_iff_exists.mp hsome
      show config.groupPaths ≠ []
      unfold groupPaths
      rw [hgrouping]
      exact (h.grouped grouping hgrouping).nonempty
  | filter rule =>
      have hrule : rule ∈ config.filters := by simpa [requirements] using hrequirement
      exact rule.fault?_eq_none_iff.mp (h.checked rule hrule)
  | label agg =>
      have hagg : agg ∈ config.aggregations := by simpa [requirements] using hrequirement
      obtain ⟨grouping, hgrouping, hmem⟩ := exists_of_mem_aggregations hagg
      exact (h.grouped grouping hgrouping).labelled agg hmem
  | sortFields => exact h.sorted
  | field selected =>
      have hselected : selected ∈ config.fields := by simpa [requirements] using hrequirement
      exact h.field_met hcatalog hselected
  | filterPath rule =>
      have hrule : rule ∈ config.filters := by simpa [requirements] using hrequirement
      exact h.filterPath_met hrule
  | groupPath path =>
      have hpath : path ∈ config.groupPaths := by simpa [requirements] using hrequirement
      obtain ⟨grouping, hgrouping, hmem⟩ := exists_of_mem_groupPaths hpath
      exact h.groupPath_met (h.grouped grouping hgrouping) hmem
  | aggregatePath agg =>
      have hagg : agg ∈ config.aggregations := by simpa [requirements] using hrequirement
      obtain ⟨grouping, hgrouping, hmem⟩ := exists_of_mem_aggregations hagg
      exact h.aggregatePath_met (h.grouped grouping hgrouping) hmem

end MadeOfOffers

/-- **What a catalog offers is accepted.**  Take a catalog that was built by registering fields, and
a configuration that is about one source and uses only what the catalog offers for it.  Validation
finds no error in it, and every engine with this catalog makes a report of it, whatever it holds and
whoever asks. -/
theorem accepted_of_madeOfOffers {catalog : Catalog} (hcatalog : catalog.Built) {source : Source}
    {config : Configuration} (h : config.MadeOfOffers catalog source) :
    config.validate (some catalog) = ⟨true, []⟩ ∧
      ∀ engine : Engine, engine.catalog = catalog → ∀ scope stamp,
        ∃ report, engine.generate config scope stamp = .ok report := by
  have hissues : config.issues (some catalog) = [] :=
    (config.issues_eq_nil_iff hcatalog).mpr fun _ hrequirement => h.met hcatalog hrequirement
  constructor
  · rw [validate, hissues]
    rfl
  · rintro engine rfl scope stamp
    rw [Engine.generate_eq, if_pos hissues,
      Engine.generateUnchecked_eq_ok _ _ _ _ (requiredIssues_eq_nil hissues)]
    exact ⟨_, rfl⟩

/-- Offers of a catalog in which a later field has made the cities groupable: a sum, a count of a
path that only may be listed, and a filter on the source. -/
theorem accepted_of_madeOfOffers_city_made_groupable :
    let deals : Source := .builtIn .deals
    let city : AvailableField := .make deals "city" "City" .text
    let price : AvailableField := (AvailableField.make deals "price" "Price" .currency).aggregatable
    let title : AvailableField := .make deals "title" "Deal" .text
    let catalog : Catalog := (Catalog.empty.register [city, price, title]).register [city.groupable]
    let config : Configuration :=
      { dataSources := [deals]
        fields := [city.groupable.select, price.select, city.groupable.select]
        filters := [⟨"f1", sourceKey, .text, .equals, .str "deals", .and⟩,
          ⟨"f2", "price", .currency, .greaterThan, .ofInt 5, .and⟩]
        grouping := some ⟨["city"], [⟨"price", .sum, "Total"⟩, ⟨"title", .count, "Deals"⟩]⟩
        sorting := some [.descending "Total", .ascending "anything"] }
    catalog.Built ∧ config.MadeOfOffers catalog deals ∧
      config.validate (some catalog) = ⟨true, []⟩ ∧
      ∀ engine : Engine, engine.catalog = catalog → ∀ scope stamp,
        ∃ report, engine.generate config scope stamp = .ok report := by
  intro deals city price title catalog config
  have hcatalog : catalog.Built := (Catalog.Built.empty.register _).register _
  have hgrouped : Grouping.MadeOfOffers catalog deals
      ⟨["city"], [⟨"price", .sum, "Total"⟩, ⟨"title", .count, "Deals"⟩]⟩ :=
    ⟨by decide, by decide, by decide, by decide⟩
  have hoffers : config.MadeOfOffers catalog deals :=
    { sources := rfl
      fields := ⟨[city.groupable, price, city.groupable], by decide, by decide, rfl⟩
      checked := by decide
      filtered := by decide
      grouped := fun _ hgrouping => Option.some.inj hgrouping ▸ hgrouped
      sorted := by decide }
  exact ⟨hcatalog, hoffers, accepted_of_madeOfOffers hcatalog hoffers⟩

end Configuration

end Reporting
