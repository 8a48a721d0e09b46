import Mathlib.Data.List.Forall2
import Reporting.Proofs.Catalog.Lookup
import Reporting.Proofs.Engine.Generate
import Reporting.Proofs.Filter.Fault

/-!
# What validation asks for

Validation asks a number of things of a configuration, some of them of each filter, field, path and
aggregation.  Here they are listed one by one (`Configuration.requirements`), and each is said in
terms of what the configuration names and what the catalog lists (`Requirement.Met`).

Nothing else is asked, nothing is asked twice, and no requirement hides another one: the issues are
found requirement by requirement, none for one that is met and exactly one for one that is not
(`Requirement.judged_found`).  `Engine.generate_rejects_unmet` carries this to the answer of an
engine, which depends on the catalog and the configuration alone where the configuration is
rejected.
-/

namespace Reporting

/-- Something that is asked of a configuration. -/
inductive Requirement where
  | sources
  | fields
  | groupBy
  | filter (rule : FilterRule)
  | label (agg : Aggregation)
  | sortFields
  | field (selected : SelectedField)
  | filterPath (rule : FilterRule)
  | groupPath (path : String)
  | aggregatePath (agg : Aggregation)

/-- All that is asked of a configuration, in the order in which it is looked at.  A filter and an
aggregation are looked at twice, first by themselves and later for their paths; the rules to sort by
are looked at together. -/
def Configuration.requirements (config : Configuration) : List Requirement :=
  [.sources, .fields] ++ (if config.grouping.isSome then [.groupBy] else [])
    ++ (config.filters.map .filter ++ config.aggregations.map .label ++ [.sortFields])
    ++ (config.fields.map .field ++ config.filters.map .filterPath
      ++ config.groupPaths.map .groupPath ++ config.aggregations.map .aggregatePath)

namespace Requirement

/-- When a requirement is met. -/
def Met (catalog : Catalog) (config : Configuration) : Requirement → Prop
  | sources => config.dataSources ≠ []
  | fields => config.fields ≠ []
  | groupBy => config.groupPaths ≠ []
  | filter rule => rule.Usable
  | label agg => Text.isBlankText agg.label = false
  | sortFields => ∀ rule ∈ config.sortRules, Text.isBlankText rule.field = false
  | field selected =>
    selected.source ∈ config.dataSources ∧ catalog.Offers selected.source selected.path
  | filterPath rule =>
    rule.field = sourceKey ∨ ∃ source ∈ config.dataSources, catalog.Offers source rule.field
  | groupPath path =>
    ∃ field, catalog.Answers config.dataSources path field ∧ field.allowGrouping = true
  | aggregatePath agg =>
    ∃ field, catalog.Answers config.dataSources agg.field field ∧
      (field.allowAggregation = true ∨ agg.function = .count)

/-- The issues that tell of a requirement. -/
inductive Tells (catalog : Catalog) (config : Configuration) : Requirement → Issue → Prop
  | sources : Tells catalog config .sources .noSource
  | fields : Tells catalog config .fields .noField
  | groupBy : Tells catalog config .groupBy .noGroupBy
  | filter {rule : FilterRule} {fault : FilterFault} (faulty : rule.fault? = some fault) :
      Tells catalog config (.filter rule) (.filter rule.id fault)
  | label (agg : Aggregation) : Tells catalog config (.label agg) (.noLabel agg.function agg.field)
  | sortFields : Tells catalog config .sortFields .blankSortField
  | foreignField {selected : SelectedField} (foreign : selected.source ∉ config.dataSources) :
      Tells catalog config (.field selected) (.foreignField selected.id selected.source)
  | unknownField {selected : SelectedField} (own : selected.source ∈ config.dataSources)
      (unknown : ¬ catalog.Offers selected.source selected.path) :
      Tells catalog config (.field selected) (.unknownField selected.path selected.source)
  | filterPath (rule : FilterRule) :
      Tells catalog config (.filterPath rule) (.unknownFilterField rule.id rule.field)
  | unknownGroupBy {path : String}
      (unknown : ∀ source ∈ config.dataSources, ¬ catalog.Offers source path) :
      Tells catalog config (.groupPath path) (.unknownGroupBy path)
  | notGroupable {path : String} {field : AvailableField}
      (known : catalog.Answers config.dataSources path field) :
      Tells catalog config (.groupPath path) (.notGroupable path)
  | unknownAggregate {agg : Aggregation}
      (unknown : ∀ source ∈ config.dataSources, ¬ catalog.Offers source agg.field) :
      Tells catalog config (.aggregatePath agg) (.unknownAggregate agg.field)
  | notAggregatable {agg : Aggregation} {field : AvailableField}
      (known : catalog.Answers config.dataSources agg.field field) :
      Tells catalog config (.aggregatePath agg) (.notAggregatable agg.field)

/-- How a requirement is judged: without an issue if it is met, and with one that tells of it if it
is not. -/
inductive Judged (catalog : Catalog) (config : Configuration) (requirement : Requirement) :
    List Issue → Prop
  | met (met : requirement.Met catalog config) : Judged catalog config requirement []
  | unmet {issue : Issue} (unmet : ¬ requirement.Met catalog config)
      (tells : requirement.Tells catalog config issue) : Judged catalog config requirement [issue]

/-- The issues that are found where a requirement is looked at. -/
def found (catalog : Catalog) (config : Configuration) : Requirement → List Issue
  | sources => if config.dataSources.isEmpty then [.noSource] else []
  | fields => if config.fields.isEmpty then [.noField] else []
  | groupBy => if config.groupPaths.isEmpty then [.noGroupBy] else []
  | filter rule => Configuration.filterIssues rule
  | label agg => Configuration.labelIssues agg
  | sortFields =>
    if config.sortRules.any fun rule => Text.isBlankText rule.field then [.blankSortField] else []
  | field selected => Configuration.fieldIssues catalog config.dataSources selected
  | filterPath rule => Configuration.filterPathIssues catalog config.dataSources rule
  | groupPath path => Configuration.groupByIssues catalog config.dataSources path
  | aggregatePath agg => Configuration.aggregationIssues catalog config.dataSources agg

/-- Where one condition decides, it decides between no issue and one. -/
theorem judged_ite {catalog : Catalog} {config : Configuration} {requirement : Requirement}
    {unmet : Prop} [Decidable unmet] {issue : Issue}
    (hmet : requirement.Met catalog config ↔ ¬ unmet)
    (htells : unmet → requirement.Tells catalog config issue) :
    requirement.Judged catalog config (if unmet then [issue] else []) := by
  by_cases h : unmet
  · rw [if_pos h]
    exact .unmet (fun hm => hmet.mp hm h) (htells h)
  · rw [if_neg h]
    exact .met (hmet.mpr h)

/-- The same for a condition under which there is no issue. -/
theorem judged_unless {catalog : Catalog} {config : Configuration} {requirement : Requirement}
    {met : Prop} [Decidable met] {issue : Issue}
    (hmet : requirement.Met catalog config ↔ met)
    (htells : ¬ met → requirement.Tells catalog config issue) :
    requirement.Judged catalog config (if met then [] else [issue]) := by
  rw [← ite_not]
  exact judged_ite (hmet.trans not_not.symm) htells

section Judging

variable {catalog : Catalog} (config : Configuration)

theorem judged_filter (rule : FilterRule) :
    (filter rule).Judged catalog config (Configuration.filterIssues rule) := by
  unfold Configuration.filterIssues
  cases hfault : rule.fault? with
  | none => exact .met (rule.fault?_eq_none_iff.mp hfault)
  | some fault =>
      refine .unmet (fun hmet => ?_) (.filter hfault)
      have hnone : rule.fault? = none := rule.fault?_eq_none_iff.mpr hmet
      rw [hfault] at hnone
      cases hnone

/-- A field is looked up only if its source is selected. -/
theorem judged_field (selected : SelectedField) :
    (field selected).Judged catalog config
      (Configuration.fieldIssues catalog config.dataSources selected) := by
  unfold Configuration.fieldIssues
  by_cases hsource : selected.source ∈ config.dataSources
  · rw [if_neg (by simpa using hsource)]
    refine judged_ite ?_ fun hunknown => .unknownField hsource ?_
    · simp [Met, hsource, ← Catalog.isSome_field?_iff, Option.isSome_iff_ne_none]
    · exact (Catalog.field?_eq_none_iff _ _ _).mp (by simpa using hunknown)
  · rw [if_pos (by simpa using hsource)]
    exact .unmet (fun hmet => hsource hmet.1) (.foreignField hsource)

theorem judged_filterPath (rule : FilterRule) :
    (filterPath rule).Judged catalog config
      (Configuration.filterPathIssues catalog config.dataSources rule) := by
  unfold Configuration.filterPathIssues
  refine judged_ite ?_ fun _ => .filterPath rule
  rw [not_and_or, not_not, Option.isNone_iff_eq_none, ← ne_eq, ← Option.isSome_iff_ne_none,
    Catalog.isSome_findIn?_iff]
  rfl

/-- The first source that knows a path answers for it, also about what it may be used for. -/
theorem exists_answers_iff (hcatalog : catalog.Built) {path : String} {known : AvailableField}
    (hfind : catalog.findIn? config.dataSources path = some known)
    (permitted : AvailableField → Prop) :
    (∃ field, catalog.Answers config.dataSources path field ∧ permitted field)
      ↔ permitted known := by
  constructor
  · rintro ⟨field, hanswers, hpermitted⟩
    rw [← hcatalog.findIn?_eq_some_iff, hfind] at hanswers
    cases hanswers
    exact hpermitted
  · intro hpermitted
    exact ⟨known, hcatalog.findIn?_eq_some_iff.mp hfind, hpermitted⟩

/-- Where no source knows a path, nothing answers for it. -/
theorem not_exists_answers (hcatalog : catalog.Built) {path : String}
    (hfind : catalog.findIn? config.dataSources path = none)
    (permitted : AvailableField → Prop) :
    ¬ ∃ field, catalog.Answers config.dataSources path field ∧ permitted field := by
  rintro ⟨field, hanswers, -⟩
  rw [← hcatalog.findIn?_eq_some_iff, hfind] at hanswers
  cases hanswers

theorem judged_groupPath (hcatalog : catalog.Built) (path : String) :
    (groupPath path).Judged catalog config
      (Configuration.groupByIssues catalog config.dataSources path) := by
  unfold Configuration.groupByIssues
  cases hfind : catalog.findIn? config.dataSources path with
  | none =>
      exact .unmet (not_exists_answers config hcatalog hfind _)
        (.unknownGroupBy ((Catalog.findIn?_eq_none_iff _ _ _).mp hfind))
  | some known =>
      exact judged_unless (exists_answers_iff config hcatalog hfind _)
        fun _ => .notGroupable (hcatalog.findIn?_eq_some_iff.mp hfind)

theorem judged_aggregatePath (hcatalog : catalog.Built) (agg : Aggregation) :
    (aggregatePath agg).Judged catalog config
      (Configuration.aggregationIssues catalog config.dataSources agg) := by
  unfold Configuration.aggregationIssues
  cases hfind : catalog.findIn? config.dataSources agg.field with
  | none =>
      exact .unmet (not_exists_answers config hcatalog hfind _)
        (.unknownAggregate ((Catalog.findIn?_eq_none_iff _ _ _).mp hfind))
  | some known =>
      have hpermitted : (aggregatePath agg).Met catalog config
          ↔ known.allowAggregation = true ∨ agg.function = .count :=
        exists_answers_iff config hcatalog hfind _
      refine judged_unless ?_ fun _ => .notAggregatable (hcatalog.findIn?_eq_some_iff.mp hfind)
      rw [hpermitted, Bool.or_eq_true, beq_iff_eq]

/-- **Every requirement is judged by itself.** -/
theorem judged_found (hcatalog : catalog.Built) (requirement : Requirement) :
    requirement.Judged catalog config (requirement.found catalog config) := by
  cases requirement with
  | sources => exact judged_ite (by simp [Met]) fun _ => .sources
  | fields => exact judged_ite (by simp [Met]) fun _ => .fields
  | groupBy => exact judged_ite (by simp [Met]) fun _ => .groupBy
  | filter rule => exact judged_filter config rule
  | label agg => exact judged_ite (by simp [Met]) fun _ => .label agg
  | sortFields => exact judged_ite (by simp [Met]) fun _ => .sortFields
  | field selected => exact judged_field config selected
  | filterPath rule => exact judged_filterPath config rule
  | groupPath path => exact judged_groupPath config hcatalog path
  | aggregatePath agg => exact judged_aggregatePath config hcatalog agg

end Judging

end Requirement

namespace Configuration

/-- **The issues are those of the requirements**, one requirement after the other. -/
theorem issues_eq_flatMap (catalog : Catalog) (config : Configuration) :
    config.issues (some catalog)
      = config.requirements.flatMap (Requirement.found catalog config) := by
  have hrequired : config.requiredIssues
      = ([.sources, .fields] ++ if config.grouping.isSome then [.groupBy] else [] :
          List Requirement).flatMap (Requirement.found catalog config) := by
    unfold requiredIssues
    cases hgrouping : config.grouping <;>
      simp [Requirement.found, groupPaths, hgrouping]
  have hstructural : config.structuralIssues
      = (config.filters.map .filter ++ config.aggregations.map .label ++ [.sortFields] :
          List Requirement).flatMap (Requirement.found catalog config) := by
    unfold structuralIssues
    simp [List.flatMap_map, Requirement.found]
  have hcatalog : catalogIssues catalog config
      = (config.fields.map .field ++ config.filters.map .filterPath
          ++ config.groupPaths.map .groupPath ++ config.aggregations.map .aggregatePath :
          List Requirement).flatMap (Requirement.found catalog config) := by
    unfold catalogIssues
    simp [List.flatMap_map, Requirement.found]
  calc config.issues (some catalog)
      = config.requiredIssues ++ config.structuralIssues ++ catalogIssues catalog config := rfl
    _ = config.requirements.flatMap (Requirement.found catalog config) := by
      rw [hrequired, hstructural, hcatalog, ← List.flatMap_append, ← List.flatMap_append]
      rfl

/-- A configuration has no issue if it meets all requirements. -/
theorem issues_eq_nil_iff {catalog : Catalog} (hcatalog : catalog.Built)
    (config : Configuration) :
    config.issues (some catalog) = [] ↔
      ∀ requirement ∈ config.requirements, requirement.Met catalog config := by
  rw [issues_eq_flatMap, List.flatMap_eq_nil_iff]
  refine forall₂_congr fun requirement _ => ?_
  have hjudged := Requirement.judged_found config hcatalog requirement
  cases h : requirement.found catalog config with
  | nil =>
      rw [h] at hjudged
      cases hjudged with
      | met met => exact iff_of_true rfl met
  | cons issue rest =>
      rw [h] at hjudged
      cases hjudged with
      | unmet unmet _ => exact iff_of_false (List.cons_ne_nil _ _) unmet

end Configuration

namespace Engine

/-- **Exactly the invalid configurations are rejected, without a look at the data.**  Take a catalog
that was built by registering fields, and a configuration.  There is one list of judgements, no
issue for each requirement that is met and one issue for each that is not, such that every engine
with this catalog, whatever it holds and whoever asks, rejects the configuration exactly if some
requirement is unmet, and then with the messages of these issues; no request for a report fails in
any other way. -/
theorem generate_rejects_unmet {catalog : Catalog} (hcatalog : catalog.Built)
    (config : Configuration) :
    ∃ judgements : List (List Issue),
      List.Forall₂ (Requirement.Judged catalog config) config.requirements judgements ∧
      ∀ engine : Engine, engine.catalog = catalog → ∀ scope stamp,
        ((∃ messages, engine.generate config scope stamp
            = .error (.configurationInvalid messages)) ↔
          ∃ requirement ∈ config.requirements, ¬ requirement.Met catalog config) ∧
        ∀ reason, engine.generate config scope stamp = .error reason →
          reason = .configurationInvalid (judgements.flatten.map Issue.message) := by
  refine ⟨config.requirements.map (Requirement.found catalog config), ?_, ?_⟩
  · rw [List.forall₂_map_right_iff, List.forall₂_same]
    exact fun requirement _ => Requirement.judged_found config hcatalog requirement
  rintro engine rfl scope stamp
  have hissues := config.issues_eq_flatMap engine.catalog
  have hnone := config.issues_eq_nil_iff hcatalog
  rw [generate_eq, List.flatMap_def.symm, ← hissues]
  by_cases h : config.issues (some engine.catalog) = []
  · rw [if_pos h, generateUnchecked_eq_ok _ _ _ _ (Configuration.requiredIssues_eq_nil h)]
    refine ⟨iff_of_false (fun ⟨_, hfails⟩ => by cases hfails) ?_, fun _ hfails => by cases hfails⟩
    simpa using hnone.mp h
  · rw [if_neg h]
    refine ⟨iff_of_true ⟨_, rfl⟩ ?_, fun _ hfails => by cases hfails; rfl⟩
    simpa using mt hnone.mpr h

/-- The theorem where expenses hide the groupable cities of deals, and a filter, an aggregation and
the order each go wrong twice. -/
theorem generate_rejects_unmet_hidden_city :
    let city (source : Source) : AvailableField := .make source "city" "City" .text
    let catalog : Catalog :=
      (Catalog.empty.register [(city (.builtIn .deals)).groupable]).register
        [city (.builtIn .expenses)]
    let config : Configuration :=
      { dataSources := [.builtIn .expenses, .builtIn .deals]
        fields := []
        filters := [⟨"f1", "region", .number, .contains, .str "a", .and⟩]
        grouping := some ⟨["city"], [⟨"city", .sum, " "⟩, ⟨"city", .count, "n"⟩]⟩
        sorting := some [.ascending "", .descending " "] }
    catalog.Built ∧ (∃ requirement ∈ config.requirements, ¬ requirement.Met catalog config) ∧
    ∀ engine : Engine, engine.catalog = catalog → ∀ scope stamp,
      engine.generate config scope stamp = .error (.configurationInvalid
        ["At least one field must be selected",
          "Filter 'f1': operator 'contains' is not valid for number field 'region'",
          "Aggregation sum of 'city' needs a label",
          "Sort rules must name a field",
          "Filter 'f1' uses unknown field 'region'",
          "Field 'city' does not support grouping",
          "Field 'city' does not support aggregation"]) := by
  intro city catalog config
  have hcatalog : catalog.Built := (Catalog.Built.empty.register _).register _
  obtain ⟨judgements, -, hrejects⟩ := generate_rejects_unmet hcatalog config
  -- One engine shows the messages, and the others have the same.
  let engine : Engine := ⟨.memory, .empty, catalog, .default⟩
  have hone := hrejects engine rfl (.admin "kim") ⟨⟨0, 0⟩, .ofNat 0⟩
  have hmessages := hone.2 _ rfl
  have hunmet := hone.1.mp ⟨_, rfl⟩
  refine ⟨hcatalog, hunmet, fun other hother scope stamp => ?_⟩
  have hall := hrejects other hother scope stamp
  obtain ⟨messages, hmessages'⟩ := hall.1.mpr hunmet
  rw [hmessages', hall.2 _ hmessages', ← hmessages]
  rfl

end Engine

end Reporting
