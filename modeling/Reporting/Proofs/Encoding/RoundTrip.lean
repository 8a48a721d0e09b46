import Reporting.Encoding.Configuration
import Reporting.Encoding.Settings
import Reporting.Proofs.Encoding.Shape

/-!
# Configurations and settings are read back

What is written for a configuration is read as this configuration, down to the kinds of its numbers
and to the difference between an order without rules and no order at all
(`Configuration.ofDocument?_json`).  The only thing that this asks for is that the targets of the
filters keep the members of their objects in order, as values do.  Whatever is read from a document
does so, and hence reading settles a configuration once and for all: defaults that were filled in,
names in capital letters, fields given as arrays and members that were passed over make no
difference when it is written and read again (`reads_back_what_is_written`).
-/

namespace Reporting

@[simp] theorem Document.string?_str (s : String) : string? (Json.str s).document = some s := rfl

@[simp] theorem Document.natural?_ofUInt64 (n : UInt64) :
    natural? (Json.ofUInt64 n).document = some n := by
  simp [Json.ofUInt64, Json.document, natural?]

/-! ## Names -/

@[simp] theorem FieldType.ofDocument?_json (type : FieldType) :
    ofDocument? type.json.document = some type := by
  cases type <;> rfl

@[simp] theorem FilterOperator.ofDocument?_json (operator : FilterOperator) :
    ofDocument? operator.json.document = some operator := by
  cases operator <;> rfl

@[simp] theorem LogicalOperator.ofDocument?_json (operator : LogicalOperator) :
    ofDocument? operator.json.document = some operator := by
  cases operator <;> rfl

@[simp] theorem AggregationFunction.ofDocument?_json (function : AggregationFunction) :
    ofDocument? function.json.document = some function := by
  cases function <;> rfl

@[simp] theorem SortDirection.ofDocument?_json (direction : SortDirection) :
    ofDocument? direction.json.document = some direction := by
  cases direction <;> rfl

@[simp] theorem Source.ofDocument?_json (source : Source) :
    ofDocument? source.json.document = some source :=
  congrArg some (ofName_name source)

/-! ## Parts of a configuration

Each part is read from the fields that show its members, field by field. -/

theorem SelectedField.ofDocument?_json (field : SelectedField) :
    ofDocument? field.json.document = some field := by
  apply Document.read_object
  · simp
  · intro fields hshows
    simp [Document.required?, hshows _, Keyed.find?]

theorem FilterRule.ofDocument?_json {rule : FilterRule} (h : rule.target.Ordered) :
    ofDocument? rule.json.document = some rule := by
  have htarget := Json.json?_document h
  apply Document.read_object
  · simp
  · intro fields hshows
    simp [Document.required?, Document.defaulted?, hshows _, Keyed.find?, htarget]

/-- The target of a rule that is read has the members of its objects in order. -/
theorem FilterRule.ordered_target_of_ofDocument? {document : Document} {rule : FilterRule}
    (h : ofDocument? document = some rule) : rule.target.Ordered := by
  simp only [ofDocument?, Option.bind_eq_bind, Option.bind_eq_some_iff] at h
  obtain ⟨fields, -, _, -, _, -, _, -, _, -, target, htarget, _, -, hrule⟩ := h
  obtain rfl := Option.some.inj hrule
  unfold Document.defaulted? at htarget
  split at htarget
  · exact Document.ordered_of_json? htarget
  · obtain rfl := Option.some.inj htarget
    trivial

theorem Aggregation.ofDocument?_json (agg : Aggregation) :
    ofDocument? agg.json.document = some agg := by
  apply Document.read_object
  · simp
  · intro fields hshows
    simp [Document.required?, hshows _, Keyed.find?]

theorem Grouping.ofDocument?_json (grouping : Grouping) :
    ofDocument? grouping.json.document = some grouping := by
  have hgroupBy := Document.array?_map fun path (_ : path ∈ grouping.groupBy) =>
    Document.string?_str path
  have haggregations := Document.array?_map fun agg (_ : agg ∈ grouping.aggregations) =>
    agg.ofDocument?_json
  apply Document.read_object
  · simp
  · intro fields hshows
    simp [Document.required?, Document.defaulted?, hshows _, Keyed.find?, hgroupBy, haggregations]

theorem SortRule.ofDocument?_json (rule : SortRule) :
    ofDocument? rule.json.document = some rule := by
  apply Document.read_object
  · simp
  · intro fields hshows
    simp [Document.required?, Document.defaulted?, hshows _, Keyed.find?]

/-! ## Whole configurations -/

namespace Configuration

/-- Every filter's target has the members of its objects in order. -/
def OrderedTargets (config : Configuration) : Prop :=
  ∀ rule ∈ config.filters, rule.target.Ordered

/-- **What is written for a configuration is read as this configuration.** -/
theorem ofDocument?_json {config : Configuration} (h : config.OrderedTargets) :
    ofDocument? config.json.document = some config := by
  have hsources := Document.array?_map fun source (_ : source ∈ config.dataSources) =>
    source.ofDocument?_json
  have hfields := Document.array?_map fun field (_ : field ∈ config.fields) =>
    field.ofDocument?_json
  have hfilters := Document.array?_map fun rule hrule => FilterRule.ofDocument?_json (h rule hrule)
  have hrules (rules : List SortRule) := Document.array?_map fun rule (_ : rule ∈ rules) =>
    rule.ofDocument?_json
  apply Document.read_object
  · cases config.grouping <;> cases config.sorting <;> simp [optionalMember]
  · intro fields hshows
    have hgrouping : Document.optional? fields "grouping" Grouping.ofDocument?
        = some config.grouping := by
      apply hshows.optional? (by simp) Grouping.json
      · cases config.grouping <;> cases config.sorting <;> rfl
      · intro grouping hnull
        cases hnull
      · intro grouping _
        exact grouping.ofDocument?_json
    have hsorting : Document.optional? fields "sorting"
        (Document.array? SortRule.ofDocument?) = some config.sorting := by
      apply hshows.optional? (by simp) fun rules => .arr (rules.map SortRule.json)
      · cases config.grouping <;> cases config.sorting <;> rfl
      · intro rules hnull
        cases hnull
      · intro rules _
        exact hrules rules
    simp [Document.required?, Document.defaulted?, hshows _, Keyed.find?, hsources, hfields,
      hfilters, hgrouping, hsorting]

/-- Whatever is read has its targets in order. -/
theorem orderedTargets_of_ofDocument? {document : Document} {config : Configuration}
    (h : ofDocument? document = some config) : config.OrderedTargets := by
  simp only [ofDocument?, Option.bind_eq_bind, Option.bind_eq_some_iff] at h
  obtain ⟨fields, -, _, -, _, -, filters, hfilters, _, -, _, -, hconfig⟩ := h
  obtain rfl := Option.some.inj hconfig
  intro rule hrule
  unfold Document.defaulted? at hfilters
  split at hfilters
  · obtain ⟨item, hitem⟩ := Document.exists_of_mem_array? hfilters hrule
    exact FilterRule.ordered_target_of_ofDocument? hitem
  · obtain rfl := Option.some.inj hfilters
    cases hrule

end Configuration

/-- What is written for settings is read as these settings. -/
theorem FormatSettings.ofDocument?_json (settings : FormatSettings) :
    ofDocument? settings.json.document = some settings := by
  apply Document.read_object
  · simp
  · intro fields hshows
    simp [Document.defaulted?, hshows _, Keyed.find?]

/-- **Writing and reading loses nothing.**  A configuration whose targets keep their members in
order is read back from what is written for it, and so are settings.  Reading a document, writing
what was read and reading that comes to the same as reading the document once, whatever form the
document has. -/
theorem reads_back_what_is_written :
    (∀ config : Configuration, config.OrderedTargets →
      Configuration.ofDocument? config.json.document = some config) ∧
    (∀ settings : FormatSettings,
      FormatSettings.ofDocument? settings.json.document = some settings) ∧
    ∀ document : Document,
      ((Configuration.ofDocument? document).bind fun config =>
        Configuration.ofDocument? config.json.document) = Configuration.ofDocument? document := by
  refine ⟨?_, FormatSettings.ofDocument?_json, ?_⟩
  · intro config hconfig
    exact Configuration.ofDocument?_json hconfig
  · intro document
    cases hread : Configuration.ofDocument? document with
    | none => rfl
    | some config =>
        have hconfig := Configuration.orderedTargets_of_ofDocument? hread
        exact Configuration.ofDocument?_json hconfig

/-- The theorem at a configuration whose target nests an object in an array, with a source that has
no table, a grouping and an order without rules. -/
theorem reads_back_what_is_written_empty_order :
    let rule : FilterRule :=
      ⟨"f1", "stage", .text, .oneOf,
        .arr [.str "won", .obj [("from", .null), ("to", .ofNat 3)]], .or⟩
    let config : Configuration :=
      ⟨[.builtIn .deals, .ofName "leads"],
        [⟨"deals.city", .builtIn .deals, "city", "City", .text⟩], [rule],
        some ⟨["city"], [⟨"price", .sum, "Total"⟩]⟩, some []⟩
    config.OrderedTargets ∧ Configuration.ofDocument? config.json.document = some config := by
  intro rule config
  have hmembers : Keyed.Ordered [("from", Json.null), ("to", Json.ofNat 3)] :=
    List.pairwise_pair.mpr rfl
  have hconfig : config.OrderedTargets := by
    intro other hother
    obtain rfl := List.mem_singleton.mp hother
    exact ⟨trivial, ⟨hmembers, trivial, trivial, trivial⟩, trivial⟩
  exact ⟨hconfig, reads_back_what_is_written.1 config hconfig⟩

/-- A configuration as an array of its fields, without its last one, and with a filter in the same
form. -/
example :
    let rule : Document :=
      .arr [.str "f1", .str "stage", .str "text", .str "equals", .str "won", .str "OR"]
    Configuration.ofDocument? (.arr [.arr [.str "deals"], .arr [], .arr [rule], .null])
      = some ⟨[.builtIn .deals], [], [⟨"f1", "stage", .text, .equals, .str "won", .or⟩], none,
          none⟩ :=
  rfl

end Reporting
