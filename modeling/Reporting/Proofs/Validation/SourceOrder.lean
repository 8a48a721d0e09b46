import Mathlib.Data.List.Perm.Basic
import Reporting.Proofs.Catalog.Lookup
import Reporting.Validation

/-!
# The order of the sources

What a source allows is asked for wherever a configuration groups by a path or aggregates the values
at one, and the first source that offers the path gives the answer.  All else that validation asks
of the sources is whether some source offers a path, which does not depend on their order
(`Configuration.issues_withSources`).

So the order matters exactly where the sources that offer such a path give different answers
(`Configuration.validate_withSources_iff`).
-/

namespace Reporting

namespace Catalog

/-- What the field that is found with a path says about a permission. -/
def answer? (catalog : Catalog) (sources : List Source) (path : String)
    (permits : AvailableField → Bool) : Option Bool :=
  (catalog.findIn? sources path).map permits

/-- Whether all the fields that some sources list under a path say the same about a permission. -/
def Agree (catalog : Catalog) (sources : List Source) (path : String)
    (permits : AvailableField → Bool) : Prop :=
  ∀ first ∈ sources, ∀ second ∈ sources,
    ∀ a ∈ catalog.listFields first, ∀ b ∈ catalog.listFields second,
      a.path = path → b.path = path → permits a = permits b

instance (catalog : Catalog) (sources : List Source) (path : String)
    (permits : AvailableField → Bool) : Decidable (catalog.Agree sources path permits) :=
  inferInstanceAs (Decidable (∀ first ∈ sources, ∀ second ∈ sources,
    ∀ a ∈ catalog.listFields first, ∀ b ∈ catalog.listFields second,
      a.path = path → b.path = path → permits a = permits b))

section Order

variable {catalog : Catalog} {sources order : List Source} {path : String}
  {permits : AvailableField → Bool}

/-- Whether there is an answer at all does not depend on the order. -/
theorem isSome_findIn?_of_perm (catalog : Catalog) (path : String) (hperm : order.Perm sources) :
    (catalog.findIn? order path).isSome = (catalog.findIn? sources path).isSome := by
  rw [Bool.eq_iff_iff, isSome_findIn?_iff, isSome_findIn?_iff]
  exact exists_congr fun source => and_congr_left fun _ => hperm.mem_iff

theorem answer?_eq_none_of_perm (hperm : order.Perm sources) :
    catalog.answer? order path permits = none ↔ catalog.answer? sources path permits = none := by
  have hsome := isSome_findIn?_of_perm catalog path hperm
  unfold answer?
  rw [Option.map_eq_none_iff, Option.map_eq_none_iff, ← Option.isNone_iff_eq_none,
    ← Option.isNone_iff_eq_none, ← Option.not_isSome, ← Option.not_isSome, hsome]

/-- Sources that agree give the same answer in every order. -/
theorem Agree.answer?_of_perm (hagree : catalog.Agree sources path permits)
    (hperm : order.Perm sources) :
    catalog.answer? order path permits = catalog.answer? sources path permits := by
  cases hfound : catalog.findIn? sources path with
  | none =>
      have hnone : catalog.answer? sources path permits = none := by simp [answer?, hfound]
      rw [hnone]
      exact (answer?_eq_none_of_perm hperm).mpr hnone
  | some field =>
      have hsome : (catalog.findIn? order path).isSome := by
        rw [isSome_findIn?_of_perm catalog path hperm, hfound]
        rfl
      obtain ⟨other, hother⟩ := Option.isSome_iff_exists.mp hsome
      obtain ⟨second, hsecond, hfield, hpath⟩ := listed_of_findIn? hfound
      obtain ⟨first, hfirst, hlisted, hsame⟩ := listed_of_findIn? hother
      have hpermits : permits other = permits field :=
        hagree first (hperm.mem_iff.mp hfirst) second hsecond other hlisted field hfield hsame hpath
      simp [answer?, hfound, hother, hpermits]

/-- A source that is put in front answers for all the fields it lists. -/
theorem Built.answer?_cons (hcatalog : catalog.Built) {source : Source} {field : AvailableField}
    (hfield : field ∈ catalog.listFields source) (rest : List Source) :
    catalog.answer? (source :: rest) field.path permits = some (permits field) := by
  have hfound : catalog.field? source field.path = some field :=
    hcatalog.field?_eq_some_iff.mpr ⟨hfield, rfl⟩
  simp [answer?, findIn?, hfound]

/-- **Sources agree if their order does not matter**, since each of them can be put in front. -/
theorem Built.agree_iff (hcatalog : catalog.Built) :
    catalog.Agree sources path permits ↔ ∀ order, order.Perm sources →
      catalog.answer? order path permits = catalog.answer? sources path permits := by
  constructor
  · intro hagree order hperm
    exact hagree.answer?_of_perm hperm
  · rintro hsame first hfirst second hsecond a ha b hb rfl hpath
    have hfront := hsame _ (List.perm_cons_erase hfirst).symm
    have hback := hsame _ (List.perm_cons_erase hsecond).symm
    rw [hcatalog.answer?_cons ha] at hfront
    rw [← hpath, hcatalog.answer?_cons hb, hpath] at hback
    exact Option.some.inj (hfront.trans hback.symm)

end Order

end Catalog

/-- A use of a path that a source may or may not allow. -/
inductive PathUse where
  | groupBy (path : String)
  | aggregate (agg : Aggregation)

namespace PathUse

/-- The path that is used. -/
def path : PathUse → String
  | groupBy path => path
  | aggregate agg => agg.field

/-- Whether a field allows the use.  Every field can be counted. -/
def permits : PathUse → AvailableField → Bool
  | groupBy _, field => field.allowGrouping
  | aggregate agg, field => field.allowAggregation || agg.function == .count

/-- The issue of a path that no source offers. -/
def unknown : PathUse → Issue
  | groupBy path => .unknownGroupBy path
  | aggregate agg => .unknownAggregate agg.field

/-- The issue of a path that may not be used so. -/
def refused : PathUse → Issue
  | groupBy path => .notGroupable path
  | aggregate agg => .notAggregatable agg.field

/-- The issue of a use, by the answer of the sources. -/
def issues (use : PathUse) : Option Bool → List Issue
  | none => [use.unknown]
  | some true => []
  | some false => [use.refused]

end PathUse

namespace Configuration

/-- The configuration with other sources. -/
def withSources (config : Configuration) (sources : List Source) : Configuration :=
  { config with dataSources := sources }

/-- What a configuration uses paths for. -/
def pathUses (config : Configuration) : List PathUse :=
  config.groupPaths.map .groupBy ++ config.aggregations.map .aggregate

/-- Whether the sources agree on everything that the configuration uses a path for. -/
def SourcesAgree (catalog : Catalog) (config : Configuration) : Prop :=
  ∀ use ∈ config.pathUses, catalog.Agree config.dataSources use.path use.permits

instance (catalog : Catalog) (config : Configuration) : Decidable (config.SourcesAgree catalog) :=
  inferInstanceAs (Decidable (∀ use ∈ config.pathUses,
    catalog.Agree config.dataSources use.path use.permits))

theorem groupByIssues_eq (catalog : Catalog) (sources : List Source) (path : String) :
    groupByIssues catalog sources path
      = (PathUse.groupBy path).issues
          (catalog.answer? sources path (PathUse.groupBy path).permits) := by
  unfold groupByIssues Catalog.answer?
  cases catalog.findIn? sources path with
  | none => rfl
  | some field => cases h : field.allowGrouping <;> simp [PathUse.permits, PathUse.issues, h,
      PathUse.refused]

theorem aggregationIssues_eq (catalog : Catalog) (sources : List Source) (agg : Aggregation) :
    aggregationIssues catalog sources agg
      = (PathUse.aggregate agg).issues
          (catalog.answer? sources agg.field (PathUse.aggregate agg).permits) := by
  unfold aggregationIssues Catalog.answer?
  cases catalog.findIn? sources agg.field with
  | none => rfl
  | some field =>
      cases h : (field.allowAggregation || agg.function == .count) <;>
        simp [PathUse.permits, PathUse.issues, h, PathUse.refused]

/-- The issues of the uses of paths, if the sources stand in some order. -/
def useIssues (catalog : Catalog) (config : Configuration) (order : List Source) : List Issue :=
  config.pathUses.flatMap fun use => use.issues (catalog.answer? order use.path use.permits)

/-- The issues that do not depend on the order of the sources. -/
def steadyIssues (catalog : Catalog) (config : Configuration) : List Issue :=
  config.requiredIssues ++ config.structuralIssues
    ++ (config.fields.flatMap (fieldIssues catalog config.dataSources)
      ++ config.filters.flatMap (filterPathIssues catalog config.dataSources))

/-- In another order only the answers about the uses of paths can change. -/
theorem issues_withSources (catalog : Catalog) (config : Configuration) {order : List Source}
    (hperm : order.Perm config.dataSources) :
    (config.withSources order).issues (some catalog)
      = config.steadyIssues catalog ++ config.useIssues catalog order := by
  have hrequired : (config.withSources order).requiredIssues = config.requiredIssues := by
    have hempty : order.isEmpty = config.dataSources.isEmpty := by
      rw [Bool.eq_iff_iff, List.isEmpty_iff, List.isEmpty_iff]
      exact ⟨fun h => List.nil_perm.mp (h ▸ hperm), fun h => List.perm_nil.mp (h ▸ hperm)⟩
    unfold requiredIssues withSources
    rw [hempty]
  have hfields : fieldIssues catalog order = fieldIssues catalog config.dataSources := by
    funext field
    have hcontains : order.contains field.source = config.dataSources.contains field.source := by
      rw [Bool.eq_iff_iff, List.contains_iff_mem, List.contains_iff_mem]
      exact hperm.mem_iff
    unfold fieldIssues
    rw [hcontains]
  have hfilters : filterPathIssues catalog order = filterPathIssues catalog config.dataSources := by
    funext rule
    have hfound : (catalog.findIn? order rule.field).isNone
        = (catalog.findIn? config.dataSources rule.field).isNone := by
      rw [← Option.not_isSome, ← Option.not_isSome,
        Catalog.isSome_findIn?_of_perm catalog rule.field hperm]
    unfold filterPathIssues
    rw [hfound]
  have huses : config.groupPaths.flatMap (groupByIssues catalog order)
        ++ config.aggregations.flatMap (aggregationIssues catalog order)
      = config.useIssues catalog order := by
    unfold useIssues pathUses
    rw [List.flatMap_append, List.flatMap_map, List.flatMap_map]
    congr 2
    · funext path
      exact groupByIssues_eq catalog order path
    · funext agg
      exact aggregationIssues_eq catalog order agg
  calc (config.withSources order).issues (some catalog)
      = (config.withSources order).requiredIssues ++ config.structuralIssues
          ++ (config.fields.flatMap (fieldIssues catalog order)
            ++ config.filters.flatMap (filterPathIssues catalog order)
            ++ config.groupPaths.flatMap (groupByIssues catalog order)
            ++ config.aggregations.flatMap (aggregationIssues catalog order)) := rfl
    _ = config.steadyIssues catalog ++ config.useIssues catalog order := by
      rw [hrequired, hfields, hfilters, ← huses]
      simp [steadyIssues]

end Configuration

namespace PathUse

/-- The text around the path of a refused use. -/
theorem message_refused (use : PathUse) :
    use.refused.message = "Field '" ++ use.path ++
      match use with
      | groupBy _ => "' does not support grouping"
      | aggregate _ => "' does not support aggregation" := by
  cases use <;> rfl

/-- The text around an unknown path. -/
theorem message_unknown (use : PathUse) :
    use.unknown.message =
      (match use with
      | groupBy _ => "Cannot group by unknown field '"
      | aggregate _ => "Cannot aggregate unknown field '") ++ use.path ++ "'" := by
  cases use <;> rfl

/-- The message of an unknown path is not that of a refusal, since it starts differently. -/
theorem message_unknown_ne (use other : PathUse) :
    other.unknown.message ≠ use.refused.message := by
  intro h
  have hfirst := congrArg (fun message : String => message.toList.head?) h
  rw [message_unknown, message_refused] at hfirst
  cases other <;> simp at hfirst

/-- The message of a refusal tells what is refused: it has the path, and it ends differently for
the two kinds of uses. -/
theorem refused_eq_of_message {use other : PathUse}
    (h : other.refused.message = use.refused.message) : other.refused = use.refused := by
  have hlast := congrArg (fun message : String => message.toList.getLast?) h
  rw [message_refused, message_refused] at h hlast
  cases use with
  | groupBy path =>
      cases other with
      | groupBy same =>
          have hpath : (groupBy same).path = (groupBy path).path := by simpa using h
          exact congrArg Issue.notGroupable hpath
      | aggregate agg => simp [List.getLast?_cons, List.getLast?_append] at hlast
  | aggregate agg =>
      cases other with
      | groupBy path => simp [List.getLast?_cons, List.getLast?_append] at hlast
      | aggregate same =>
          have hpath : (aggregate same).path = (aggregate agg).path := by simpa using h
          exact congrArg Issue.notAggregatable hpath

/-- Only a refusal has the message of a refusal. -/
theorem refused_of_message {use other : PathUse} {answer : Option Bool} {issue : Issue}
    (hissue : issue ∈ other.issues answer) (h : issue.message = use.refused.message) :
    answer = some false ∧ other.refused = use.refused := by
  unfold issues at hissue
  split at hissue
  · rw [List.mem_singleton.mp hissue] at h
    exact absurd h (message_unknown_ne use other)
  · cases hissue
  · rw [List.mem_singleton.mp hissue] at h
    exact ⟨rfl, refused_eq_of_message h⟩

/-- What is refused to one of two uses with the same refusal is refused to the other, unless this
one is never refused. -/
theorem permits_of_refused_eq {use other : PathUse} (h : other.refused = use.refused)
    (hsome : ∃ field, use.permits field = false) {field : AvailableField}
    (hfield : other.permits field = false) : other.path = use.path ∧ use.permits field = false := by
  cases use with
  | groupBy path =>
      cases other with
      | groupBy same =>
          cases h
          exact ⟨rfl, hfield⟩
      | aggregate agg => cases h
  | aggregate agg =>
      cases other with
      | groupBy path => cases h
      | aggregate same =>
          obtain ⟨denied, hdenied⟩ := hsome
          have hsame : same.field = agg.field := Issue.notAggregatable.inj h
          have hallowed := (Bool.or_eq_false_iff.mp hfield).1
          have hcount := (Bool.or_eq_false_iff.mp hdenied).2
          exact ⟨hsame, Bool.or_eq_false_iff.mpr ⟨hallowed, hcount⟩⟩

end PathUse

namespace Configuration

/-- A refusal is told of exactly if the first source refuses. -/
theorem refused_mem_useIssues_iff (catalog : Catalog) (config : Configuration)
    (order : List Source) {use : PathUse} (huse : use ∈ config.pathUses)
    (hsome : ∃ field, use.permits field = false) :
    use.refused.message ∈ (config.useIssues catalog order).map Issue.message
      ↔ catalog.answer? order use.path use.permits = some false := by
  unfold useIssues
  constructor
  · intro hmem
    obtain ⟨issue, hissue, hmessage⟩ := List.mem_map.mp hmem
    obtain ⟨other, -, hother⟩ := List.mem_flatMap.mp hissue
    obtain ⟨hanswer, hrefused⟩ := PathUse.refused_of_message hother hmessage
    obtain ⟨field, hfound, hfield⟩ := Option.map_eq_some_iff.mp hanswer
    obtain ⟨hpath, hdenied⟩ := PathUse.permits_of_refused_eq hrefused hsome hfield
    rw [hpath] at hfound
    exact Option.map_eq_some_iff.mpr ⟨field, hfound, hdenied⟩
  · intro hanswer
    refine List.mem_map_of_mem (List.mem_flatMap.mpr ⟨use, huse, ?_⟩)
    rw [hanswer]
    exact List.mem_singleton_self _

end Configuration

end Reporting
