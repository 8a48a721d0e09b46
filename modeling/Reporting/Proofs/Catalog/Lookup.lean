import Mathlib.Data.List.Nodup
import Reporting.Catalog.Standard

/-!
# Looking fields up in a catalog

A catalog that comes from registering fields lists every path of a source once, since a field whose
path is listed takes the place of the old one (`paths_putField`, `Built.nodup_paths`).  So a path
leads to the field that is listed under it, wherever it stands in the list (`field?_eq_some_iff`).

Several sources are asked one after the other, and the first that offers the path answers
(`findIn?_eq_some_iff`).  Whether any of them offers it does not depend on their order.
-/

namespace Reporting.Catalog

/-- The catalogs that registering fields leads to. -/
inductive Built : Catalog → Prop where
  | empty : Built .empty
  | register {catalog : Catalog} (built : Built catalog) (fields : List AvailableField) :
      Built (catalog.register fields)

/-- The standard catalog is one of them. -/
theorem built_standard : Built .standard :=
  (((Built.empty.register dealFields).register propertyFields).register expenseFields).register
    commissionFields

/-- What registering one field keeps is kept by registering any number. -/
theorem register_induction {motive : Catalog → Prop}
    (registerOne : ∀ catalog field, motive catalog → motive (catalog.registerOne field))
    {catalog : Catalog} (h : motive catalog) (fields : List AvailableField) :
    motive (catalog.register fields) := by
  unfold register
  induction fields generalizing catalog with
  | nil => exact h
  | cons field rest ih => exact ih (registerOne catalog field h)

theorem listFields_registerOne (catalog : Catalog) (field : AvailableField) (source : Source) :
    (catalog.registerOne field).listFields source
      = if source = field.source then putField field (catalog.listFields source)
        else catalog.listFields source := by
  unfold registerOne listFields
  rw [Keyed.find?_insert]
  split
  · rename_i h
    rw [h]
    rfl
  · rfl

/-- A registered field keeps the place of its path, or takes a new one at the end. -/
theorem paths_putField (field : AvailableField) (fields : List AvailableField) :
    (putField field fields).map AvailableField.path
      = if field.path ∈ fields.map AvailableField.path then fields.map AvailableField.path
        else fields.map AvailableField.path ++ [field.path] := by
  induction fields with
  | nil => rfl
  | cons entry rest ih =>
      unfold putField
      by_cases h : entry.path = field.path
      · simp [h]
      · have hmem : field.path ∈ (entry :: rest).map AvailableField.path
            ↔ field.path ∈ rest.map AvailableField.path := by simp [Ne.symm h]
        rw [if_neg h, List.map_cons, ih]
        simp only [hmem]
        split <;> rfl

theorem nodup_paths_putField (field : AvailableField) {fields : List AvailableField}
    (h : (fields.map AvailableField.path).Nodup) :
    ((putField field fields).map AvailableField.path).Nodup := by
  rw [paths_putField]
  split
  · exact h
  · rename_i hnew
    refine h.append (List.nodup_singleton _) ?_
    simpa using hnew

/-- **No source lists two fields with the same path.** -/
theorem Built.nodup_paths {catalog : Catalog} (h : catalog.Built) (source : Source) :
    ((catalog.listFields source).map AvailableField.path).Nodup := by
  induction h with
  | empty => exact List.nodup_nil
  | register _ fields ih =>
      refine register_induction
        (motive := fun catalog => ((catalog.listFields source).map AvailableField.path).Nodup)
        (fun catalog field h => ?_) ih fields
      rw [listFields_registerOne]
      split
      · exact nodup_paths_putField field h
      · exact h

/-- Whether a source has a field with a path. -/
def Offers (catalog : Catalog) (source : Source) (path : String) : Prop :=
  ∃ field ∈ catalog.listFields source, field.path = path

theorem field?_eq_none_iff (catalog : Catalog) (source : Source) (path : String) :
    catalog.field? source path = none ↔ ¬ catalog.Offers source path := by
  unfold field? Offers
  rw [List.find?_eq_none]
  simp

theorem isSome_field?_iff (catalog : Catalog) (source : Source) (path : String) :
    (catalog.field? source path).isSome ↔ catalog.Offers source path := by
  rw [Option.isSome_iff_ne_none, ne_eq, field?_eq_none_iff, not_not]

/-- What is found is listed. -/
theorem listed_of_field? {catalog : Catalog} {source : Source} {path : String}
    {field : AvailableField} (h : catalog.field? source path = some field) :
    field ∈ catalog.listFields source ∧ field.path = path :=
  ⟨List.mem_of_find?_eq_some h, by simpa using List.find?_some h⟩

/-- **What is listed is found**, if every path is listed once. -/
theorem Built.field?_eq_some_iff {catalog : Catalog} (h : catalog.Built) {source : Source}
    {path : String} {field : AvailableField} :
    catalog.field? source path = some field
      ↔ field ∈ catalog.listFields source ∧ field.path = path := by
  refine ⟨listed_of_field?, fun ⟨hmem, hpath⟩ => ?_⟩
  cases hfind : catalog.field? source path with
  | none =>
      have hoffers : catalog.Offers source path := ⟨field, hmem, hpath⟩
      exact absurd hoffers ((field?_eq_none_iff _ _ _).mp hfind)
  | some found =>
      obtain ⟨hfound, hsame⟩ := listed_of_field? hfind
      have hpaths : found.path = field.path := hsame.trans hpath.symm
      rw [List.inj_on_of_nodup_map (h.nodup_paths source) hfound hmem hpaths]

/-- Whether a field answers for a path on some sources: it is listed under the path by a source,
and no source in front of this one offers the path. -/
def Answers (catalog : Catalog) (sources : List Source) (path : String)
    (field : AvailableField) : Prop :=
  ∃ before source after, sources = before ++ source :: after ∧
    (∀ earlier ∈ before, ¬ catalog.Offers earlier path) ∧
    field ∈ catalog.listFields source ∧ field.path = path

/-- The first source that offers a path answers for it. -/
theorem Built.findIn?_eq_some_iff {catalog : Catalog} (h : catalog.Built) {sources : List Source}
    {path : String} {field : AvailableField} :
    catalog.findIn? sources path = some field ↔ catalog.Answers sources path field := by
  unfold findIn? Answers
  rw [List.findSome?_eq_some_iff]
  simp only [h.field?_eq_some_iff, field?_eq_none_iff]
  refine exists_congr fun before => exists_congr fun source => exists_congr fun after => ?_
  exact and_congr_right fun _ => and_comm

theorem findIn?_eq_none_iff (catalog : Catalog) (sources : List Source) (path : String) :
    catalog.findIn? sources path = none ↔ ∀ source ∈ sources, ¬ catalog.Offers source path := by
  unfold findIn?
  rw [List.findSome?_eq_none_iff]
  simp only [field?_eq_none_iff]

/-- A path is found on some sources if one of them offers it. -/
theorem isSome_findIn?_iff (catalog : Catalog) (sources : List Source) (path : String) :
    (catalog.findIn? sources path).isSome ↔ ∃ source ∈ sources, catalog.Offers source path := by
  rw [Option.isSome_iff_ne_none, ne_eq, findIn?_eq_none_iff]
  simp only [not_forall, not_not, exists_prop]

/-- What is found on some sources is listed by one of them. -/
theorem listed_of_findIn? {catalog : Catalog} {sources : List Source} {path : String}
    {field : AvailableField} (h : catalog.findIn? sources path = some field) :
    ∃ source ∈ sources, field ∈ catalog.listFields source ∧ field.path = path := by
  obtain ⟨source, hsource, hfield⟩ := List.exists_of_findSome?_eq_some h
  exact ⟨source, hsource, listed_of_field? hfield⟩

end Reporting.Catalog
