import Reporting.Proofs.Catalog.Lookup
import Reporting.Proofs.Distinct
import Reporting.Proofs.Keyed

/-!
# What a catalog says about the fields that were registered

A catalog is a registry with a key for each field, its source and its path.  Whatever calls have
led to it, what it says is told by the list of the fields in the order in which they were
registered: the field of a source with a path is the last one registered under both
(`find?_path_listed`), and the fields of a source stand in the order in which their paths were first
registered, because a later field takes the place of the earlier one (`map_path_listed`).  The
sources are those of the fields, in the order of sources, which is an order by keys
(`Source.compare_eq_compareLex`).  `Registers` puts this together, and `registers_calls` says that it
holds after any calls, from the empty catalog and from the standard one.
-/

namespace Reporting

namespace Source

/-- The place of a source: built-in sources in their order, and all others behind them. -/
def place : Source → Nat
  | builtIn b => b.index
  | other _ _ => 4

/-- **Sources are ordered by keys**: by place, and then by name. -/
theorem compare_eq_compareLex :
    Source.compare = compareLex (compareOn place) (compareOn name) := by
  funext a b
  cases a with
  | builtIn a =>
      cases b with
      | builtIn b => cases a <;> cases b <;> rfl
      | other => cases a <;> rfl
  | other =>
      cases b with
      | builtIn b => cases b <;> rfl
      | other => rfl

/-- The order of sources is total and transitive. -/
instance : Std.TransOrd Source := by
  show Std.TransCmp Source.compare
  rw [compare_eq_compareLex]
  infer_instance

/-- Only equal sources are equal in their order. -/
instance : Std.LawfulEqOrd Source where
  eq_of_compare := by
    intro a b h
    replace h : Source.compare a b = .eq := h
    rw [compare_eq_compareLex, compareLex_eq_eq] at h
    exact name_injective (Std.LawfulEqOrd.eq_of_compare h.2)

end Source

namespace Catalog

/-- The list of a source after some of its fields have been registered in turn. -/
def listed (fields : List AvailableField) : List AvailableField :=
  fields.foldl (fun done field => putField field done) []

theorem listed_concat (fields : List AvailableField) (field : AvailableField) :
    listed (fields ++ [field]) = putField field (listed fields) := by
  simp [listed]

/-- Fields stand in the order in which their paths were first registered. -/
theorem map_path_listed (fields : List AvailableField) :
    (listed fields).map AvailableField.path = (fields.map AvailableField.path).eraseDups := by
  induction fields using List.reverseRecOn with
  | nil => rfl
  | append_singleton fields field ih =>
      rw [listed_concat, paths_putField, ih, List.map_append, List.map_singleton,
        Distinct.eraseDups_concat]
      simp only [List.mem_eraseDups]

/-- Under the path of a field that is put into a list this field is found, under other paths what
was found before. -/
theorem find?_path_putField (field : AvailableField) (fields : List AvailableField)
    (path : String) :
    (putField field fields).find? (fun entry => entry.path = path)
      = if field.path = path then some field else fields.find? fun entry => entry.path = path := by
  induction fields with
  | nil => by_cases hpath : field.path = path <;> simp [putField, hpath]
  | cons entry rest ih =>
      unfold putField
      by_cases hentry : entry.path = field.path
      · rw [if_pos hentry]
        by_cases hpath : field.path = path <;> simp [hentry, hpath]
      · rw [if_neg hentry, List.find?_cons, ih, List.find?_cons]
        by_cases hpath : field.path = path
        · have hother : entry.path ≠ path := fun h => hentry (h.trans hpath.symm)
          simp [hpath, hother]
        · simp [hpath]

/-- Under a path stands the last field that was registered with it. -/
theorem find?_path_listed (fields : List AvailableField) (path : String) :
    (listed fields).find? (fun entry => entry.path = path)
      = fields.findRev? fun entry => entry.path = path := by
  induction fields using List.reverseRecOn with
  | nil => rfl
  | append_singleton fields field ih =>
      rw [listed_concat, find?_path_putField, ih, List.findRev?_eq_find?_reverse,
        List.findRev?_eq_find?_reverse, List.reverse_append, List.reverse_singleton,
        List.singleton_append, List.find?_cons]
      by_cases hpath : field.path = path <;> simp [hpath]

theorem mem_putField {field other : AvailableField} {fields : List AvailableField}
    (h : other ∈ putField field fields) : other = field ∨ other ∈ fields := by
  induction fields with
  | nil => exact Or.inl (List.mem_singleton.mp h)
  | cons entry rest ih =>
      unfold putField at h
      split at h
      · rcases List.mem_cons.mp h with rfl | hrest
        · exact Or.inl rfl
        · exact Or.inr (List.mem_cons_of_mem _ hrest)
      · rcases List.mem_cons.mp h with rfl | hrest
        · exact Or.inr List.mem_cons_self
        · rcases ih hrest with hnew | hold
          · exact Or.inl hnew
          · exact Or.inr (List.mem_cons_of_mem _ hold)

/-- Only registered fields are listed. -/
theorem mem_of_mem_listed {field : AvailableField} {fields : List AvailableField}
    (h : field ∈ listed fields) : field ∈ fields := by
  induction fields using List.reverseRecOn with
  | nil => cases h
  | append_singleton fields last ih =>
      rw [listed_concat] at h
      rcases mem_putField h with rfl | hold
      · exact List.mem_append_right _ List.mem_cons_self
      · exact List.mem_append_left _ (ih hold)

theorem register_concat (catalog : Catalog) (fields : List AvailableField)
    (field : AvailableField) :
    catalog.register (fields ++ [field]) = (catalog.register fields).registerOne field := by
  simp [register]

/-- A source lists the fields that were registered under it. -/
theorem listFields_register (fields : List AvailableField) (source : Source) :
    (empty.register fields).listFields source
      = listed (fields.filter fun field => field.source = source) := by
  induction fields using List.reverseRecOn with
  | nil => rfl
  | append_singleton fields field ih =>
      rw [register_concat, listFields_registerOne, ih, List.filter_append]
      by_cases hsource : source = field.source
      · simp [hsource, listed_concat]
      · simp [hsource, Ne.symm hsource]

theorem mem_sources_register (fields : List AvailableField) (source : Source) :
    source ∈ (empty.register fields).sources ↔ ∃ field ∈ fields, field.source = source := by
  induction fields using List.reverseRecOn with
  | nil => simp [register, empty, sources]
  | append_singleton fields field ih =>
      have hinsert : source ∈ ((empty.register fields).registerOne field).sources
          ↔ source = field.source ∨ source ∈ (empty.register fields).sources :=
        Keyed.mem_map_fst_insert
      rw [register_concat, hinsert, ih]
      constructor
      · rintro (rfl | ⟨other, hother, rfl⟩)
        · exact ⟨field, by simp, rfl⟩
        · exact ⟨other, List.mem_append_left _ hother, rfl⟩
      · rintro ⟨other, hother, rfl⟩
        rcases List.mem_append.mp hother with hold | hnew
        · exact Or.inr ⟨other, hold, rfl⟩
        · rw [List.mem_singleton.mp hnew]
          exact Or.inl rfl

/-- The sources stand in their order. -/
theorem pairwise_sources_register (fields : List AvailableField) :
    (empty.register fields).sources.Pairwise fun a b => compare a b = .lt := by
  have hordered : Keyed.Ordered (empty.register fields).entries := by
    refine register_induction (motive := fun catalog => Keyed.Ordered catalog.entries)
      (fun catalog field h => ?_) Keyed.ordered_nil fields
    exact Keyed.ordered_insert _ _ h
  exact List.pairwise_map.mpr hordered

/-- What a catalog says that some fields were registered in, one after the other. -/
structure Registers (catalog : Catalog) (registered : List AvailableField) : Prop where
  /-- No source lists two fields with the same path. -/
  nodup : ∀ source, ((catalog.listFields source).map AvailableField.path).Nodup
  /-- Every field is listed under its own source. -/
  own : ∀ source, ∀ field ∈ catalog.listFields source, field.source = source
  /-- Under a source and a path stands the last field that was registered with both. -/
  last : ∀ source path, catalog.field? source path
    = registered.findRev? fun field => field.source = source ∧ field.path = path
  /-- The paths of a source stand in the order in which they were first registered. -/
  first : ∀ source, (catalog.listFields source).map AvailableField.path
    = ((registered.filter fun field => field.source = source).map
        AvailableField.path).eraseDups
  /-- The sources are those of the registered fields. -/
  mem_sources : ∀ source, source ∈ catalog.sources ↔ ∃ field ∈ registered, field.source = source
  /-- Each source is there once, the built-in ones first and the others by name. -/
  ordered : catalog.sources.Pairwise fun a b => compare a b = .lt

theorem registers_register (fields : List AvailableField) :
    (empty.register fields).Registers fields := by
  have hfirst : ∀ source, ((empty.register fields).listFields source).map AvailableField.path
      = ((fields.filter fun field => field.source = source).map
          AvailableField.path).eraseDups := by
    intro source
    rw [listFields_register, map_path_listed]
  refine ⟨?nodup, ?own, ?last, hfirst, mem_sources_register fields,
    pairwise_sources_register fields⟩
  case nodup => exact (Built.empty.register fields).nodup_paths
  case own =>
    intro source field hfield
    rw [listFields_register] at hfield
    exact of_decide_eq_true (List.mem_filter.mp (mem_of_mem_listed hfield)).2
  case last =>
    intro source path
    unfold field?
    rw [listFields_register, find?_path_listed, List.findRev?_eq_find?_reverse,
      List.findRev?_eq_find?_reverse, ← List.filter_reverse, List.find?_filter]
    simp only [Bool.decide_and, Bool.decide_eq_true]

/-- Registering in several calls is registering everything in one. -/
theorem foldl_register (catalog : Catalog) (calls : List (List AvailableField)) :
    calls.foldl register catalog = catalog.register calls.flatten := by
  induction calls generalizing catalog with
  | nil => rfl
  | cons fields rest ih =>
      rw [List.foldl_cons, ih, List.flatten_cons]
      unfold register
      rw [List.foldl_append]

/-- The fields of the standard catalog. -/
def standardFields : List AvailableField :=
  dealFields ++ propertyFields ++ expenseFields ++ commissionFields

/-- **A catalog is a registry of the fields that were registered in it**, in whatever calls, from the
empty catalog or from the standard one. -/
theorem registers_calls (calls : List (List AvailableField)) :
    (calls.foldl register empty).Registers calls.flatten ∧
      (calls.foldl register standard).Registers (standardFields ++ calls.flatten) := by
  have hstandard : standard = empty.register standardFields := by
    unfold standard standardFields register
    rw [List.foldl_append, List.foldl_append, List.foldl_append]
  constructor
  · rw [foldl_register]
    exact registers_register calls.flatten
  · have hcalls : calls.foldl register standard
        = empty.register (standardFields ++ calls.flatten) := by
      rw [foldl_register, hstandard]
      unfold register
      rw [List.foldl_append]
    rw [hcalls]
    exact registers_register (standardFields ++ calls.flatten)

end Catalog

end Reporting
