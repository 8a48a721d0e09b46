import Reporting.Proofs.SortValue

/-!
# The order of the selected fields

Selecting the same fields in another order changes the order of the columns and nothing else, as
long as no two fields share an id (`Configuration.rows_reorderFields`).  A row keeps its cells, the
values behind them and the values at paths in the order of their keys, so it is enough to compare
what is found under each key (`Row.eq_of_find?`).  Under the id of a field only that field writes.
Under a path several fields may write, but in one record they all read the same value there.
-/

namespace Reporting

section Reordered

variable {α β : Type}

/-- The items of a list in another order, which is told by their old places. -/
def reordered (order : List Nat) (xs : List α) : List α :=
  order.filterMap fun place => xs[place]?

theorem reordered_range (xs : List α) : reordered (List.range xs.length) xs = xs := by
  induction xs with
  | nil => rfl
  | cons x rest ih =>
      unfold reordered at ih ⊢
      rw [List.length_cons, List.range_succ_eq_map, List.filterMap_cons, List.filterMap_map]
      simpa [Function.comp_def] using ih

/-- If every place is told once, the items are the same. -/
theorem reordered_perm {order : List Nat} {xs : List α}
    (h : order.Perm (List.range xs.length)) : (reordered order xs).Perm xs := by
  have hperm : (reordered order xs).Perm (reordered (List.range xs.length) xs) := h.filterMap _
  rw [reordered_range] at hperm
  exact hperm

theorem map_reordered (f : α → β) (order : List Nat) (xs : List α) :
    (reordered order xs).map f = reordered order (xs.map f) := by
  unfold reordered
  rw [List.map_filterMap]
  simp only [List.getElem?_map]

end Reordered

/-- The last item that passes a test is the same in every order, if one item at most passes it. -/
theorem findRev?_eq_of_perm {α : Type} {test : α → Bool} {xs ys : List α} (hperm : ys.Perm xs)
    (honly : ∀ x ∈ xs, ∀ y ∈ xs, test x = true → test y = true → x = y) :
    ys.findRev? test = xs.findRev? test := by
  cases hfind : xs.findRev? test with
  | none =>
      rw [List.findRev?_eq_find?_reverse, List.find?_eq_none] at hfind ⊢
      intro y hy
      have hmem : y ∈ xs := hperm.mem_iff.mp (List.mem_reverse.mp hy)
      exact hfind y (List.mem_reverse.mpr hmem)
  | some x =>
      rw [List.findRev?_eq_find?_reverse] at hfind
      have hx : x ∈ xs := List.mem_reverse.mp (List.mem_of_find?_eq_some hfind)
      have htest : test x = true := List.find?_some hfind
      refine findRev?_eq_some_of_unique (hperm.mem_iff.mpr hx) htest fun y hy hother => ?_
      exact honly y (hperm.mem_iff.mp hy) x hx hother htest

namespace Row

/-- Everything that a row remembers stands in the order of its keys. -/
structure Ordered (row : Row) : Prop where
  values : Keyed.Ordered row.values
  raw : Keyed.Ordered row.raw
  byPath : Keyed.Ordered row.byPath

theorem ordered_addField (settings : FormatSettings) (record : Json) {row : Row}
    (h : row.Ordered) (field : SelectedField) : (addField settings record row field).Ordered where
  values := by
    rw [values_addField]
    exact Keyed.ordered_insert _ _ h.values
  raw := by
    rw [raw_addField]
    exact Keyed.ordered_insert _ _ h.raw
  byPath := by
    rw [byPath_addField]
    cases field.valueIn? record with
    | none => exact h.byPath
    | some value => exact Keyed.ordered_insertNew _ _ h.byPath

theorem ordered_foldl_addField (settings : FormatSettings) (record : Json)
    (fields : List SelectedField) {row : Row} (h : row.Ordered) :
    (fields.foldl (addField settings record) row).Ordered := by
  induction fields generalizing row with
  | nil => exact h
  | cons field rest ih => exact ih (ordered_addField settings record h field)

theorem ordered_project (settings : FormatSettings) (fields : List SelectedField)
    (record : Json) : (project settings fields record).Ordered := by
  have hempty : empty.Ordered := ⟨Keyed.ordered_nil, Keyed.ordered_nil, Keyed.ordered_nil⟩
  exact ordered_foldl_addField settings record fields hempty

/-- Ordered rows in which the same is found under every key are the same row. -/
theorem eq_of_find? {row other : Row} (h : row.Ordered) (hother : other.Ordered)
    (hvalues : ∀ key, Keyed.find? key row.values = Keyed.find? key other.values)
    (hraw : ∀ key, Keyed.find? key row.raw = Keyed.find? key other.raw)
    (hbyPath : ∀ path, Keyed.find? path row.byPath = Keyed.find? path other.byPath) :
    row = other := by
  cases row
  cases other
  obtain rfl := Keyed.ext h.values hother.values hvalues
  obtain rfl := Keyed.ext h.raw hother.raw hraw
  obtain rfl := Keyed.ext h.byPath hother.byPath hbyPath
  rfl

/-- **A record makes the same row** whatever the order of the fields is, if their ids differ. -/
theorem project_eq_of_perm (settings : FormatSettings) {fields fields' : List SelectedField}
    (hperm : fields'.Perm fields) (hids : (fields.map SelectedField.id).Nodup) (record : Json) :
    project settings fields' record = project settings fields record := by
  have hlast : ∀ key, (fields'.findRev? fun field => field.id == key)
      = fields.findRev? fun field => field.id == key := by
    intro key
    refine findRev?_eq_of_perm hperm fun x hx y hy hxkey hykey => ?_
    have hsame : x.id = y.id := (eq_of_beq hxkey).trans (eq_of_beq hykey).symm
    exact List.inj_on_of_nodup_map hids hx hy hsame
  have hreads : ∀ path, readsAt fields' record path = readsAt fields record path :=
    fun path => hperm.any_eq
  refine eq_of_find? (ordered_project _ _ _) (ordered_project _ _ _) ?_ ?_ ?_
  · intro key
    have hcell := get?_project settings fields' record key
    rw [hlast key, ← get?_project settings fields record key] at hcell
    exact hcell
  · intro key
    rw [find?_raw_project, find?_raw_project, hlast key]
  · intro path
    rw [find?_byPath_project, find?_byPath_project, hreads path]

end Row

namespace Configuration

/-- The configuration with its fields in another order. -/
def reorderFields (order : List Nat) (config : Configuration) : Configuration :=
  { config with fields := reordered order config.fields }

/-- **Reordering the selected fields only reorders the columns.**  If their ids differ from one
another, then in every order of the fields the rows are the same, grouped or not and however they
are sorted, and the columns are the old ones in this order. -/
theorem rows_reorderFields {σ : Type} [RecordStore σ] {config : Configuration}
    (hids : (config.fields.map SelectedField.id).Nodup) {order : List Nat}
    (horder : order.Perm (List.range config.fields.length)) (settings : FormatSettings)
    (store : σ) (scope : Scope) :
    (config.reorderFields order).rows settings store scope = config.rows settings store scope ∧
      Column.ofFields (config.reorderFields order).fields
        = reordered order (Column.ofFields config.fields) := by
  have hperm : (reordered order config.fields).Perm config.fields := reordered_perm horder
  have hproject : projectAll settings (reordered order config.fields)
      = projectAll settings config.fields := by
    funext records
    exact List.map_congr_left fun record _ => Row.project_eq_of_perm settings hperm hids record
  refine ⟨?_, map_reordered Column.ofField order config.fields⟩
  unfold rows rowsOf reorderFields
  rw [hproject]
  rfl

/-- The theorem at three fields of two sources, of which two share a path and one has that path for
its id, in a report that is sorted by this key. -/
theorem rows_reorderFields_shared_path :
    let store : MemoryStore :=
      (MemoryStore.empty.extend (.builtIn .deals) [.obj [("name", .str "b"), ("price", .ofNat 5)]]
        ).extend (.builtIn .expenses) [.obj [("price", .ofNat 7)]]
    let fields : List SelectedField :=
      [⟨"dealPrice", .builtIn .deals, "price", "Price", .currency⟩,
        ⟨"expensePrice", .builtIn .expenses, "price", "Price", .number⟩,
        ⟨"price", .builtIn .deals, "name", "Name", .text⟩]
    let config := (make [.builtIn .deals, .builtIn .expenses] fields).sort (.descending "price")
    let order := [2, 0, 1]
    let scope : Scope := .admin "u"
    (config.fields.map SelectedField.id).Nodup ∧
    order.Perm (List.range config.fields.length) ∧
    (config.reorderFields order).rows .default store scope = config.rows .default store scope ∧
    Column.ofFields (config.reorderFields order).fields
      = reordered order (Column.ofFields config.fields) := by
  intro store fields config order scope
  have hids : (config.fields.map SelectedField.id).Nodup := by decide
  have horder : order.Perm (List.range config.fields.length) := by decide
  exact ⟨hids, horder, rows_reorderFields hids horder .default store scope⟩

end Configuration

end Reporting
