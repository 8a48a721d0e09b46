import Reporting.Row

/-!
# The cells of a row

A row is filled cell by cell, and under a key that is filled more than once the last value stays
(`Keyed.find?_foldl_insert`).  So a cell of a row of plain values is told by the last of the cells
that it was filled with (`Row.get?_foldl_insert`), and by any of them if they agree
(`Row.get?_foldl_insert_of_unique`).  Among listed items the last one is told by its place
(`LastAt`).
-/

namespace Reporting

/-- The last member that passes a test is one that is alone in passing it. -/
theorem findRev?_eq_some_of_unique {α : Type} {test : α → Bool} {xs : List α} {x : α}
    (hmem : x ∈ xs) (htest : test x = true) (honly : ∀ y ∈ xs, test y = true → y = x) :
    xs.findRev? test = some x := by
  rw [List.findRev?_eq_find?_reverse]
  cases hfind : xs.reverse.find? test with
  | none => exact absurd htest (List.find?_eq_none.mp hfind x (List.mem_reverse.mpr hmem))
  | some y =>
      have hy : y ∈ xs := List.mem_reverse.mp (List.mem_of_find?_eq_some hfind)
      rw [honly y hy (List.find?_some hfind)]

/-- Whether the item at a place of a list is the last one with its key. -/
def LastAt {ι κ : Type} (key : ι → κ) (items : List ι) (place : Nat) (item : ι) : Prop :=
  items[place]? = some item ∧ ∀ later ∈ items.drop (place + 1), key later ≠ key item

/-- If some item has a key, one of the items is the last one with it. -/
theorem exists_lastAt {ι κ : Type} {key : ι → κ} {items : List ι} {k : κ}
    (h : ∃ item ∈ items, key item = k) :
    ∃ place item, LastAt key items place item ∧ key item = k := by
  induction items with
  | nil =>
      obtain ⟨item, hmem, _⟩ := h
      cases hmem
  | cons first rest ih =>
      by_cases hrest : ∃ item ∈ rest, key item = k
      · obtain ⟨place, item, hlast, hkey⟩ := ih hrest
        exact ⟨place + 1, item, hlast, hkey⟩
      · obtain ⟨item, hmem, hkey⟩ := h
        have hfirst : item = first := by
          rcases List.mem_cons.mp hmem with hsame | hlater
          · exact hsame
          · exact absurd ⟨item, hlater, hkey⟩ hrest
        subst hfirst
        refine ⟨0, item, ⟨rfl, ?_⟩, hkey⟩
        intro later hlater hsame
        exact hrest ⟨later, hlater, hsame.trans hkey⟩

/-- The last item with a key is the one that is found from the end. -/
theorem LastAt.findRev?_eq {ι κ : Type} [DecidableEq κ] {key : ι → κ} {items : List ι}
    {place : Nat} {item : ι} (h : LastAt key items place item) :
    (items.findRev? fun other => key other == key item) = some item := by
  obtain ⟨hitem, hlater⟩ := h
  obtain ⟨hplace, rfl⟩ := List.getElem?_eq_some_iff.mp hitem
  rw [List.findRev?_eq_find?_reverse, List.find?_eq_some_iff_append]
  refine ⟨beq_self_eq_true _, (items.drop (place + 1)).reverse, (items.take place).reverse, ?_, ?_⟩
  · simp
  · intro other hother
    have hne := hlater other (List.mem_reverse.mp hother)
    simpa using hne

/-- **The last write counts.**  Of the values that are put under a key one after the other the last
one stays. -/
theorem Keyed.find?_foldl_insert {κ α ι : Type} [DecidableEq κ] [Ord κ] (key : ι → κ)
    (value : ι → α) (items : List ι) (entries : List (κ × α)) (k : κ) :
    find? k (items.foldl (fun done item => insert (key item) (value item) done) entries)
      = ((items.findRev? fun item => key item == k).map value).or (find? k entries) := by
  induction items generalizing entries with
  | nil => rfl
  | cons item rest ih =>
      rw [List.foldl_cons, ih, find?_insert, List.findRev?]
      -- The first item decides only if no later one has the key.
      cases hlater : rest.findRev? fun item => key item == k with
      | some later => rfl
      | none =>
          by_cases h : key item = k
          · simp [h]
          · simp [h, Ne.symm h]

namespace Row

theorem values_foldl_insert (cells : List (String × Json)) (row : Row) :
    (cells.foldl (fun row cell => row.insert cell.1 cell.2) row).values
      = cells.foldl (fun done cell => Keyed.insert cell.1 cell.2 done) row.values := by
  induction cells generalizing row with
  | nil => rfl
  | cons cell rest ih => exact ih (row.insert cell.1 cell.2)

/-- In a row that is filled from nothing the last of the cells with a key stands under it. -/
theorem get?_foldl_insert (cells : List (String × Json)) (key : String) :
    (cells.foldl (fun row cell => row.insert cell.1 cell.2) empty).get? key
      = (cells.findRev? fun cell => cell.1 == key).map Prod.snd := by
  unfold get?
  rw [values_foldl_insert, Keyed.find?_foldl_insert]
  exact Option.or_none

/-- If all cells with a key agree, their value stands under it. -/
theorem get?_foldl_insert_of_unique {cells : List (String × Json)} {key : String} {value : Json}
    (hmem : (key, value) ∈ cells) (honly : ∀ other, (key, other) ∈ cells → other = value) :
    (cells.foldl (fun row cell => row.insert cell.1 cell.2) empty).get? key = some value := by
  have hlast : cells.findRev? (fun cell => cell.1 == key) = some (key, value) := by
    refine findRev?_eq_some_of_unique hmem (beq_self_eq_true key) fun cell hcell htest => ?_
    obtain ⟨k, other⟩ := cell
    obtain rfl : k = key := eq_of_beq htest
    rw [honly other hcell]
  rw [get?_foldl_insert, hlast, Option.map_some]

end Row

end Reporting
