import Mathlib.Data.List.Basic
import Reporting.Grouping.Group

/-!
# Group keys

A key is joined from the texts of a record, none of which holds the separator.  So cutting the key
gives the texts back (`parts_key`): keys and lists of texts tell the same, and the cells that are
made of a key are the texts of any record of its group (`keyCells_key`).
-/

namespace Reporting.Grouping

/-- The texts of a record at some paths. -/
def texts (paths : List String) (record : Json) : List String :=
  paths.map fun path => String.ofList (textAt record path)

/-- The texts that a key is cut into. -/
def parts (key : String) : List String :=
  (Text.split separator key.toList).map String.ofList

/-- The text at a path is that of the value there. -/
theorem textAt_of_resolve? {record value : Json} {path : String}
    (h : record.resolve? path = some value) :
    textAt record path = Text.erase separator value.textView.toList := by
  rw [textAt, h]

theorem textAt_of_missing {record : Json} {path : String} (h : record.resolve? path = none) :
    textAt record path = [] := by
  rw [textAt, h]

/-- No text of a record holds the separator. -/
theorem separator_not_mem_textAt (record : Json) (path : String) :
    separator ∉ textAt record path := by
  unfold textAt
  split
  · exact Text.not_mem_erase separator _
  · exact List.not_mem_nil

/-- **Cutting a key gives the texts back** that it was made of. -/
theorem parts_key {paths : List String} (hpaths : paths ≠ []) (record : Json) :
    parts (key paths record) = texts paths record := by
  have hsplit : Text.split separator (Text.join separator (paths.map (textAt record)))
      = paths.map (textAt record) := by
    refine Text.split_join (by simpa using hpaths) fun part hpart => ?_
    obtain ⟨path, _, rfl⟩ := List.mem_map.mp hpart
    exact separator_not_mem_textAt record path
  simp only [parts, key, texts, String.toList_ofList, hsplit, List.map_map, Function.comp_def]

/-- Keys with the same parts are the same key. -/
theorem parts_injective : Function.Injective parts := by
  intro a b h
  have hsplit : Text.split separator a.toList = Text.split separator b.toList :=
    List.map_injective_iff.mpr (fun _ _ h => String.ofList_injective h) h
  have hjoin := congrArg (Text.join separator) hsplit
  rw [Text.join_split, Text.join_split] at hjoin
  exact String.toList_injective hjoin

/-- Records have the same key if they have the same texts. -/
theorem key_eq_key_iff {paths : List String} (hpaths : paths ≠ []) (a b : Json) :
    key paths a = key paths b ↔ texts paths a = texts paths b := by
  rw [← parts_key hpaths a, ← parts_key hpaths b]
  exact parts_injective.eq_iff.symm

theorem key_eq_key_iff_textAt {paths : List String} (hpaths : paths ≠ []) (a b : Json) :
    key paths a = key paths b ↔ ∀ path ∈ paths, textAt a path = textAt b path := by
  rw [key_eq_key_iff hpaths]
  simp only [texts, List.map_inj_left, String.ofList_inj]

/-- The cells of a key are the texts of every record that has it. -/
theorem keyCells_key {paths : List String} (hpaths : paths ≠ []) (record : Json) :
    keyCells paths (key paths record)
      = paths.map fun path => (path, .str (String.ofList (textAt record path))) := by
  have hcells : (Text.split separator (key paths record).toList).map
        (fun part => Json.str (String.ofList part))
      = (texts paths record).map Json.str := by
    rw [← parts_key hpaths record, parts, List.map_map]
    rfl
  rw [keyCells, hcells, texts, List.map_map, List.zip, List.zipWith_map_right, List.zipWith_self]
  rfl

end Reporting.Grouping
