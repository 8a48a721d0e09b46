import Mathlib.Data.List.Nodup
import Reporting.Proofs.Distinct
import Reporting.Proofs.Grouping.Key
import Reporting.Proofs.Grouping.Total
import Reporting.Proofs.Row

/-!
# Groups are a partition

Records are put into groups one by one, each group with running accumulators.  What comes out is
said without any running state: there is one group for each distinct key, in the order in which the
keys are first seen, and its accumulators have taken the values of exactly the records with that
key (`buckets_eq`).

The cells of a group's row are then the texts of any of its records (`get?_row_path`) and the
results of its records' values (`get?_row_label`).  Choosing records by something that their row
shows is choosing rows (`rows_filter`).
-/

namespace Reporting

namespace Grouping

/-- The accumulators of some aggregations after all of some records. -/
def accumulate (aggregations : List Aggregation) (records : List Json) : List Accumulator :=
  aggregations.map fun agg => .ofList (records.map fun record => record.resolve? agg.field)

/-- The records with a key, in their order. -/
def members (paths : List String) (key : String) (records : List Json) : List Json :=
  records.filter fun record => Grouping.key paths record = key

/-- The keys of some records, each once, in the order in which they are first seen. -/
def keys (paths : List String) (records : List Json) : List String :=
  (records.map (key paths)).eraseDups

theorem mem_keys {paths : List String} {records : List Json} {k : String} :
    k ∈ keys paths records ↔ ∃ record ∈ records, key paths record = k := by
  unfold keys
  rw [List.mem_eraseDups, List.mem_map]

theorem nodup_keys (paths : List String) (records : List Json) : (keys paths records).Nodup :=
  Distinct.nodup_eraseDups _

/-- Taking a record is taking its values last. -/
theorem addRecord_accumulate (aggregations : List Aggregation) (record : Json)
    (records : List Json) :
    addRecord aggregations record (accumulate aggregations records)
      = accumulate aggregations (records ++ [record]) := by
  unfold addRecord accumulate
  rw [List.zipWith_map_left, List.zipWith_self]
  simp only [List.map_append, List.map_singleton, Accumulator.ofList_concat]

/-- Placing a record changes the group with its key, which is made at the end if it is not
there. -/
theorem place_map (aggregations : List Aggregation) (record : Json) (key : String)
    (accsOf : String → List Accumulator) {keys : List String} (hkeys : keys.Nodup)
    (hnew : key ∉ keys → accsOf key = aggregations.map fun _ => .empty) :
    place aggregations record key (keys.map fun k => (k, accsOf k))
      = (if key ∈ keys then keys else keys ++ [key]).map fun k =>
          (k, if k = key then addRecord aggregations record (accsOf k) else accsOf k) := by
  induction keys with
  | nil => simp [place, hnew]
  | cons k rest ih =>
      obtain ⟨hfresh, hrest⟩ := List.nodup_cons.mp hkeys
      by_cases hk : k = key
      · subst hk
        have hothers : (rest.map fun l => (l, accsOf l))
            = rest.map fun l =>
                (l, if l = k then addRecord aggregations record (accsOf l) else accsOf l) := by
          refine List.map_congr_left fun l hl => ?_
          rw [if_neg]
          rintro rfl
          exact hfresh hl
        simp [place, hothers]
      · have hmem : key ∈ k :: rest ↔ key ∈ rest := by simp [Ne.symm hk]
        have hrec := ih hrest fun h => hnew (mt hmem.mp h)
        simp only [List.map_cons, place, if_neg hk, hrec, hmem]
        split <;> simp [hk]

/-- **Groups are a partition.**  There is one group for each distinct key, in the order in which
the keys are first seen, and it has taken the records with that key in their order. -/
theorem buckets_eq (grouping : Grouping) (records : List Json) :
    grouping.buckets records
      = (keys grouping.groupBy records).map fun k =>
          (k, accumulate grouping.aggregations (members grouping.groupBy k records)) := by
  -- From the end: the last record is placed into the groups of the records before it.
  induction records using List.reverseRecOn with
  | nil => rfl
  | append_singleton records record ih =>
      have hstep : grouping.buckets (records ++ [record])
          = place grouping.aggregations record (key grouping.groupBy record)
              (grouping.buckets records) := by
        simp [buckets]
      have hnew : key grouping.groupBy record ∉ keys grouping.groupBy records →
          accumulate grouping.aggregations
              (members grouping.groupBy (key grouping.groupBy record) records)
            = grouping.aggregations.map fun _ => .empty := by
        intro hnew
        have hempty : members grouping.groupBy (key grouping.groupBy record) records = [] := by
          refine List.filter_eq_nil_iff.mpr fun other hother hsame => hnew ?_
          exact mem_keys.mpr ⟨other, hother, of_decide_eq_true hsame⟩
        rw [hempty]
        rfl
      have hkeys : keys grouping.groupBy (records ++ [record])
          = if key grouping.groupBy record ∈ keys grouping.groupBy records then
              keys grouping.groupBy records
            else keys grouping.groupBy records ++ [key grouping.groupBy record] := by
        simp only [keys, List.map_append, List.map_singleton, Distinct.eraseDups_concat,
          List.mem_eraseDups]
      rw [hstep, ih, place_map grouping.aggregations record (key grouping.groupBy record)
        (fun k => accumulate grouping.aggregations (members grouping.groupBy k records))
        (nodup_keys _ _) hnew, hkeys]
      refine List.map_congr_left fun k _ => ?_
      by_cases hk : k = key grouping.groupBy record
      · subst hk
        simp [addRecord_accumulate, members]
      · simp [hk, members, Ne.symm hk]

/-- The row of the records with a key. -/
def rowFor (grouping : Grouping) (records : List Json) (key : String) : Row :=
  grouping.row (key, accumulate grouping.aggregations (members grouping.groupBy key records))

/-- One row for each distinct key, made of the records with that key. -/
theorem rows_eq (grouping : Grouping) (records : List Json) :
    grouping.rows records
      = (keys grouping.groupBy records).map (grouping.rowFor records) := by
  rw [rows, buckets_eq, List.map_map]
  rfl

/-- The cells of results have the labels of their aggregations. -/
theorem mem_resultCells {aggregations : List Aggregation} {accs : List Accumulator}
    {cell : String × Json} (h : cell ∈ resultCells aggregations accs) :
    ∃ agg ∈ aggregations, agg.label = cell.1 := by
  unfold resultCells at h
  rw [← List.map_uncurry_zip_eq_zipWith] at h
  obtain ⟨⟨acc, agg⟩, hmem, rfl⟩ := List.mem_map.mp h
  exact ⟨agg, (List.of_mem_zip hmem).2, rfl⟩

/-- The results over some records. -/
theorem resultCells_accumulate (aggregations : List Aggregation) (records : List Json) :
    resultCells aggregations (accumulate aggregations records)
      = aggregations.map fun agg =>
          (agg.label, .ofExtended
            ((Accumulator.ofList (records.map fun record => record.resolve? agg.field)).compute
              agg.function)) := by
  rw [resultCells, accumulate, List.zipWith_map_left, List.zipWith_self]

variable {grouping : Grouping}

/-- Under a path that is no label stands the text of every record of the group. -/
theorem get?_row_path {path : String} (hpath : path ∈ grouping.groupBy)
    (hlabel : ∀ agg ∈ grouping.aggregations, agg.label ≠ path) (record : Json)
    (accs : List Accumulator) :
    (grouping.row (key grouping.groupBy record, accs)).get? path
      = some (.str (String.ofList (textAt record path))) := by
  unfold row
  refine Row.get?_foldl_insert_of_unique ?_ fun other hother => ?_
  · rw [keyCells_key (List.ne_nil_of_mem hpath)]
    exact List.mem_append_left _ (List.mem_map.mpr ⟨path, hpath, rfl⟩)
  · rw [keyCells_key (List.ne_nil_of_mem hpath)] at hother
    rcases List.mem_append.mp hother with htext | hresult
    · obtain ⟨same, _, hsame⟩ := List.mem_map.mp htext
      obtain ⟨rfl, rfl⟩ := Prod.mk.inj hsame
      rfl
    · obtain ⟨agg, hagg, hname⟩ := mem_resultCells hresult
      exact absurd hname (hlabel agg hagg)

/-- Under a label that no other aggregation and no path has stands the result over the records of
the group. -/
theorem get?_row_label (hlabels : (grouping.aggregations.map Aggregation.label).Nodup)
    {agg : Aggregation} (hagg : agg ∈ grouping.aggregations)
    (hlabel : agg.label ∉ grouping.groupBy) (k : String) (records : List Json) :
    (grouping.row (k, accumulate grouping.aggregations records)).get? agg.label
      = some (.ofExtended
          ((Accumulator.ofList (records.map fun record => record.resolve? agg.field)).compute
            agg.function)) := by
  unfold row
  rw [resultCells_accumulate]
  refine Row.get?_foldl_insert_of_unique ?_ fun other hother => ?_
  · exact List.mem_append_right _ (List.mem_map.mpr ⟨agg, hagg, rfl⟩)
  · rcases List.mem_append.mp hother with htext | hresult
    · exact absurd (List.of_mem_zip htext).1 hlabel
    · obtain ⟨same, hsame, hcell⟩ := List.mem_map.mp hresult
      obtain ⟨hname, hvalue⟩ := Prod.mk.inj hcell
      obtain rfl : same = agg := List.inj_on_of_nodup_map hlabels hsame hagg hname
      exact hvalue.symm

/-- Under any label stands the result of the last aggregation that has it, also where the label is
a path, since the results are put into the row after the texts. -/
theorem get?_row_of_lastAt {place : Nat} {agg : Aggregation}
    (hlast : LastAt Aggregation.label grouping.aggregations place agg) (k : String)
    (records : List Json) :
    (grouping.row (k, accumulate grouping.aggregations records)).get? agg.label
      = some (.ofExtended
          ((Accumulator.ofList (records.map fun record => record.resolve? agg.field)).compute
            agg.function)) := by
  have hfound : (resultCells grouping.aggregations
        (accumulate grouping.aggregations records)).findRev? (fun cell => cell.1 == agg.label)
      = some (agg.label, .ofExtended
          ((Accumulator.ofList (records.map fun record => record.resolve? agg.field)).compute
            agg.function)) := by
    rw [resultCells_accumulate, List.findRev?_eq_find?_reverse, ← List.map_reverse, List.find?_map,
      Function.comp_def, ← List.findRev?_eq_find?_reverse, hlast.findRev?_eq]
    rfl
  unfold row
  rw [Row.get?_foldl_insert, List.findRev?_eq_find?_reverse, List.reverse_append,
    List.find?_append, ← List.findRev?_eq_find?_reverse, hfound]
  rfl

/-- **Choosing records by what their row shows is choosing rows.**  The rows that stay are
unchanged and keep their order. -/
theorem rows_filter (grouping : Grouping) {keep : Json → Bool} {test : Row → Bool}
    {records : List Json}
    (h : ∀ record ∈ records, ∀ accs,
      test (grouping.row (key grouping.groupBy record, accs)) = keep record) :
    grouping.rows (records.filter keep) = (grouping.rows records).filter test := by
  have hkeep : ∀ record ∈ records,
      keep record = test (grouping.row (key grouping.groupBy record, [])) :=
    fun record hrecord => (h record hrecord []).symm
  have hkeys : keys grouping.groupBy (records.filter keep)
      = (keys grouping.groupBy records).filter fun k => test (grouping.row (k, [])) := by
    rw [keys, List.filter_congr hkeep, keys, ← Distinct.eraseDups_filter, List.filter_map]
    rfl
  have htest : (keys grouping.groupBy records).filter (fun k => test (grouping.row (k, [])))
      = (keys grouping.groupBy records).filter (test ∘ grouping.rowFor records) := by
    refine List.filter_congr fun k hk => ?_
    obtain ⟨record, hrecord, rfl⟩ := mem_keys.mp hk
    exact (h record hrecord []).trans (h record hrecord _).symm
  rw [rows_eq, rows_eq, hkeys, List.filter_map, ← htest]
  refine List.map_congr_left fun k hk => ?_
  -- All members of a group that stays are kept.
  have hmembers : members grouping.groupBy k (records.filter keep)
      = members grouping.groupBy k records := by
    unfold members
    rw [List.filter_filter]
    refine List.filter_congr fun record hrecord => ?_
    by_cases hsame : key grouping.groupBy record = k
    · subst hsame
      simp [hkeep record hrecord, (List.mem_filter.mp hk).2]
    · simp [hsame]
  rw [rowFor, rowFor, hmembers]

end Grouping

end Reporting
