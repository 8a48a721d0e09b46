import Mathlib.Algebra.BigOperators.Group.List.Basic
import Reporting.Proofs.Grouping.Partition

/-!
# Groups by tuples of texts

Groups are built by one pass over the records with joined keys and running accumulators.  What comes
out is a partition that mentions neither: the records are told apart by the tuple of their texts at
the paths.  The group that the pass changes for a record (`targetOf`, `buckets_take_succ`) is the same for two
records exactly if they have the same tuple, there is one row for each tuple in the order in which
the tuples first occur, and the row is made of the tuple and of the records that have it
(`tupleRow`).  So every record counts in one group and in no other.  `partitions_by_tuples` puts
these together.
-/

namespace Reporting

/-- The first occurrence of a value among the distinct values in front of it is where it stands among
all distinct values; a new value stands behind those in front of it. -/
theorem Distinct.idxOf_eraseDups {α : Type} [BEq α] [LawfulBEq α] (before : List α) (x : α)
    (after : List α) :
    before.eraseDups.idxOf x = (before ++ x :: after).eraseDups.idxOf x := by
  rw [List.eraseDups_append]
  by_cases hold : x ∈ before
  · rw [List.idxOf_append_of_mem (List.mem_eraseDups.mpr hold)]
  · have hnew : x ∉ before.eraseDups := mt List.mem_eraseDups.mp hold
    have hfirst : ((x :: after).removeAll before).eraseDups.idxOf x = 0 := by
      simp [List.removeAll, hold, List.eraseDups_cons]
    rw [List.idxOf_append_of_notMem hnew, hfirst, List.idxOf_eq_length hnew, Nat.add_zero]

namespace Grouping

/-! ## The group that a record goes to -/

/-- The place of the group with a key among some groups; without one, the place behind them all. -/
def target (key : String) (groups : List Bucket) : Nat :=
  groups.findIdx fun group => group.1 = key

/-- Some groups after the one at a place has taken a record, or after one for the key was made there
if there was none. -/
def takeAt (aggregations : List Aggregation) (record : Json) (key : String) (place : Nat)
    (groups : List Bucket) : List Bucket :=
  if place < groups.length then
    groups.modify place fun group => (group.1, addRecord aggregations record group.2)
  else groups ++ [(key, addRecord aggregations record (aggregations.map fun _ => .empty))]

/-- Placing a record changes the group at its target and no other. -/
theorem place_eq_takeAt (aggregations : List Aggregation) (record : Json) (key : String)
    (groups : List Bucket) :
    place aggregations record key groups
      = takeAt aggregations record key (target key groups) groups := by
  unfold takeAt
  induction groups with
  | nil => rfl
  | cons group rest ih =>
      obtain ⟨k, accs⟩ := group
      unfold place target
      by_cases hk : k = key
      · simp [hk, List.findIdx_cons]
      · have htarget : rest.findIdx (fun group => group.1 = key) = target key rest := rfl
        rw [if_neg hk, ih, List.findIdx_cons, decide_eq_false hk, cond_false, htarget]
        simp only [List.length_cons, Nat.add_lt_add_iff_right, List.modify_succ_cons]
        split <;> rfl

/-- The group that a record goes to when the pass over the records comes to it. -/
def targetOf (grouping : Grouping) (records : List Json) (i : Fin records.length) : Nat :=
  target (key grouping.groupBy records[i]) (grouping.buckets (records.take i))

/-- When the pass comes to a record, it changes the group that the record goes to and no other. -/
theorem buckets_take_succ (grouping : Grouping) (records : List Json) (i : Fin records.length) :
    grouping.buckets (records.take (i + 1))
      = takeAt grouping.aggregations records[i] (key grouping.groupBy records[i])
          (grouping.targetOf records i) (grouping.buckets (records.take i)) := by
  rw [targetOf, ← place_eq_takeAt, List.take_add_one, List.getElem?_eq_getElem i.isLt,
    Option.toList_some]
  unfold buckets
  rw [List.foldl_append]
  rfl

/-- Among the keys of the records before it, the key of a record stands where it stands among all
keys, so a group stays where it was made. -/
theorem targetOf_eq_idxOf (grouping : Grouping) (records : List Json) (i : Fin records.length) :
    grouping.targetOf records i
      = (keys grouping.groupBy records).idxOf (key grouping.groupBy records[i]) := by
  have hsplit : records.map (key grouping.groupBy)
      = (records.take i).map (key grouping.groupBy)
        ++ key grouping.groupBy records[i] :: (records.drop (i + 1)).map (key grouping.groupBy) := by
    rw [← List.map_cons, ← List.map_append]
    simp
  unfold keys
  rw [hsplit, ← Distinct.idxOf_eraseDups, targetOf, target, buckets_eq, List.findIdx_map]
  rfl

/-! ## Rows of tuples -/

/-- The tuples of texts of some records, each once, as they first occur. -/
def tuples (paths : List String) (records : List Json) : List (List String) :=
  (records.map (texts paths)).eraseDups

/-- The records with a tuple of texts, in their order. -/
def withTexts (paths : List String) (tuple : List String) (records : List Json) : List Json :=
  records.filter fun record => texts paths record = tuple

/-- The row of a tuple of texts and of some records: first the texts under their paths, then the
result of each aggregation over the records under its label.  What is put under a key replaces what
was there. -/
def tupleRow (grouping : Grouping) (tuple : List String) (records : List Json) : Row :=
  let textCells := grouping.groupBy.zip (tuple.map Json.str)
  let resultCells := grouping.aggregations.map fun agg =>
    (agg.label, Json.ofExtended
      ((Accumulator.ofList (records.map fun record => record.resolve? agg.field)).compute
        agg.function))
  (textCells ++ resultCells).foldl (fun row cell => row.insert cell.1 cell.2) Row.empty

variable {grouping : Grouping}

/-- Keys and tuples tell the same. -/
theorem map_parts_keys {paths : List String} (hpaths : paths ≠ []) (records : List Json) :
    (keys paths records).map parts = tuples paths records := by
  unfold keys tuples
  rw [← Distinct.eraseDups_map_of_injective parts_injective, List.map_map]
  congr 1
  apply List.map_congr_left
  intro record _
  exact parts_key hpaths record

theorem members_key {paths : List String} (hpaths : paths ≠ []) (record : Json)
    (records : List Json) :
    members paths (key paths record) records = withTexts paths (texts paths record) records := by
  unfold members withTexts
  apply List.filter_congr
  intro other _
  exact decide_eq_decide.mpr (key_eq_key_iff hpaths other record)

/-- The row of a key is the row of its tuple. -/
theorem rowFor_key (hpaths : grouping.groupBy ≠ []) (records : List Json) (record : Json) :
    grouping.rowFor records (key grouping.groupBy record)
      = grouping.tupleRow (texts grouping.groupBy record)
          (withTexts grouping.groupBy (texts grouping.groupBy record) records) := by
  have hcells : keyCells grouping.groupBy (key grouping.groupBy record)
      = grouping.groupBy.zip ((texts grouping.groupBy record).map Json.str) := by
    rw [← parts_key hpaths record, parts, List.map_map]
    rfl
  unfold rowFor row tupleRow
  rw [resultCells_accumulate, members_key hpaths, hcells]

/-- Every record is in the group of its key and in no other. -/
theorem sum_length_members (paths : List String) (records : List Json) :
    ((keys paths records).map fun k => (members paths k records).length).sum = records.length := by
  -- The lengths are sums of ones over the members.
  have hones := Distinct.sum_map_classes_filter (key paths) (fun _ => 1) (fun _ => true) records
  simpa [keys, members] using hones

/-- What is said of the tuples may be said of the keys. -/
theorem map_tuples {α : Type} {paths : List String} (hpaths : paths ≠ []) (records : List Json)
    {ofTuple : List String → α} {ofKey : String → α}
    (h : ∀ record ∈ records, ofTuple (texts paths record) = ofKey (key paths record)) :
    (tuples paths records).map ofTuple = (keys paths records).map ofKey := by
  rw [← map_parts_keys hpaths, List.map_map]
  apply List.map_congr_left
  intro k hk
  obtain ⟨record, hrecord, rfl⟩ := mem_keys.mp hk
  rw [← h record hrecord, Function.comp_apply, parts_key hpaths]

/-- How many records the groups have taken, by the accumulators of one of the aggregations. -/
def countsAt (grouping : Grouping) (records : List Json) (place : Fin grouping.aggregations.length) :
    List Nat :=
  (grouping.buckets records).map fun group => (group.2.getD place .empty).count

/-- A group is a tuple of texts with the records that have it. -/
structure Partitions (grouping : Grouping) (records : List Json) : Prop where
  /-- The pass over the records puts each of them into one group and leaves all others alone. -/
  takes : ∀ i : Fin records.length, grouping.buckets (records.take (i + 1))
    = takeAt grouping.aggregations records[i] (key grouping.groupBy records[i])
        (grouping.targetOf records i) (grouping.buckets (records.take i))
  /-- Two records go to the same group exactly if their texts agree at every path. -/
  same_iff : ∀ i j : Fin records.length,
    grouping.targetOf records i = grouping.targetOf records j
      ↔ ∀ path ∈ grouping.groupBy, textAt records[i] path = textAt records[j] path
  /-- There is one row for each tuple, as the tuples first occur, made of the records with the
  tuple. -/
  rows : grouping.rows records = (tuples grouping.groupBy records).map fun tuple =>
    grouping.tupleRow tuple (withTexts grouping.groupBy tuple records)
  /-- The row of the group that a record goes to is the row of its tuple. -/
  tuple : ∀ i : Fin records.length,
    (tuples grouping.groupBy records)[grouping.targetOf records i]?
      = some (texts grouping.groupBy records[i])
  /-- No record is lost and none is in two groups. -/
  total : ((tuples grouping.groupBy records).map fun tuple =>
    (withTexts grouping.groupBy tuple records).length).sum = records.length
  /-- The counts of the groups add up to the number of records. -/
  counts : ∀ place, (grouping.countsAt records place).sum = records.length

theorem countsAt_eq (grouping : Grouping) (records : List Json)
    (place : Fin grouping.aggregations.length) :
    grouping.countsAt records place
      = (keys grouping.groupBy records).map fun k =>
          (members grouping.groupBy k records).length := by
  rw [countsAt, buckets_eq, List.map_map]
  apply List.map_congr_left
  intro k _
  simp [accumulate, Accumulator.count_ofList]

/-- **Grouping is a partition by tuples of texts.**  If there are paths to group by, two records go
to the same group exactly if their texts agree at every path; the rows come in the order in which
the tuples of texts first occur, each made of its tuple and of exactly the records that have it; and
no record is lost or counted twice. -/
theorem partitions_by_tuples (hpaths : grouping.groupBy ≠ []) (records : List Json) :
    grouping.Partitions records := by
  have hmem : ∀ i : Fin records.length,
      key grouping.groupBy records[i] ∈ keys grouping.groupBy records :=
    fun i => mem_keys.mpr ⟨records[i], List.getElem_mem _, rfl⟩
  constructor
  case takes => exact buckets_take_succ grouping records
  case same_iff =>
    intro i j
    rw [targetOf_eq_idxOf, targetOf_eq_idxOf, List.idxOf_inj (hmem i), key_eq_key_iff hpaths]
    unfold texts
    simp only [List.map_inj_left, String.ofList_inj]
  case rows =>
    rw [rows_eq]
    exact (map_tuples hpaths records fun record _ => (rowFor_key hpaths records record).symm).symm
  case tuple =>
    intro i
    rw [targetOf_eq_idxOf, ← map_parts_keys hpaths, List.getElem?_map, List.getElem?_idxOf (hmem i),
      Option.map_some, parts_key hpaths]
  case total =>
    rw [← sum_length_members grouping.groupBy records]
    congr 1
    exact map_tuples hpaths records fun record _ => by rw [members_key hpaths]
  case counts =>
    intro place
    rw [countsAt_eq, sum_length_members]

/-- The theorem at deals of which one has no city and one has the separator in it, grouped under a
label that is the path. -/
theorem partitions_by_tuples_separator_in_city :
    let records : List Json :=
      [.obj [("city", .str "Dubai")], .obj [], .obj [("city", .str "Du\x1fbai")]]
    let grouping : Grouping := ⟨["city"], [⟨"price", .count, "city"⟩]⟩
    grouping.groupBy ≠ [] ∧ grouping.Partitions records ∧
      grouping.targetOf records ⟨0, by decide⟩ = grouping.targetOf records ⟨2, by decide⟩ := by
  intro records grouping
  have hpaths : grouping.groupBy ≠ [] := List.cons_ne_nil _ _
  have hpartitions := partitions_by_tuples hpaths records
  refine ⟨hpaths, hpartitions, (hpartitions.same_iff _ _).mpr ?_⟩
  intro path hpath
  obtain rfl := List.mem_singleton.mp hpath
  rfl

end Grouping

end Reporting
