import Reporting.Proofs.StableSort
import Reporting.Proofs.Store.History

/-!
# Added records come last

A table need not have been filled by the store alone: its numbers may have gaps, repeat, or be
negative.  The store only looks at the greatest one (`Table.max?_map_seq`) and counts on from there,
so as long as the new numbers are words, they are above all that the table has
(`Table.follows_rowsAfter`).

That is all that reading needs.  However a reading puts rows with one number, it ends in the added
rows (`Table.Follows.exists_reading_eq`), and the reading of the store shows what it showed before,
followed by the added records (`Table.Follows.load_admin`).

Tables that only the store has filled are told by their histories, and then the numbers are those of
the places.
-/

namespace Reporting

namespace Table

/-- **The number that a table counts on from** is the greatest one that it has. -/
theorem max?_map_seq {table : Table} (h : table ≠ []) :
    (table.map StoredRecord.seq).max? = some table.maxSeq := by
  cases table with
  | nil => exact absurd rfl h
  | cons row rest =>
      rw [List.map_cons, List.max?_cons', List.foldl_map]
      rfl

/-- No number of a table is beyond the greatest one. -/
theorem le_maxSeq {table : Table} {row : StoredRecord} (h : row ∈ table) :
    row.seq ≤ table.maxSeq := by
  have hmax := List.max?_eq_some_iff.mp (max?_map_seq (List.ne_nil_of_mem h))
  exact hmax.2 row.seq (List.mem_map_of_mem h)

/-- The greatest number of some words is a word. -/
theorem isWord_maxSeq {table : Table} (h : ∀ row ∈ table, IsWord row.seq) :
    IsWord table.maxSeq := by
  by_cases hempty : table = []
  · subst hempty
    exact ⟨by decide, by decide⟩
  · have hmax := List.max?_eq_some_iff.mp (max?_map_seq hempty)
    obtain ⟨row, hrow, hseq⟩ := List.mem_map.mp hmax.1
    rw [← hseq]
    exact h row hrow

/-- Whether some rows follow a table as the rows of some records: numbered one by one in the order
of the records, above all numbers of the table, and none of them twice. -/
structure Follows (table : Table) (records : List Json) (added : Table) : Prop where
  counted : added = countedFrom (table.maxSeq + 1) records
  above : ∀ row ∈ table, ∀ new ∈ added, row.seq < new.seq
  distinct : added.Pairwise fun a b => a.seq < b.seq

/-- **Added rows follow the table**, whatever its numbers are. -/
theorem follows_rowsAfter {table : Table} {records : List Json}
    (hwords : ∀ row ∈ table, IsWord row.seq)
    (hroom : table.maxSeq + records.length ≤ capacity) :
    table.Follows records (rowsAfter table.maxSeq records) := by
  rw [rowsAfter_eq_countedFrom (isWord_maxSeq hwords) hroom]
  refine ⟨rfl, ?above, ?distinct⟩
  case above =>
    intro row hrow new hnew
    obtain ⟨place, hplace, rfl⟩ := List.mem_mapIdx.mp hnew
    have hle := le_maxSeq hrow
    show row.seq < table.maxSeq + 1 + place
    omega
  case distinct =>
    unfold countedFrom
    rw [List.pairwise_iff_getElem]
    intro i j hi hj hij
    simp only [List.getElem_mapIdx]
    omega

/-- The texts of counted rows are those of the records. -/
theorem map_body_countedFrom (first : Int) (records : List Json) :
    (countedFrom first records).map StoredRecord.body = records.map Json.text := by
  refine List.ext_getElem (by simp [countedFrom]) fun place _ _ => ?_
  simp [countedFrom]

/-- The numbers of counted rows are counted. -/
theorem map_seq_countedFrom (first : Int) (records : List Json) :
    (countedFrom first records).map StoredRecord.seq
      = (List.range records.length).map fun place : Nat => first + place := by
  refine List.ext_getElem (by simp [countedFrom]) fun place _ _ => ?_
  simp [countedFrom]

/-- A list whose members with some property stand in front of the others falls into both parts. -/
theorem filter_append_filter_not {α : Type} {keep : α → Bool} {xs : List α}
    (h : xs.Pairwise fun a b => keep b = true → keep a = true) :
    xs.filter keep ++ xs.filter (fun x => !keep x) = xs := by
  induction xs with
  | nil => rfl
  | cons x rest ih =>
      obtain ⟨hx, hrest⟩ := List.pairwise_cons.mp h
      by_cases hkeep : keep x = true
      · rw [List.filter_cons_of_pos hkeep, List.filter_cons_of_neg (by simp [hkeep]),
          List.cons_append, ih hrest]
      · -- Behind a member without the property no other one has it.
        have hnone : ∀ y ∈ x :: rest, ¬ keep y = true := by
          intro y hy
          rcases List.mem_cons.mp hy with rfl | hlater
          · exact hkeep
          · exact fun hy => hkeep (hx y hlater hy)
        have hall : ∀ y ∈ x :: rest, (!keep y) = true := by
          intro y hy
          simpa using hnone y hy
        rw [List.filter_eq_nil_iff.mpr hnone, List.filter_eq_self.mpr hall, List.nil_append]

/-- Of a list that mixes members with some property and others the two kinds are permutations of
what was mixed. -/
theorem perm_filter_of_perm_append {α : Type} {keep : α → Bool} {xs front back : List α}
    (hperm : xs.Perm (front ++ back)) (hfront : ∀ x ∈ front, keep x = true)
    (hback : ∀ x ∈ back, ¬ keep x = true) :
    (xs.filter keep).Perm front ∧ (xs.filter fun x => !keep x).Perm back := by
  constructor
  · have hfilter := hperm.filter keep
    rwa [List.filter_append, List.filter_eq_self.mpr hfront, List.filter_eq_nil_iff.mpr hback,
      List.append_nil] at hfilter
  · have hnone : ∀ x ∈ front, ¬ (!keep x) = true := by
      intro x hx
      simp [hfront x hx]
    have hall : ∀ x ∈ back, (!keep x) = true := by
      intro x hx
      simpa using hback x hx
    have hfilter := hperm.filter fun x => !keep x
    rwa [List.filter_append, List.filter_eq_nil_iff.mpr hnone, List.filter_eq_self.mpr hall,
      List.nil_append] at hfilter

namespace Follows

variable {table added : Table} {records : List Json} (h : table.Follows records added)
include h

/-- Added rows with one number are one row. -/
theorem eq_of_seq_eq {a b : StoredRecord} (ha : a ∈ added) (hb : b ∈ added)
    (hseq : a.seq = b.seq) : a = b := by
  have hpairs : added.Pairwise fun a b => a.seq = b.seq → a = b :=
    h.distinct.imp fun hlt hsame => absurd hsame (Int.ne_of_lt hlt)
  have hflip : added.Pairwise (flip fun a b => a.seq = b.seq → a = b) :=
    h.distinct.imp fun hlt hsame => absurd hsame.symm (Int.ne_of_lt hlt)
  exact hpairs.forall_of_forall_of_flip (fun _ _ _ => rfl) hflip ha hb hseq

/-- **However rows with one number are put, a reading ends in the added rows.** -/
theorem exists_reading_eq {reading : Table} (hperm : reading.Perm (table ++ added))
    (hsorted : reading.Pairwise fun a b => a.seq ≤ b.seq) :
    ∃ earlier : Table, earlier.Perm table ∧ reading = earlier ++ added := by
  -- The earlier rows are those below every added row.
  let below (row : StoredRecord) : Bool := decide (∀ new ∈ added, row.seq < new.seq)
  have htable : ∀ row ∈ table, below row = true := by
    intro row hrow
    exact decide_eq_true (h.above row hrow)
  have hadded : ∀ row ∈ added, ¬ below row = true := by
    intro row hrow hbelow
    exact Int.lt_irrefl _ (of_decide_eq_true hbelow row hrow)
  have hfront : reading.Pairwise fun a b => below b = true → below a = true := by
    apply hsorted.imp
    intro a b hab hb
    apply decide_eq_true
    intro new hnew
    exact Int.lt_of_le_of_lt hab (of_decide_eq_true hb new hnew)
  obtain ⟨hearlier, hlater⟩ := perm_filter_of_perm_append hperm htable hadded
  -- Sorted rows with different numbers are put in one order only.
  have hsame : (reading.filter fun row => !below row) = added := by
    apply hlater.eq_of_pairwise ?_ (hsorted.filter _) (h.distinct.imp Int.le_of_lt)
    intro a b ha hb hab hba
    exact h.eq_of_seq_eq (hlater.subset ha) hb (Int.le_antisymm hab hba)
  refine ⟨reading.filter below, hearlier, ?_⟩
  rw [← hsame, filter_append_filter_not hfront]

/-- The reading of the store leaves the earlier rows as they were read before. -/
theorem bySeq_append : (table ++ added).bySeq = table.bySeq ++ added := by
  have htrans : ∀ a b c : StoredRecord, decide (a.seq ≤ b.seq) = true →
      decide (b.seq ≤ c.seq) = true → decide (a.seq ≤ c.seq) = true := by
    intro a b c hab hbc
    simp only [decide_eq_true_eq] at hab hbc ⊢
    omega
  have htotal : ∀ a b : StoredRecord,
      (decide (a.seq ≤ b.seq) || decide (b.seq ≤ a.seq)) = true := by
    intro a b
    simp only [Bool.or_eq_true, decide_eq_true_eq]
    omega
  refine (StableSort.eq_mergeSort htrans htotal ?sorted fun a => ?ties).symm
  case sorted =>
    refine List.pairwise_append.mpr ⟨List.pairwise_mergeSort htrans htotal table, ?_, ?_⟩
    · exact h.distinct.imp fun hlt => by simpa using Int.le_of_lt hlt
    · intro row hrow new hnew
      have hlt := h.above row (List.mem_mergeSort.mp hrow) new hnew
      simpa using Int.le_of_lt hlt
  case ties =>
    unfold bySeq
    rw [List.filter_append, List.filter_append,
      StableSort.filter_tied_mergeSort htrans htotal]

/-- **An administrator is shown the added records last**, as far as their texts read back. -/
theorem load_admin (user : String) :
    (table ++ added).load (.admin user)
      = table.load (.admin user) ++ records.filterMap fun record => Json.read? record.text := by
  have hread : added.filterMap (fun row => Json.read? row.body)
      = records.filterMap fun record => Json.read? record.text := by
    rw [h.counted, ← Function.comp_def Json.read? StoredRecord.body, ← List.filterMap_map,
      map_body_countedFrom, List.filterMap_map]
    rfl
  show (table ++ added).bySeq.filterMap _ = table.bySeq.filterMap _ ++ _
  rw [h.bySeq_append, List.filterMap_append, hread]

end Follows

/-- The numbers of a numbered table are those of the places. -/
theorem map_seq_ofRecords (records : List Json) :
    (ofRecords records).map StoredRecord.seq
      = (List.range' 1 records.length).map fun n : Nat => (n : Int) := by
  rw [ofRecords, numberedFrom_eq_countedFrom, map_seq_countedFrom, List.range'_eq_map_range,
    List.map_map]
  rfl

end Table

namespace Database

/-- **Added records come last.**  Take any tables, whose numbers may have gaps, repeat or be
negative, and any records that can still be numbered after the greatest number of a source.  Adding
them succeeds and puts rows behind those that are there, numbered one by one after the greatest
number; no other table changes.  Every reading by number ends in the new rows, in whatever order it
puts earlier rows with one number, and an administrator is shown what was shown before and then the
records whose texts read back.  And in a table that only calls of the store have led to the numbers
are those from one to the number of records, in the order of insertion. -/
theorem insertRecords_comes_last :
    (∀ (db : Database) (b : BuiltIn) (records : List Json),
      (∀ row ∈ db.table b, Table.IsWord row.seq) →
      (db.table b).maxSeq + records.length ≤ Table.capacity →
      ∃ after added, db.insertRecords (.builtIn b) records = .ok after ∧
        after.table b = db.table b ++ added ∧ (db.table b).Follows records added ∧
        (∀ c, c ≠ b → after.table c = db.table c) ∧
        (∀ reading : Table, reading.Perm (after.table b) →
          (reading.Pairwise fun x y => x.seq ≤ y.seq) →
          ∃ earlier : Table, earlier.Perm (db.table b) ∧ reading = earlier ++ added) ∧
        ∀ user, RecordStore.load after (.builtIn b) (.admin user)
          = RecordStore.load db (.builtIn b) (.admin user)
            ++ records.filterMap fun record => Json.read? record.text) ∧
    ∀ (calls : List StoreCall) (db : Database), empty.runAll calls = .ok db →
      StaysNumbered calls → ∀ b,
        (db.table b).map StoredRecord.seq
          = (List.range' 1 (db.count (.builtIn b))).map fun n : Nat => (n : Int) := by
  constructor
  · intro db b records hwords hroom
    have hfollows := Table.follows_rowsAfter hwords hroom
    let added := Table.rowsAfter (db.table b).maxSeq records
    let after := db.withTable (db.table b ++ added) b
    have htable : after.table b = db.table b ++ added := table_withTable_self _ _ _
    refine ⟨after, added, rfl, htable, hfollows, ?_, ?_, ?_⟩
    · intro c hc
      exact table_withTable_of_ne _ _ hc
    · intro reading hperm hsorted
      rw [htable] at hperm
      exact hfollows.exists_reading_eq hperm hsorted
    · intro user
      show (after.table b).load (.admin user) = (db.table b).load (.admin user) ++ _
      rw [htable]
      exact hfollows.load_admin user
  · intro calls db hrun hroom b
    have htable := table_eq_ofRecords hrun hroom b
    show (db.table b).map StoredRecord.seq = (List.range' 1 (db.table b).length).map _
    rw [htable, Table.map_seq_ofRecords, Table.length_ofRecords]

/-- Three records that just fit above a table with a gap, a repeated negative number and a text that
is no JSON; and a history in which a table is cleared. -/
theorem insertRecords_comes_last_at_capacity :
    let db : Database :=
      { empty with deals := [⟨-7, some "u", "null"⟩, ⟨9223372036854775804, none, "["⟩,
          ⟨-7, none, "[]"⟩] }
    let records : List Json := [.null, .arr [], .obj []]
    let calls : List StoreCall :=
      [.insertRecords (.builtIn .deals) [.null, .null], .clear (.builtIn .deals),
        .insertRecord (.builtIn .deals) .null]
    (∀ row ∈ db.table .deals, Table.IsWord row.seq) ∧
    (db.table .deals).maxSeq + records.length ≤ Table.capacity ∧
    (∃ after, db.insertRecords (.builtIn .deals) records = .ok after ∧
      (after.table .deals).map StoredRecord.seq
        = [-7, 9223372036854775804, -7, 9223372036854775805, 9223372036854775806,
          9223372036854775807] ∧
      ∀ user, RecordStore.load after (.builtIn .deals) (.admin user)
        = RecordStore.load db (.builtIn .deals) (.admin user) ++ records) ∧
    ∃ db', empty.runAll calls = .ok db' ∧ StaysNumbered calls ∧
      (db'.table .deals).map StoredRecord.seq = [1] := by
  intro db records calls
  have hwords : ∀ row ∈ db.table .deals, Table.IsWord row.seq := by decide
  have hroom : (db.table .deals).maxSeq + records.length ≤ Table.capacity := by decide
  obtain ⟨hadding, hnumbers⟩ := insertRecords_comes_last
  obtain ⟨after, added, hafter, htable, hfollows, -, -, hload⟩ :=
    hadding db .deals records hwords hroom
  have hnull : Json.read? Json.null.text = some .null := by cbv
  have hlist : Json.read? (Json.arr []).text = some (.arr []) := by cbv
  have hobject : Json.read? (Json.obj []).text = some (.obj []) := by cbv
  have hback : records.filterMap (fun record => Json.read? record.text) = records := by
    simp [records, hnull, hlist, hobject]
  have hstays : StaysNumbered calls := by
    intro earlier hearlier b
    simp only [calls, List.prefix_cons_iff, List.prefix_nil] at hearlier
    rcases hearlier with rfl | ⟨_, rfl, rfl | ⟨_, rfl, rfl | ⟨_, rfl, rfl⟩⟩⟩
    all_goals cases b <;> decide
  refine ⟨hwords, hroom, ⟨after, hafter, ?_, ?_⟩, _, rfl, hstays, ?_⟩
  · rw [htable, hfollows.counted]
    rfl
  · intro user
    rw [hload user, hback]
  · exact hnumbers calls _ rfl hstays .deals

end Database

end Reporting
