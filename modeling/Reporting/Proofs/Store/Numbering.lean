import Reporting.Store.Database

/-!
# Numbered tables

Rows are numbered one by one as long as the numbers are words (`Table.rowsAfter_eq_countedFrom`), so
a table that is only ever filled by the store has the numbers `1, 2, …` in the order of insertion.
`Table.ofRecords` is that table, said without the running maximum and without the arithmetic of
words.  As long as the numbers fit (`Table.capacity`), adding records to such a table gives such a
table again (`append_ofRecords`).

Reading a numbered table by its numbers is reading it as it is, for every scope (`load_ofRecords`):
the rows that a scope does not see leave gaps in the numbers, but no row changes its place.
-/

namespace Reporting

namespace Table

/-- The greatest sequence number, which is also how many records a table can number. -/
def capacity : Nat := 9223372036854775807

/-- The rows of some records, numbered from the number after `n`. -/
def numberedFrom (n : Nat) : List Json → Table
  | [] => []
  | record :: rest => ⟨(n : Int) + 1, record.owner?, record.text⟩ :: numberedFrom (n + 1) rest

/-- The rows of some records, numbered from one. -/
def ofRecords (records : List Json) : Table :=
  numberedFrom 0 records

@[simp] theorem length_numberedFrom (n : Nat) (records : List Json) :
    (numberedFrom n records).length = records.length := by
  induction records generalizing n with
  | nil => rfl
  | cons record rest ih => simp [numberedFrom, ih]

@[simp] theorem length_ofRecords (records : List Json) :
    (ofRecords records).length = records.length :=
  length_numberedFrom 0 records

/-- Numbering goes on where it stopped. -/
theorem numberedFrom_append (n : Nat) (before after : List Json) :
    numberedFrom n (before ++ after)
      = numberedFrom n before ++ numberedFrom (n + before.length) after := by
  induction before generalizing n with
  | nil => simp [numberedFrom]
  | cons record rest ih =>
      have harith : n + 1 + rest.length = n + (rest.length + 1) := by omega
      simp [numberedFrom, ih, harith]

/-- Whether a number is a signed word of 64 bits, which every number in a table is. -/
def IsWord (n : Int) : Prop :=
  -(capacity + 1 : Int) ≤ n ∧ n ≤ capacity

instance (n : Int) : Decidable (IsWord n) :=
  inferInstanceAs (Decidable (_ ∧ _))

theorem wrapped_of_isWord {n : Int} (h : IsWord n) : wrapped n = n := by
  have hsize : (UInt64.size : Int) = 18446744073709551616 := rfl
  obtain ⟨hlow, hhigh⟩ := h
  unfold capacity at hlow hhigh
  exact Int.bmod_eq_of_le (by omega) (by omega)

/-- The rows of some records, numbered one by one from a number on. -/
def countedFrom (first : Int) (records : List Json) : Table :=
  records.mapIdx fun place record => ⟨first + place, record.owner?, record.text⟩

theorem countedFrom_cons (first : Int) (record : Json) (rest : List Json) :
    countedFrom first (record :: rest)
      = ⟨first, record.owner?, record.text⟩ :: countedFrom (first + 1) rest := by
  have hplaces : ∀ place : Nat, first + ((place + 1 : Nat) : Int) = first + 1 + place := by
    intro place
    omega
  unfold countedFrom
  rw [List.mapIdx_cons]
  simp only [hplaces]
  simp

/-- The rows of a numbered table are counted. -/
theorem numberedFrom_eq_countedFrom (n : Nat) (records : List Json) :
    numberedFrom n records = countedFrom (n + 1) records := by
  induction records generalizing n with
  | nil => rfl
  | cons record rest ih =>
      rw [numberedFrom, ih, countedFrom_cons]
      rfl

/-- As long as the numbers are words, rows are numbered one by one. -/
theorem rowsAfter_eq_countedFrom {seq : Int} {records : List Json} (hseq : IsWord seq)
    (hroom : seq + records.length ≤ capacity) :
    rowsAfter seq records = countedFrom (seq + 1) records := by
  induction records generalizing seq with
  | nil => rfl
  | cons record rest ih =>
      rw [List.length_cons] at hroom
      have hnext : IsWord (seq + 1) := ⟨by have := hseq.1; omega, by omega⟩
      rw [rowsAfter, wrapped_of_isWord hnext, ih hnext (by omega), countedFrom_cons]

/-- As long as the numbers fit, rows are numbered one by one. -/
theorem rowsAfter_eq_numberedFrom {n : Nat} {records : List Json}
    (h : n + records.length ≤ capacity) :
    rowsAfter n records = numberedFrom n records := by
  have hword : IsWord n := ⟨by omega, by omega⟩
  rw [numberedFrom_eq_countedFrom]
  exact rowsAfter_eq_countedFrom hword (by omega)

/-- Going over numbered rows, the greatest number is always the last one. -/
theorem foldl_max_numberedFrom (n : Nat) (records : List Json) :
    (numberedFrom n records).foldl (fun greatest row => max greatest row.seq) (n : Int)
      = ((n + records.length : Nat) : Int) := by
  induction records generalizing n with
  | nil => simp [numberedFrom]
  | cons record rest ih =>
      have hmax : max (n : Int) ((n : Int) + 1) = ((n + 1 : Nat) : Int) := by omega
      have harith : n + 1 + rest.length = n + (rest.length + 1) := by omega
      simp only [numberedFrom, List.foldl_cons, hmax, ih, List.length_cons, harith]

/-- The greatest number of a numbered table is the number of its rows. -/
theorem maxSeq_ofRecords (records : List Json) : (ofRecords records).maxSeq = records.length := by
  cases records with
  | nil => rfl
  | cons record rest =>
      have hfold := foldl_max_numberedFrom 1 rest
      have harith : 1 + rest.length = rest.length + 1 := by omega
      rw [harith] at hfold
      simpa [ofRecords, numberedFrom, maxSeq] using hfold

/-- **Adding to a numbered table.**  As long as the numbers fit, the table of some records with
others added is the table of all of them. -/
theorem append_ofRecords {records more : List Json}
    (h : (records ++ more).length ≤ capacity) :
    (ofRecords records).append more = ofRecords (records ++ more) := by
  rw [List.length_append] at h
  unfold append
  rw [maxSeq_ofRecords, rowsAfter_eq_numberedFrom h]
  simp [ofRecords, numberedFrom_append]

/-- Later rows have greater numbers, and all are above `n`. -/
theorem pairwise_numberedFrom (n : Nat) (records : List Json) :
    (∀ row ∈ numberedFrom n records, (n : Int) < row.seq) ∧
      (numberedFrom n records).Pairwise fun a b => a.seq < b.seq := by
  induction records generalizing n with
  | nil => simp [numberedFrom]
  | cons record rest ih =>
      obtain ⟨habove, hpairs⟩ := ih (n + 1)
      constructor
      · intro row hrow
        rcases List.mem_cons.mp hrow with rfl | hrest
        · show (n : Int) < (n : Int) + 1
          omega
        · have h := habove row hrest
          omega
      · refine List.pairwise_cons.mpr ⟨fun row hrow => ?_, hpairs⟩
        have h := habove row hrow
        show (n : Int) + 1 < row.seq
        omega

/-- The rows that a scope sees are those whose owner it sees. -/
theorem visible_eq_filter (table : Table) (scope : Scope) :
    table.visible scope = table.filter fun row => scope.canSee row.owner := by
  unfold visible Scope.canSee ownedBy
  cases scope.role with
  | admin => exact (List.filter_eq_self.mpr fun _ _ => rfl).symm
  | agent => rfl

/-- The numbers of a numbered table do not move the rows that a scope sees. -/
theorem bySeq_visible_ofRecords (records : List Json) (scope : Scope) :
    ((ofRecords records).visible scope).bySeq = (ofRecords records).visible scope := by
  refine List.mergeSort_of_pairwise ?_
  rw [visible_eq_filter]
  refine List.Pairwise.filter _ ?_
  exact (pairwise_numberedFrom 0 records).2.imp fun h => by simpa using Int.le_of_lt h

/-- Reading the rows that a scope sees is reading the texts of the records that it sees. -/
theorem filterMap_numberedFrom (n : Nat) (records : List Json) (sees : Option String → Bool) :
    ((numberedFrom n records).filter fun row => sees row.owner).filterMap
        (fun row => Json.read? row.body)
      = (records.filter fun record => sees record.owner?).filterMap
          fun record => Json.read? record.text := by
  induction records generalizing n with
  | nil => rfl
  | cons record rest ih =>
      by_cases h : sees record.owner? = true
      · simp [numberedFrom, h, List.filterMap_cons, ih]
      · simp [numberedFrom, h, ih]

/-- **Reading a numbered table.**  A scope gets the records that it sees, in the order of
insertion, as far as their texts can be read back. -/
theorem load_ofRecords (records : List Json) (scope : Scope) :
    (ofRecords records).load scope
      = (records.filter fun record => scope.canSee record.owner?).filterMap
          fun record => Json.read? record.text := by
  unfold load
  rw [bySeq_visible_ofRecords, visible_eq_filter]
  exact filterMap_numberedFrom 0 records scope.canSee

end Table

end Reporting
