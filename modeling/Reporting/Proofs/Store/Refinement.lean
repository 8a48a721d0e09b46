import Reporting.Proofs.Store.History
import Reporting.Store.Memory

/-!
# The database refines the in-memory store

The two stores have three operations in common: adding a record, adding some records, and removing
the records of a source.  The in-memory store keeps what it is given, so it is the reference: after
any operations it holds, for each source, the records that the events of the source leave
(`records_after`).

The table of the database holds the same records by the invariant of its histories, as numbers,
owners and texts.  Both stores therefore answer alike for every scope (`load_eq_load_after`).
-/

namespace Reporting

/-- An operation on a built-in source that both stores have. -/
inductive StoreOperation where
  | insert (b : BuiltIn) (record : Json)
  | insertMany (b : BuiltIn) (records : List Json)
  | clear (b : BuiltIn)

namespace StoreOperation

/-- The operation as a call to the database. -/
def call : StoreOperation → StoreCall
  | insert b record => .insertRecord (.builtIn b) record
  | insertMany b records => .insertRecords (.builtIn b) records
  | clear b => .clear (.builtIn b)

/-- The operation on an in-memory store. -/
def onMemory (store : MemoryStore) : StoreOperation → MemoryStore
  | insert b record => store.insert (.builtIn b) record
  | insertMany b records => store.extend (.builtIn b) records
  | clear b => store.clear (.builtIn b)

/-- The records that an operation adds. -/
def records (operation : StoreOperation) : List Json :=
  operation.call.records

/-- Every operation succeeds on a database. -/
theorem exists_run_call (operation : StoreOperation) (db : Database) :
    ∃ after, operation.call.run db = .ok after := by
  cases operation with
  | insert b record => exact ⟨_, rfl⟩
  | insertMany b records => exact ⟨_, rfl⟩
  | clear b => exact ⟨_, rfl⟩

end StoreOperation

namespace MemoryStore

/-- The in-memory store after some operations. -/
def after (operations : List StoreOperation) : MemoryStore :=
  operations.foldl StoreOperation.onMemory empty

/-- No source holds more records than a list in memory can have, whose bytes are counted by a signed
word of 64 bits. -/
def Fits (store : MemoryStore) : Prop :=
  ∀ b, store.count (.builtIn b) ≤ Table.capacity

/-- Adding records changes those of one source. -/
theorem records_extend (store : MemoryStore) (source other : Source) (records : List Json) :
    (store.extend source records).records other
      = if source = other then store.records other ++ records else store.records other := by
  unfold extend MemoryStore.records
  rw [Keyed.find?_insert]
  by_cases h : other = source
  · simp [h]
  · simp [h, Ne.symm h]

/-- Removing records changes those of one source. -/
theorem records_clear (store : MemoryStore) (source other : Source) :
    (store.clear source).records other
      = if source = other then [] else store.records other := by
  unfold clear MemoryStore.records
  by_cases h : source = other
  · simp [h]
  · rw [Keyed.find?_erase_of_ne (Ne.symm h), if_neg h]

/-- One operation does to the records of a source what its call does to what the source holds. -/
theorem records_onMemory (store : MemoryStore) (operation : StoreOperation) (b : BuiltIn) :
    (operation.onMemory store).records (.builtIn b)
      = if operation.call.source = .builtIn b then
          if operation.call.isClear then []
          else store.records (.builtIn b) ++ operation.call.records
        else store.records (.builtIn b) := by
  cases operation with
  | insert target record => exact records_extend store (.builtIn target) (.builtIn b) [record]
  | insertMany target records => exact records_extend store (.builtIn target) (.builtIn b) records
  | clear target => exact records_clear store (.builtIn target) (.builtIn b)

/-- **The in-memory store holds what the events leave.** -/
theorem records_after (operations : List StoreOperation) (b : BuiltIn) :
    (after operations).records (.builtIn b) = heldBy b (operations.map StoreOperation.call) := by
  induction operations using List.reverseRecOn with
  | nil => rfl
  | append_singleton earlier operation ih =>
      have hafter : after (earlier ++ [operation]) = operation.onMemory (after earlier) := by
        simp [after]
      rw [hafter, records_onMemory, ih, List.map_append, List.map_singleton, heldBy_concat]

end MemoryStore

/-- All operations of a list succeed on a database. -/
theorem exists_runAll_map_call (operations : List StoreOperation) (db : Database) :
    ∃ after, db.runAll (operations.map StoreOperation.call) = .ok after := by
  induction operations generalizing db with
  | nil => exact ⟨db, rfl⟩
  | cons operation rest ih =>
      obtain ⟨next, hnext⟩ := operation.exists_run_call db
      obtain ⟨after, hafter⟩ := ih next
      exact ⟨after, by simp [Database.runAll, hnext, hafter]⟩

/-- Records whose texts read back are read back. -/
theorem filterMap_read_text {records : List Json} (h : ∀ record ∈ records, record.ReadsBack) :
    records.filterMap (fun record => Json.read? record.text) = records := by
  induction records with
  | nil => rfl
  | cons record rest ih =>
      have hfirst : Json.read? record.text = some record := h record List.mem_cons_self
      have hrest := ih fun found hfound => h found (List.mem_cons_of_mem _ hfound)
      rw [List.filterMap_cons, hfirst, hrest]

/-- What a source holds was added by some call. -/
theorem exists_mem_of_mem_heldBy {b : BuiltIn} {calls : List StoreCall} {record : Json}
    (h : record ∈ heldBy b calls) : ∃ call ∈ calls, record ∈ call.records := by
  induction calls using List.reverseRecOn with
  | nil => cases h
  | append_singleton earlier call ih =>
      rw [heldBy_concat] at h
      have hcases : record ∈ heldBy b earlier ∨ record ∈ call.records := by
        by_cases hsource : call.source = .builtIn b
        · by_cases hclear : call.isClear = true
          · rw [if_pos hsource, if_pos hclear] at h
            cases h
          · rw [if_pos hsource, if_neg hclear] at h
            exact List.mem_append.mp h
        · rw [if_neg hsource] at h
          exact Or.inl h
      rcases hcases with hearlier | hadded
      · obtain ⟨found, hfound, hrecord⟩ := ih hearlier
        exact ⟨found, List.mem_append_left _ hfound, hrecord⟩
      · exact ⟨call, List.mem_append_right _ List.mem_cons_self, hadded⟩

/-- **Refinement.**  Take any operations on records whose texts read back, none of which takes an
in-memory store beyond what a list in memory can hold.  After every part of them from the start,
the database and the in-memory store hold the same number of records of each source, and show the
same records in the same order to every administrator and every agent. -/
theorem load_eq_load_after (operations : List StoreOperation)
    (hback : ∀ operation ∈ operations, ∀ record ∈ operation.records, record.ReadsBack)
    (hfits : ∀ earlier, earlier <+: operations → (MemoryStore.after earlier).Fits)
    {done : List StoreOperation} (hdone : done <+: operations) :
    ∃ db, Database.empty.runAll (done.map StoreOperation.call) = .ok db ∧
      ∀ b, db.count (.builtIn b) = (MemoryStore.after done).count (.builtIn b) ∧
        ∀ scope, RecordStore.load db (.builtIn b) scope
          = RecordStore.load (MemoryStore.after done) (.builtIn b) scope := by
  obtain ⟨db, hrun⟩ := exists_runAll_map_call done .empty
  have hroom : StaysNumbered (done.map StoreOperation.call) := by
    intro earlier hearlier b
    obtain ⟨first, hfirst, rfl⟩ := List.prefix_map_iff.mp hearlier
    rw [← MemoryStore.records_after]
    exact hfits first (hfirst.trans hdone) b
  have hheld : ∀ b, ∀ record ∈ heldBy b (done.map StoreOperation.call), record.ReadsBack := by
    intro b record hrecord
    obtain ⟨call, hcall, hadded⟩ := exists_mem_of_mem_heldBy hrecord
    obtain ⟨operation, hoperation, rfl⟩ := List.mem_map.mp hcall
    exact hback operation (hdone.subset hoperation) record hadded
  refine ⟨db, hrun, fun b => ⟨?_, fun scope => ?_⟩⟩
  · show (db.table b).length = ((MemoryStore.after done).records (.builtIn b)).length
    rw [table_eq_ofRecords hrun hroom b, Table.length_ofRecords, MemoryStore.records_after]
  · show _ = ((MemoryStore.after done).records (.builtIn b)).filter _
    rw [load_eq_reread hrun hroom b scope, MemoryStore.records_after]
    exact filterMap_read_text fun record hrecord => hheld b record (List.mem_filter.mp hrecord).1

/-- The refinement at a batch, a removal and a record that comes after it. -/
theorem load_eq_load_after_clear :
    let operations : List StoreOperation :=
      [.insertMany .deals [.obj [(ownerKey, .str "u")], .str "no object"], .clear .deals,
        .insert .deals (.obj [(ownerKey, .str "u")])]
    (∀ operation ∈ operations, ∀ record ∈ operation.records, record.ReadsBack) ∧
      (∀ earlier, earlier <+: operations → (MemoryStore.after earlier).Fits) ∧
      ∃ db, Database.empty.runAll (operations.map StoreOperation.call) = .ok db ∧
        ∀ b, db.count (.builtIn b) = (MemoryStore.after operations).count (.builtIn b) ∧
          ∀ scope, RecordStore.load db (.builtIn b) scope
            = RecordStore.load (MemoryStore.after operations) (.builtIn b) scope := by
  intro operations
  have hfirst : (Json.obj [(ownerKey, .str "u")]).ReadsBack := by unfold Json.ReadsBack; cbv
  have hsecond : (Json.str "no object").ReadsBack := by unfold Json.ReadsBack; cbv
  have hback : ∀ operation ∈ operations, ∀ record ∈ operation.records, record.ReadsBack := by
    simp [operations, StoreOperation.records, StoreOperation.call, StoreCall.records, hfirst,
      hsecond]
  have hfits : ∀ earlier, earlier <+: operations → (MemoryStore.after earlier).Fits := by
    intro earlier hearlier b
    simp only [operations, List.prefix_cons_iff, List.prefix_nil] at hearlier
    rcases hearlier with rfl | ⟨_, rfl, rfl | ⟨_, rfl, rfl | ⟨_, rfl, rfl⟩⟩⟩
    all_goals cases b <;> decide
  exact ⟨hback, hfits, load_eq_load_after operations hback hfits List.prefix_rfl⟩

end Reporting
