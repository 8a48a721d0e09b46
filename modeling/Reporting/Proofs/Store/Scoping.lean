import Reporting.Proofs.Filter.Matching
import Reporting.Proofs.Record.Path
import Reporting.Proofs.StableSort
import Reporting.Proofs.Store.Fetch
import Reporting.Proofs.Store.History
import Reporting.Report
import Reporting.Store.Memory

/-!
# Scopes as filters

Whether an agent sees a record is decided in two places: the in-memory store looks at the record,
and the database at the owner that was written into the row.  Both come to the same: an agent is
shown, of what an administrator is shown, the records that name the agent as their owner
(`RespectsScopes`).  The in-memory store does so whatever it holds; the database does so if its
rows are `Faithful`, which every call keeps.

A filter on the owner asks the same question a third time, of the tagged record.  Hence the report
of an agent is the report of an administrator with one more filter
(`rows_agent_eq_rows_filter_owner`).
-/

namespace Reporting

/-- The rule that a record has to name a user as its owner. -/
def FilterRule.ownerIs (id : String) (combination : LogicalOperator) (user : String) :
    FilterRule :=
  ⟨id, ownerKey, .text, .oneOf, .arr [.str user], combination⟩

/-- The key of the owner is a path of one segment. -/
theorem Json.resolve?_ownerKey (record : Json) : record.resolve? ownerKey = record.get? ownerKey :=
  resolve?_eq_get? (by decide) (by decide) record

/-- **The filter and the scope agree on every record**, whatever stands where its owner should:
nothing, `null`, a number, an array or an object is no owner for either. -/
theorem FilterRule.accepts_ownerIs (id : String) (combination : LogicalOperator) (user : String)
    (record : Json) :
    (ownerIs id combination user).accepts record
      = (Scope.agent user).canSee record.owner? := by
  unfold accepts Json.resolvePresent? Json.owner? Scope.canSee
  simp only [ownerIs, Json.resolve?_ownerKey, Scope.agent]
  cases hvalue : record.get? ownerKey with
  | none => rfl
  | some value =>
      cases value with
      | null => rfl
      | _ => simp [Option.filter, Json.isNull, acceptsValue, Json.strictEq_str]

namespace RecordStore

/-- A store shows an agent, out of what it shows an administrator, the records that the agent may
see. -/
def RespectsScopes {σ : Type} [RecordStore σ] (store : σ) : Prop :=
  ∀ b user admin, load store (.builtIn b) (.agent user)
    = (load store (.builtIn b) (.admin admin)).filter fun record =>
        (Scope.agent user).canSee record.owner?

/-- In such a store the scope of an agent is a filter on the owner. -/
theorem RespectsScopes.rows_agent {σ : Type} [RecordStore σ] {store : σ}
    (h : RespectsScopes store) (config : Configuration) (settings : FormatSettings)
    (id : String) (combination : LogicalOperator) (user admin : String) :
    config.rows settings store (.agent user)
      = (config.filter (.ownerIs id combination user)).rows settings store (.admin admin) := by
  have hfetch : fetchAll store config.dataSources (.agent user)
      = (fetchAll store config.dataSources (.admin admin)).filter
          (FilterRule.ownerIs id combination user).accepts := by
    simp only [funext (FilterRule.accepts_ownerIs id combination user)]
    refine fetchAll_filter (fun b => h b user admin) (fun source record tagged htag => ?_) _
    rw [Json.owner?_of_tag htag]
  exact (Configuration.rows_filter_of_fetchAll hfetch.symm settings).symm

end RecordStore

/-- The in-memory store respects scopes, whatever it holds. -/
theorem MemoryStore.respectsScopes (store : MemoryStore) : RecordStore.RespectsScopes store := by
  intro b user admin
  have hadmin : RecordStore.load store (.builtIn b) (.admin admin)
      = store.records (.builtIn b) := List.filter_eq_self.mpr fun _ _ => rfl
  rw [hadmin]
  rfl

/-- A row is faithful if the record that is read back from its text has the owner of the row. -/
def StoredRecord.Faithful (row : StoredRecord) : Prop :=
  ∀ record, Json.read? row.body = some record → record.owner? = row.owner

namespace Table

/-- The rows that are written for records whose texts read back are faithful. -/
theorem faithful_of_mem_rowsAfter {seq : Int} {records : List Json}
    (h : ∀ record ∈ records, record.ReadsBack) :
    ∀ row ∈ rowsAfter seq records, row.Faithful := by
  induction records generalizing seq with
  | nil => simp [rowsAfter]
  | cons record rest ih =>
      intro row hrow
      rcases List.mem_cons.mp hrow with rfl | hrest
      · intro found hfound
        have hback : Json.read? record.text = some record := h record List.mem_cons_self
        obtain rfl := Option.some.inj (hback.symm.trans hfound)
        rfl
      · exact ih (fun found hfound => h found (List.mem_cons_of_mem _ hfound)) row hrest

/-- In a table of faithful rows, choosing the rows of an owner is choosing the records of the
owner. -/
theorem load_agent {table : Table} (h : ∀ row ∈ table, row.Faithful) (user admin : String) :
    table.load (.agent user)
      = (table.load (.admin admin)).filter fun record =>
          (Scope.agent user).canSee record.owner? := by
  have hsort : (table.ownedBy user).bySeq
      = table.bySeq.filter fun row => row.owner == some user := by
    refine StableSort.mergeSort_filter (fun a b c hab hbc => ?_) (fun a b => ?_) table _
    · simp only [decide_eq_true_eq] at hab hbc ⊢
      omega
    · simp only [Bool.or_eq_true, decide_eq_true_eq]
      omega
  show (table.ownedBy user).bySeq.filterMap _ = (table.bySeq.filterMap _).filter _
  rw [hsort]
  refine filterMap_filter_of_agree fun row hrow record hrecord => ?_
  have hmem : row ∈ table := List.mem_mergeSort.mp hrow
  rw [h row hmem record hrecord]
  rfl

end Table

namespace Database

/-- After a history of records whose texts read back every row is faithful. -/
theorem faithful_of_runAll {calls : List StoreCall} {db : Database}
    (hrun : empty.runAll calls = .ok db)
    (hback : ∀ call ∈ calls, ∀ record ∈ call.records, record.ReadsBack) (b : BuiltIn) :
    ∀ row ∈ db.table b, row.Faithful := by
  refine runAll_induction
    (motive := fun calls db => (∀ call ∈ calls, ∀ record ∈ call.records, record.ReadsBack) →
      ∀ b, ∀ row ∈ db.table b, row.Faithful) ?_ ?_ hrun hback b
  · intro _ b row hrow
    cases b <;> cases hrow
  · intro calls db call after ih hcall hback b
    have hbefore := ih (fun c hc => hback c (List.mem_append_left _ hc)) b
    have hnew := hback call (List.mem_append_right _ List.mem_cons_self)
    obtain ⟨target, -, rfl⟩ := StoreCall.eq_withTable_of_run hcall
    by_cases hb : b = target
    · subst hb
      rw [table_withTable_self]
      by_cases hclear : call.isClear = true
      · simp [hclear]
      · intro row hrow
        rw [if_neg hclear] at hrow
        rcases List.mem_append.mp hrow with hold | hadded
        · exact hbefore row hold
        · exact Table.faithful_of_mem_rowsAfter hnew row hadded
    · rw [table_withTable_of_ne _ _ hb]
      exact hbefore

/-- The database respects scopes after a history of records whose texts read back. -/
theorem respectsScopes_of_runAll {calls : List StoreCall} {db : Database}
    (hrun : empty.runAll calls = .ok db)
    (hback : ∀ call ∈ calls, ∀ record ∈ call.records, record.ReadsBack) :
    RecordStore.RespectsScopes db :=
  fun b user admin => Table.load_agent (faithful_of_runAll hrun hback b) user admin

end Database

/-- **An agent's report is a filtered administrator's report.**  For every configuration, the rows
that an agent gets are the rows that an administrator gets when one more filter asks that the agent
be the owner: from every in-memory store, and from every database that was filled and cleared by
calls, whenever the texts of the records read back. -/
theorem rows_agent_eq_rows_filter_owner (config : Configuration) (settings : FormatSettings)
    (id : String) (combination : LogicalOperator) (user admin : String) :
    (∀ store : MemoryStore,
      config.rows settings store (.agent user)
        = (config.filter (.ownerIs id combination user)).rows settings store (.admin admin)) ∧
    ∀ (calls : List StoreCall) (db : Database), Database.empty.runAll calls = .ok db →
      (∀ call ∈ calls, ∀ record ∈ call.records, record.ReadsBack) →
      config.rows settings db (.agent user)
        = (config.filter (.ownerIs id combination user)).rows settings db (.admin admin) := by
  constructor
  · intro store
    exact store.respectsScopes.rows_agent config settings id combination user admin
  · intro calls db hrun hback
    exact (Database.respectsScopes_of_runAll hrun hback).rows_agent config settings id
      combination user admin

/-- The theorem at a deal of the agent and one whose owner is `null`. -/
theorem rows_agent_eq_rows_filter_owner_two_deals :
    let calls : List StoreCall :=
      [.insertRecords (.builtIn .deals) [.obj [(ownerKey, .str "u")], .obj [(ownerKey, .null)]]]
    let db : Database :=
      ⟨[⟨1, some "u", "\x7b\"agentId\":\"u\"\x7d"⟩, ⟨2, none, "\x7b\"agentId\":null\x7d"⟩],
        [], [], []⟩
    let config := Configuration.make [.builtIn .deals]
      [⟨"owner", .builtIn .deals, ownerKey, "Owner", .text⟩]
    Database.empty.runAll calls = .ok db ∧
      (∀ call ∈ calls, ∀ record ∈ call.records, record.ReadsBack) ∧
      config.rows .default db (.agent "u")
        = (config.filter (.ownerIs "f" .and "u")).rows .default db (.admin "a") := by
  intro calls db config
  have hrun : Database.empty.runAll calls = .ok db := rfl
  have hfirst : (Json.obj [(ownerKey, .str "u")]).ReadsBack := by unfold Json.ReadsBack; cbv
  have hsecond : (Json.obj [(ownerKey, .null)]).ReadsBack := by unfold Json.ReadsBack; cbv
  have hback : ∀ call ∈ calls, ∀ record ∈ call.records, record.ReadsBack := by
    simp [calls, StoreCall.records, hfirst, hsecond]
  exact ⟨hrun, hback,
    (rows_agent_eq_rows_filter_owner config .default "f" .and "u" "a").2 calls db hrun hback⟩

end Reporting
