import Mathlib.Data.List.Permutation
import Reporting.Proofs.Store.Numbering
import Reporting.Store.Import

/-!
# Histories of a database

The tables of a database change by four kinds of calls.  `StoreCall.eq_withTable_of_run` says once
what a call that succeeds can do: it replaces the table of one built-in source, by the empty table
or by the same table with some records added.

The calls of a history that concern one source make a sequence of `TableEvent`s, in which batches
and imports are dissolved into single records.  What a source holds after a history is told by its
events alone (`heldBy`), and `table_eq_ofRecords` is the invariant that ties the table to it: the
row of each record that is held has the record's place as its number, its owner and its text.
-/

namespace Reporting

/-- The text of a record reads back as the record. -/
def Json.ReadsBack (record : Json) : Prop :=
  Json.read? record.text = some record

/-- A call that changes the tables of a database. -/
inductive StoreCall where
  | insertRecord (source : Source) (record : Json)
  | insertRecords (source : Source) (records : List Json)
  | importFile (source : Source) (file : Option FileContent)
  | clear (source : Source)

/-- Something that happens to the records of one source. -/
inductive TableEvent where
  | added (record : Json)
  | cleared

/-- Importing a file is adding the records on its lines. -/
theorem Database.importFile_some (db : Database) (source : Source) (content : FileContent) :
    db.importFile source (some content)
      = match content.records with
        | .ok records => (db.insertRecords source records).map fun db => (records.length, db)
        | .error reason => .error reason := by
  unfold importFile
  simp only [bind, Except.bind]
  cases content.records with
  | error reason => rfl
  | ok records => cases hrun : db.insertRecords source records <;> simp [Except.map]

namespace StoreCall

/-- What a call makes of a database. -/
def run (db : Database) : StoreCall → Result Database
  | insertRecord source record => db.insertRecord source record
  | insertRecords source records => db.insertRecords source records
  | importFile source file => (db.importFile source file).map Prod.snd
  | clear source => db.clear source

/-- The source that a call is about. -/
def source : StoreCall → Source
  | insertRecord source _ => source
  | insertRecords source _ => source
  | importFile source _ => source
  | clear source => source

/-- The records that a call adds.  An unreadable file has none. -/
def records : StoreCall → List Json
  | insertRecord _ record => [record]
  | insertRecords _ records => records
  | importFile _ (some content) => content.records.toOption.getD []
  | importFile _ none => []
  | clear _ => []

/-- Whether a call removes records. -/
def isClear : StoreCall → Bool
  | clear _ => true
  | _ => false

/-- What happens to the records of a source by a call. -/
def events (b : BuiltIn) (call : StoreCall) : List TableEvent :=
  if call.source = .builtIn b then
    if call.isClear then [.cleared] else call.records.map .added
  else []

/-- **What a call can do.**  A call that succeeds is about a built-in source, and it replaces the
table of that source: by the empty one, or by the same with the call's records added. -/
theorem eq_withTable_of_run {call : StoreCall} {db after : Database}
    (h : call.run db = .ok after) :
    ∃ b, call.source = .builtIn b ∧
      after = db.withTable (if call.isClear then [] else (db.table b).append call.records) b := by
  cases call with
  | insertRecord source record =>
      cases source with
      | builtIn b => exact ⟨b, rfl, (Except.ok.inj h).symm⟩
      | other name unknown => cases h
  | insertRecords source records =>
      cases source with
      | builtIn b => exact ⟨b, rfl, (Except.ok.inj h).symm⟩
      | other name unknown => cases h
  | importFile source file =>
      cases file with
      | none => cases h
      | some content =>
          rw [run, Database.importFile_some] at h
          cases hrecords : content.records with
          | error reason => rw [hrecords] at h; cases h
          | ok found =>
              rw [hrecords] at h
              cases source with
              | builtIn b =>
                  refine ⟨b, rfl, ?_⟩
                  simp only [isClear, records, hrecords]
                  exact (Except.ok.inj h).symm
              | other name unknown => cases h
  | clear source =>
      cases source with
      | builtIn b => exact ⟨b, rfl, (Except.ok.inj h).symm⟩
      | other name unknown => cases h

end StoreCall

namespace TableEvent

/-- The records that are held after an event. -/
def replay (held : List Json) : TableEvent → List Json
  | added record => held ++ [record]
  | cleared => []

/-- Records that are added one by one are all held in the end. -/
theorem foldl_replay_added (held records : List Json) :
    (records.map added).foldl replay held = held ++ records := by
  induction records generalizing held with
  | nil => simp
  | cons record rest ih => simp [replay, ih]

end TableEvent

/-- What the events of a call make of the records that a source holds. -/
theorem StoreCall.foldl_events (b : BuiltIn) (call : StoreCall) (held : List Json) :
    (call.events b).foldl TableEvent.replay held
      = if call.source = .builtIn b then if call.isClear then [] else held ++ call.records
        else held := by
  unfold events
  split
  · split
    · rfl
    · exact TableEvent.foldl_replay_added held call.records
  · rfl

/-- What happens to the records of a source by some calls. -/
def eventsOf (b : BuiltIn) (calls : List StoreCall) : List TableEvent :=
  calls.flatMap (StoreCall.events b)

/-- The records that a source holds after some calls from empty tables on. -/
def heldBy (b : BuiltIn) (calls : List StoreCall) : List Json :=
  (eventsOf b calls).foldl TableEvent.replay []

/-- No table ever outgrows the numbers of its rows, which are signed words of 64 bits.  No disk
holds a table that does; its numbers would wrap, and its rows would come out in another order. -/
def StaysNumbered (calls : List StoreCall) : Prop :=
  ∀ earlier, earlier <+: calls → ∀ b, (heldBy b earlier).length ≤ Table.capacity

/-- One more call. -/
theorem heldBy_concat (b : BuiltIn) (calls : List StoreCall) (call : StoreCall) :
    heldBy b (calls ++ [call])
      = if call.source = .builtIn b then
          if call.isClear then [] else heldBy b calls ++ call.records
        else heldBy b calls := by
  unfold heldBy eventsOf
  rw [List.flatMap_append, List.foldl_append, List.flatMap_singleton]
  exact StoreCall.foldl_events b call _

namespace Database

/-- The tables after some calls, all of which have to succeed. -/
def runAll (db : Database) : List StoreCall → Result Database
  | [] => .ok db
  | call :: rest =>
    match call.run db with
    | .ok next => next.runAll rest
    | .error reason => .error reason

/-- What holds of the empty tables and is kept by every call that succeeds holds after every
history of such calls. -/
theorem runAll_induction {motive : List StoreCall → Database → Prop} (start : motive [] empty)
    (next : ∀ {calls db call after}, motive calls db → call.run db = .ok after →
      motive (calls ++ [call]) after)
    {calls : List StoreCall} {db : Database} (h : empty.runAll calls = .ok db) :
    motive calls db := by
  have go : ∀ (rest done : List StoreCall) (reached : Database), motive done reached →
      reached.runAll rest = .ok db → motive (done ++ rest) db := by
    intro rest
    induction rest with
    | nil =>
        intro done reached hdone hrun
        cases hrun
        simpa using hdone
    | cons call rest ih =>
        intro done reached hdone hrun
        cases hcall : call.run reached with
        | error reason => simp [runAll, hcall] at hrun
        | ok after =>
            simp only [runAll, hcall] at hrun
            simpa using ih (done ++ [call]) after (next hdone hcall) hrun
  simpa using go calls [] empty start h

end Database

/-- A history that stays numbered has done so before its last call. -/
theorem StaysNumbered.before {calls : List StoreCall} {call : StoreCall}
    (h : StaysNumbered (calls ++ [call])) : StaysNumbered calls :=
  fun earlier hearlier => h earlier (hearlier.trans (List.prefix_append calls [call]))

/-- **Tables tell histories.**  After a history of calls that stays numbered, each table is the
numbered table of the records that its source holds. -/
theorem table_eq_ofRecords {calls : List StoreCall} {db : Database}
    (hrun : Database.empty.runAll calls = .ok db) (hroom : StaysNumbered calls) (b : BuiltIn) :
    db.table b = Table.ofRecords (heldBy b calls) := by
  refine Database.runAll_induction
    (motive := fun calls db => StaysNumbered calls →
      ∀ b, db.table b = Table.ofRecords (heldBy b calls)) ?_ ?_ hrun hroom b
  · intro _ b
    cases b <;> rfl
  · intro calls db call after ih hcall hroom b
    have htable := ih hroom.before b
    have hlen := hroom _ List.prefix_rfl b
    obtain ⟨target, hsource, rfl⟩ := StoreCall.eq_withTable_of_run hcall
    rw [heldBy_concat, hsource] at hlen ⊢
    by_cases hb : b = target
    · subst hb
      rw [if_pos rfl] at hlen ⊢
      rw [Database.table_withTable_self, htable]
      by_cases hclear : call.isClear = true
      · rw [if_pos hclear, if_pos hclear]
        rfl
      · rw [if_neg hclear] at hlen
        rw [if_neg hclear, if_neg hclear]
        exact Table.append_ofRecords hlen
    · have hne : Source.builtIn target ≠ .builtIn b := fun h => hb (Source.builtIn.inj h).symm
      rw [Database.table_withTable_of_ne _ _ hb, if_neg hne, htable]

/-- What a scope gets from a source after a history: of the records that the source holds those
that the scope sees, as far as their texts can be read back. -/
theorem load_eq_reread {calls : List StoreCall} {db : Database}
    (hrun : Database.empty.runAll calls = .ok db) (hroom : StaysNumbered calls) (b : BuiltIn)
    (scope : Scope) :
    RecordStore.load db (.builtIn b) scope
      = ((heldBy b calls).filter fun record => scope.canSee record.owner?).filterMap
          fun record => Json.read? record.text := by
  have htable := table_eq_ofRecords hrun hroom b
  show (db.table b).load scope = _
  rw [htable, Table.load_ofRecords]

end Reporting
