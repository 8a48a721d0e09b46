import Reporting.Engine.Call
import Reporting.Proofs.Engine.Generate
import Reporting.Proofs.Store.Import

/-!
# Failed calls leave no trace

A program that fails may have written rows before.  The programs of calls do not: whatever can fail
in them comes before their first write, so each call takes effect as a whole or not at all
(`StoreProgram.run_insertRecords`, `StoreProgram.run_importFile`, `Engine.perform_eq_settle`).

`EngineCall.Fails` lists what makes a call fail, and `Engine.perform_of_error` says what follows from
a failure: the tables are what they were, and all later calls go as if the failed one had not been
made.
-/

namespace Reporting

namespace Database

theorem withTable_withTable (db : Database) (rows more : Table) (b : BuiltIn) :
    (db.withTable rows b).withTable more b = db.withTable more b := by
  cases b <;> rfl

theorem withTable_table (db : Database) (b : BuiltIn) : db.withTable (db.table b) b = db := by
  cases b <;> rfl

end Database

namespace StoreProgram

variable {α β : Type}

/-- What a program comes to that takes effect as a whole or not at all: a failure has the tables as
they were. -/
def settle (db : Database) : Result (α × Database) → EStateM.Result ReportError Database α
  | .ok (value, after) => .ok value after
  | .error reason => .error reason db

theorem run_bind_ok {program : StoreProgram α} {next : α → StoreProgram β} {db after : Database}
    {value : α} (h : program.run db = .ok value after) :
    (program >>= next).run db = (next value).run after := by
  show EStateM.bind program next db = _
  unfold EStateM.bind
  rw [show program db = .ok value after from h]
  rfl

theorem run_bind_error {program : StoreProgram α} {next : α → StoreProgram β}
    {db after : Database} {reason : ReportError} (h : program.run db = .error reason after) :
    (program >>= next).run db = .error reason after := by
  show EStateM.bind program next db = _
  unfold EStateM.bind
  rw [show program db = .error reason after from h]

/-- A program that settles still does so with its answer put in other words. -/
theorem run_bind_pure {program : StoreProgram α} {db : Database} {outcome : Result (α × Database)}
    (h : program.run db = settle db outcome) (f : α → β) :
    (program >>= fun value => pure (f value)).run db
      = settle db (outcome.map fun done => (f done.1, done.2)) := by
  cases outcome with
  | ok done => exact run_bind_ok h
  | error reason => exact run_bind_error h

/-- What has nothing to do with the tables leaves them as they are. -/
theorem run_ofResult (result : Result α) (db : Database) :
    (ofResult result).run db = settle db (result.map fun value => (value, db)) := by
  cases result <;> rfl

/-- Writing records row by row adds all their rows. -/
theorem run_writeRecords (b : BuiltIn) (seq : Int) (records : List Json) (db : Database) :
    (writeRecords b seq records).run db
      = .ok () (db.withTable (db.table b ++ Table.rowsAfter seq records) b) := by
  -- On the records, for any tables: a row is written behind those that the rows before it left.
  induction records generalizing seq db with
  | nil =>
      have hsame : db.withTable (db.table b ++ []) b = db := by
        rw [List.append_nil, Database.withTable_table]
      show EStateM.Result.ok () db = _
      rw [Table.rowsAfter, hsame]
  | cons record rest ih =>
      let row : StoredRecord := ⟨Table.wrapped (seq + 1), record.owner?, record.text⟩
      have hrow : (writeRow b row).run db = .ok () (db.withTable (db.table b ++ [row]) b) := rfl
      unfold writeRecords
      rw [run_bind_ok hrow, ih, Database.table_withTable_self, Database.withTable_withTable,
        List.append_assoc]
      rfl

/-- **Adding records takes effect as a whole or not at all,** although it writes row by row. -/
theorem run_insertRecords (source : Source) (records : List Json) (db : Database) :
    (insertRecords source records).run db
      = settle db ((db.insertRecords source records).map fun after => (records.length, after)) := by
  cases source with
  | other name unknown => rfl
  | builtIn b =>
      have hwrite := run_writeRecords b (db.table b).maxSeq records db
      unfold insertRecords
      exact run_bind_ok hwrite

theorem run_insertRecord (source : Source) (record : Json) (db : Database) :
    (insertRecord source record).run db
      = settle db ((db.insertRecord source record).map fun after => ((), after)) := by
  have hrun := run_bind_pure (run_insertRecords source [record] db) fun _ => ()
  unfold insertRecord
  rw [hrun]
  unfold Database.insertRecord
  cases db.insertRecords source [record] <;> rfl

/-- **Importing a file takes effect as a whole or not at all**: nothing is written before all of
the file is read. -/
theorem run_importFile (source : Source) (file : Option FileContent) (db : Database) :
    (importFile source file).run db = settle db (db.importFile source file) := by
  cases file with
  | none => rfl
  | some content =>
      rw [Database.importFile_some]
      have hopen : (importFile source (some content)).run db
          = (ofResult content.records >>= insertRecords source).run db := rfl
      rw [hopen]
      cases content.records with
      | error reason => rfl
      | ok records =>
          have hread : (ofResult (.ok records)).run db = .ok records db := rfl
          rw [run_bind_ok hread]
          exact run_insertRecords source records db

theorem run_clear (source : Source) (db : Database) :
    (clear source).run db = settle db ((db.clear source).map fun after => ((), after)) := by
  cases source <;> rfl

end StoreProgram

namespace EngineCall

/-- How a call ends that takes effect as a whole or not at all. -/
def outcome (engine : Engine) : EngineCall → Result (EngineAnswer × Engine)
  | insertRecord source record =>
    (engine.insertRecord source record).map fun after => (.done, after)
  | insertRecords source records =>
    (engine.insertRecords source records).map fun after => (.number records.length, after)
  | importFile source file =>
    (engine.importFile source file).map fun done => (.number done.1, done.2)
  | clear source => (engine.clear source).map fun after => (.done, after)
  | count source => .ok (.number (engine.database.count source), engine)
  | load source scope => .ok (.records (RecordStore.load engine.database source scope), engine)
  | generate config scope stamp =>
    (engine.generate config scope stamp).map fun report => (.report report, engine)
  | generateUnchecked config scope stamp =>
    (engine.generateUnchecked config scope stamp).map fun report => (.report report, engine)

end EngineCall

namespace Engine

/-- An engine after a call that takes effect as a whole or not at all. -/
def settle (engine : Engine) : Result (EngineAnswer × Engine) → Engine × Result EngineAnswer
  | .ok (answer, after) => (after, .ok answer)
  | .error reason => (engine, .error reason)

/-- A call settles if it puts the answer of a program in other words that settles. -/
theorem perform_of_run {α : Type} (engine : Engine) {call : EngineCall}
    {program : StoreProgram α} {answer : α → EngineAnswer} {outcome : Result (α × Database)}
    (hcall : (call.program engine).run engine.database
      = (program >>= fun value => pure (answer value)).run engine.database)
    (hrun : program.run engine.database = StoreProgram.settle engine.database outcome) :
    engine.perform call
      = engine.settle (outcome.map fun done => (answer done.1, engine.withDatabase done.2)) := by
  unfold perform
  rw [hcall, StoreProgram.run_bind_pure hrun]
  cases outcome <;> rfl

theorem perform_generateUnchecked (engine : Engine) (config : Configuration) (scope : Scope)
    (stamp : Stamp) :
    engine.perform (.generateUnchecked config scope stamp)
      = engine.settle ((engine.generateUnchecked config scope stamp).map
          fun report => (.report report, engine)) := by
  have hrun := StoreProgram.run_ofResult (engine.generateUnchecked config scope stamp)
    engine.database
  rw [engine.perform_of_run rfl hrun]
  cases engine.generateUnchecked config scope stamp <;> rfl

/-- A configuration that is valid makes its report as without validation. -/
theorem perform_generate_of_valid (engine : Engine) {config : Configuration} (scope : Scope)
    (stamp : Stamp) (h : (engine.validate config).toResult = .ok ()) :
    engine.perform (.generate config scope stamp)
      = engine.perform (.generateUnchecked config scope stamp) := by
  have hvalid : (StoreProgram.ofResult (engine.validate config).toResult).run engine.database
      = .ok () engine.database := by
    rw [h]
    rfl
  have hrun : ((EngineCall.generate config scope stamp).program engine).run engine.database
      = ((EngineCall.generateUnchecked config scope stamp).program engine).run engine.database :=
    StoreProgram.run_bind_ok hvalid
  unfold perform
  rw [hrun]

theorem perform_generate_of_invalid (engine : Engine) {config : Configuration} (scope : Scope)
    (stamp : Stamp) {reason : ReportError} (h : (engine.validate config).toResult = .error reason) :
    engine.perform (.generate config scope stamp) = (engine, .error reason) := by
  have hinvalid : (StoreProgram.ofResult (engine.validate config).toResult).run engine.database
      = .error reason engine.database := by
    rw [h]
    rfl
  have hrun : ((EngineCall.generate config scope stamp).program engine).run engine.database
      = .error reason engine.database := StoreProgram.run_bind_error hinvalid
  unfold perform
  rw [hrun]
  rfl

/-- **Calls are all or nothing.**  Running the program of a call step by step is the operation of the
engine, and where that fails the engine stays as it is. -/
theorem perform_eq_settle (engine : Engine) (call : EngineCall) :
    engine.perform call = engine.settle (call.outcome engine) := by
  cases call with
  | insertRecord source record =>
      have hrun := StoreProgram.run_insertRecord source record engine.database
      rw [engine.perform_of_run rfl hrun]
      simp only [EngineCall.outcome, insertRecord]
      cases engine.database.insertRecord source record <;> rfl
  | insertRecords source records =>
      have hrun := StoreProgram.run_insertRecords source records engine.database
      rw [engine.perform_of_run rfl hrun]
      simp only [EngineCall.outcome, insertRecords]
      cases engine.database.insertRecords source records <;> rfl
  | importFile source file =>
      have hrun := StoreProgram.run_importFile source file engine.database
      rw [engine.perform_of_run rfl hrun]
      simp only [EngineCall.outcome, importFile]
      cases engine.database.importFile source file <;> rfl
  | clear source =>
      have hrun := StoreProgram.run_clear source engine.database
      rw [engine.perform_of_run rfl hrun]
      simp only [EngineCall.outcome, clear]
      cases engine.database.clear source <;> rfl
  | count source => rfl
  | load source scope => rfl
  | generate config scope stamp =>
      have houtcome : (EngineCall.generate config scope stamp).outcome engine
          = ((engine.validate config).toResult >>= fun _ =>
              engine.generateUnchecked config scope stamp).map
                fun report => (.report report, engine) := rfl
      rw [houtcome]
      -- What is invalid ends here; what is valid goes on to the records.
      cases hvalid : (engine.validate config).toResult with
      | error reason => rw [engine.perform_generate_of_invalid scope stamp hvalid]; rfl
      | ok _ =>
          rw [engine.perform_generate_of_valid scope stamp hvalid,
            engine.perform_generateUnchecked]
          rfl
  | generateUnchecked config scope stamp => exact engine.perform_generateUnchecked config scope stamp

end Engine

/-! ## What makes a call fail -/

theorem Result.exists_map_eq_error_iff {α β : Type} (f : α → β) (result : Result α) :
    (∃ reason, result.map f = .error reason) ↔ ∃ reason, result = .error reason := by
  cases result <;> simp [Except.map]

namespace Database

/-- What needs the table of a source, and nothing else, fails for a source without one. -/
theorem exists_requireTable_eq_error_iff {α : Type} (source : Source) (next : BuiltIn → α) :
    (∃ reason, (do
        let b ← requireTable source
        .ok (next b) : Result α) = .error reason) ↔ source.builtIn? = none := by
  cases source with
  | builtIn b => exact iff_of_false (fun ⟨_, h⟩ => by cases h) (by simp [Source.builtIn?])
  | other name unknown => exact iff_of_true ⟨_, rfl⟩ rfl

theorem exists_insertRecords_eq_error_iff (db : Database) (source : Source) (records : List Json) :
    (∃ reason, db.insertRecords source records = .error reason) ↔ source.builtIn? = none :=
  exists_requireTable_eq_error_iff source _

theorem exists_clear_eq_error_iff (db : Database) (source : Source) :
    (∃ reason, db.clear source = .error reason) ↔ source.builtIn? = none :=
  exists_requireTable_eq_error_iff source _

/-- A file that is there cannot be imported if it is unreadable or the source has no table. -/
theorem exists_importFile_eq_error_iff (db : Database) (source : Source) (content : FileContent) :
    (∃ reason, db.importFile source (some content) = .error reason) ↔
      (∃ reason, content.records = .error reason) ∨ source.builtIn? = none := by
  rw [importFile_some]
  cases content.records with
  | error reason => simp
  | ok records =>
      simp only [Result.exists_map_eq_error_iff, exists_insertRecords_eq_error_iff, reduceCtorEq,
        exists_false, false_or]

end Database

/-- **What makes a call fail**: a source without a table, a file that is missing, that has a byte
that belongs to no character or a line that is neither blank nor JSON, and a configuration with an
issue. -/
inductive EngineCall.Fails (engine : Engine) : EngineCall → Prop where
  | insertRecord {source : Source} (record : Json) (unknown : source.builtIn? = none) :
      Fails engine (.insertRecord source record)
  | insertRecords {source : Source} (records : List Json) (unknown : source.builtIn? = none) :
      Fails engine (.insertRecords source records)
  | clear {source : Source} (unknown : source.builtIn? = none) : Fails engine (.clear source)
  | importUnknown {source : Source} (file : Option FileContent) (unknown : source.builtIn? = none) :
      Fails engine (.importFile source file)
  | importMissing (source : Source) : Fails engine (.importFile source none)
  | importNoText (source : Source) {content : FileContent} (byte : none ∈ content) :
      Fails engine (.importFile source (some content))
  | importNoJson (source : Source) {content : FileContent} {line : List Char}
      (mem : line.map some ∈ content.lines) (filled : Text.isFilled line = true)
      (malformed : Json.read? (String.ofList line) = none) :
      Fails engine (.importFile source (some content))
  | generate {config : Configuration} (scope : Scope) (stamp : Stamp)
      (invalid : config.issues (some engine.catalog) ≠ []) :
      Fails engine (.generate config scope stamp)
  | generateUnchecked {config : Configuration} (scope : Scope) (stamp : Stamp)
      (incomplete : config.requiredIssues ≠ []) :
      Fails engine (.generateUnchecked config scope stamp)

namespace Engine

theorem exists_perform_eq_error_iff (engine : Engine) (call : EngineCall) :
    (∃ reason, (engine.perform call).2 = .error reason) ↔
      ∃ reason, call.outcome engine = .error reason := by
  rw [perform_eq_settle]
  cases call.outcome engine <;> simp [settle]

/-- The list of causes is complete, and each of them does make the call fail. -/
theorem exists_outcome_eq_error_iff (engine : Engine) (call : EngineCall) :
    (∃ reason, call.outcome engine = .error reason) ↔ call.Fails engine := by
  cases call with
  | insertRecord source record =>
      unfold EngineCall.outcome insertRecord Database.insertRecord
      rw [Result.exists_map_eq_error_iff, Result.exists_map_eq_error_iff,
        Database.exists_insertRecords_eq_error_iff]
      exact ⟨.insertRecord record, fun | .insertRecord _ unknown => unknown⟩
  | insertRecords source records =>
      unfold EngineCall.outcome insertRecords
      rw [Result.exists_map_eq_error_iff, Result.exists_map_eq_error_iff,
        Database.exists_insertRecords_eq_error_iff]
      exact ⟨.insertRecords records, fun | .insertRecords _ unknown => unknown⟩
  | importFile source file =>
      unfold EngineCall.outcome importFile
      rw [Result.exists_map_eq_error_iff, Result.exists_map_eq_error_iff]
      cases file with
      | none => exact iff_of_true ⟨_, rfl⟩ (.importMissing source)
      | some content =>
          rw [Database.exists_importFile_eq_error_iff, FileContent.exists_records_eq_error_iff]
          constructor
          · rintro ((byte | ⟨line, mem, filled, malformed⟩) | unknown)
            · exact .importNoText source byte
            · exact .importNoJson source mem filled malformed
            · exact .importUnknown _ unknown
          · intro hfails
            cases hfails with
            | importUnknown _ unknown => exact .inr unknown
            | importNoText _ byte => exact .inl (.inl byte)
            | importNoJson _ mem filled malformed =>
                exact .inl (.inr ⟨_, mem, filled, malformed⟩)
  | clear source =>
      unfold EngineCall.outcome clear
      rw [Result.exists_map_eq_error_iff, Result.exists_map_eq_error_iff,
        Database.exists_clear_eq_error_iff]
      exact ⟨.clear, fun | .clear unknown => unknown⟩
  | count source => exact iff_of_false (fun ⟨_, h⟩ => by cases h) (fun h => by cases h)
  | load source scope => exact iff_of_false (fun ⟨_, h⟩ => by cases h) (fun h => by cases h)
  | generate config scope stamp =>
      unfold EngineCall.outcome
      rw [Result.exists_map_eq_error_iff, exists_generate_eq_error_iff]
      exact ⟨.generate scope stamp, fun | .generate _ _ invalid => invalid⟩
  | generateUnchecked config scope stamp =>
      unfold EngineCall.outcome
      rw [Result.exists_map_eq_error_iff, exists_generateUnchecked_eq_error_iff]
      exact ⟨.generateUnchecked scope stamp, fun | .generateUnchecked _ _ incomplete => incomplete⟩

/-! ## What follows from a failure -/

/-- A call that fails leaves the engine as it is. -/
theorem perform_eq_of_error {engine : Engine} {call : EngineCall} {reason : ReportError}
    (h : (engine.perform call).2 = .error reason) :
    engine.perform call = (engine, .error reason) := by
  rw [perform_eq_settle] at h ⊢
  cases houtcome : call.outcome engine with
  | ok done =>
      rw [houtcome] at h
      cases h
  | error cause =>
      rw [houtcome] at h
      cases h
      rfl

theorem performAll_cons_of_error {engine : Engine} {call : EngineCall} {reason : ReportError}
    (h : (engine.perform call).2 = .error reason) (later : List EngineCall) :
    engine.performAll (call :: later)
      = ((engine.performAll later).1, .error reason :: (engine.performAll later).2) := by
  rw [performAll, perform_eq_of_error h]

theorem performAll_cons_of_ok {engine : Engine} {call : EngineCall} {answer : EngineAnswer}
    (h : (engine.perform call).2 = .ok answer) (later : List EngineCall) :
    engine.performAll (call :: later)
      = (((engine.perform call).1.performAll later).1,
          .ok answer :: ((engine.perform call).1.performAll later).2) := by
  rw [performAll, ← h]

/-- The calls that succeed, of some calls made one after the other. -/
def successful (engine : Engine) : List EngineCall → List EngineCall
  | [] => []
  | call :: rest =>
    let later := (engine.perform call).1.successful rest
    if (engine.perform call).2.isOk then call :: later else later

/-- **A run is the run of its successful calls**: without the calls that fail it ends in the same
engine, and the answers are those of the others. -/
theorem performAll_successful (engine : Engine) (calls : List EngineCall) :
    engine.performAll (engine.successful calls)
      = ((engine.performAll calls).1,
          (engine.performAll calls).2.filter fun result => result.isOk) := by
  -- For any engine, since a successful call may leave another one behind.
  induction calls generalizing engine with
  | nil => rfl
  | cons call rest ih =>
      cases hresult : (engine.perform call).2 with
      | error reason =>
          have hsame : engine.successful (call :: rest) = engine.successful rest := by
            rw [successful, perform_eq_of_error hresult]
            rfl
          rw [hsame, ih, performAll_cons_of_error hresult]
          rfl
      | ok answer =>
          have hkept : engine.successful (call :: rest)
              = call :: (engine.perform call).1.successful rest := by
            rw [successful, hresult]
            rfl
          rw [hkept, performAll_cons_of_ok hresult, performAll_cons_of_ok hresult, ih]
          rfl

/-- **A failed call leaves no trace.**  A call fails for one of the causes listed and for no other,
and then the engine is what it was, with every row of every table; whatever calls come later, they
end as if the failed one had not been made. -/
theorem perform_of_error (engine : Engine) (call : EngineCall) :
    ((∃ reason, (engine.perform call).2 = .error reason) ↔ call.Fails engine) ∧
    ∀ reason, (engine.perform call).2 = .error reason →
      (engine.perform call).1 = engine ∧
      ∀ later, engine.performAll (call :: later)
        = ((engine.performAll later).1, .error reason :: (engine.performAll later).2) := by
  refine ⟨?_, fun reason h => ⟨?_, performAll_cons_of_error h⟩⟩
  · rw [exists_perform_eq_error_iff, exists_outcome_eq_error_iff]
  · rw [perform_eq_of_error h]

/-- The theorem at a file whose last line is cut off, imported into a table with a row. -/
theorem perform_of_error_cut_off_line :
    let engine : Engine := ⟨.memory, ⟨[⟨7, none, "0"⟩], [], [], []⟩, .empty, .default⟩
    let call : EngineCall := .importFile (.builtIn .deals) (some (.ofText "null\n[null]\n[null"))
    (engine.perform call).2 = .error .json ∧ call.Fails engine ∧ (engine.perform call).1 = engine ∧
    engine.performAll [call, .insertRecord (.builtIn .deals) .null]
      = (⟨.memory, ⟨[⟨7, none, "0"⟩, ⟨8, none, "null"⟩], [], [], []⟩, .empty, .default⟩,
          [.error .json, .ok .done]) := by
  intro engine call
  have herror : (engine.perform call).2 = .error .json := by
    rw [perform_eq_settle]
    cbv
  obtain ⟨hcauses, hafter⟩ := perform_of_error engine call
  obtain ⟨hsame, hlater⟩ := hafter .json herror
  refine ⟨herror, hcauses.mp ⟨_, herror⟩, hsame, ?_⟩
  rw [hlater]
  rfl

end Engine

end Reporting
