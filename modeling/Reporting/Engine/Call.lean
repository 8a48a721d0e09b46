import Reporting.Engine.Basic
import Reporting.Store.Program

/-!
# Calls to an engine

A call runs a store program on the tables of an engine.  It ends with an answer or with the reason
why it failed, and in either case the engine goes on with the tables that the program leaves.
-/

namespace Reporting

/-- A call to an engine that reads its records or writes them. -/
inductive EngineCall where
  | insertRecord (source : Source) (record : Json)
  | insertRecords (source : Source) (records : List Json)
  | importFile (source : Source) (file : Option FileContent)
  | clear (source : Source)
  | count (source : Source)
  | load (source : Source) (scope : Scope)
  | generate (config : Configuration) (scope : Scope) (stamp : Stamp)
  | generateUnchecked (config : Configuration) (scope : Scope) (stamp : Stamp)

/-- What a call answers. -/
inductive EngineAnswer where
  | done
  | number (n : Nat)
  | records (records : List Json)
  | report (report : Report)

/-- The program of a call to an engine. -/
def EngineCall.program (engine : Engine) : EngineCall → StoreProgram EngineAnswer
  | insertRecord source record => do
    StoreProgram.insertRecord source record
    return .done
  | insertRecords source records => do
    return .number (← StoreProgram.insertRecords source records)
  | importFile source file => do
    return .number (← StoreProgram.importFile source file)
  | clear source => do
    StoreProgram.clear source
    return .done
  | count source => do
    return .number (← StoreProgram.count source)
  | load source scope => do
    return .records (← StoreProgram.load source scope)
  | generate config scope stamp => do
    StoreProgram.ofResult (engine.validate config).toResult
    let report := Report.generate (← get) engine.settings config scope stamp
    return .report (← StoreProgram.ofResult report)
  | generateUnchecked config scope stamp => do
    let report := Report.generate (← get) engine.settings config scope stamp
    return .report (← StoreProgram.ofResult report)

namespace Engine

/-- The engine after a call, and how the call ended. -/
def perform (engine : Engine) (call : EngineCall) : Engine × Result EngineAnswer :=
  match (call.program engine).run engine.database with
  | .ok answer db => (engine.withDatabase db, .ok answer)
  | .error reason db => (engine.withDatabase db, .error reason)

/-- The engine after some calls, and how each of them ended. -/
def performAll (engine : Engine) : List EngineCall → Engine × List (Result EngineAnswer)
  | [] => (engine, [])
  | call :: rest =>
    let (next, result) := engine.perform call
    let (last, results) := next.performAll rest
    (last, result :: results)

end Engine

end Reporting
