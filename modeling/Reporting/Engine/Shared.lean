import Reporting.Engine.Basic

/-!
# A shared engine

An engine behind a lock, on which tasks run one after the other.  A task that fails outright while
it holds the lock leaves it poisoned: its own caller is told that the task failed, and from then on
every caller is told about the lock and no task runs any more.
-/

namespace Reporting

/-- How a task ends: with a result, or not at all. -/
inductive TaskOutcome (α : Type) where
  | finished (result : Result α)
  | failed

namespace TaskOutcome

/-- Whether the task failed outright. -/
def isFailure {α : Type} : TaskOutcome α → Bool
  | .finished _ => false
  | .failed => true

/-- What the caller who waits for a task is told: the result of the task, or that it failed. -/
def join {α : Type} : TaskOutcome α → Result α
  | .finished result => result
  | .failed => .error (.invalidArgument .taskFailed)

end TaskOutcome

/-- A task: what it leaves behind, and how it ends. -/
abbrev EngineTask (α : Type) := Engine → Engine × TaskOutcome α

/-- An engine behind a lock. -/
structure SharedEngine where
  engine : Engine
  poisoned : Bool

namespace SharedEngine

/-- Put an engine behind a lock. -/
def make (engine : Engine) : SharedEngine := ⟨engine, false⟩

/-- Take the lock for a task, unless it is poisoned.  It is poisoned afterwards exactly if the task
failed while it held the lock. -/
def hold {α : Type} (shared : SharedEngine) (task : EngineTask α) :
    SharedEngine × TaskOutcome α :=
  if shared.poisoned then (shared, .finished (.error (.invalidArgument .lockPoisoned)))
  else
    let (engine, outcome) := task shared.engine
    (⟨engine, outcome.isFailure⟩, outcome)

/-- Run a task and wait for it. -/
def run {α : Type} (shared : SharedEngine) (task : EngineTask α) : SharedEngine × Result α :=
  let (next, outcome) := shared.hold task
  (next, outcome.join)

/-- The task that makes a report. -/
def generateTask (config : Configuration) (scope : Scope) (stamp : Stamp) : EngineTask Report :=
  fun engine => (engine, .finished (engine.generate config scope stamp))

/-- Make a report. -/
def generate (shared : SharedEngine) (config : Configuration) (scope : Scope) (stamp : Stamp) :
    SharedEngine × Result Report :=
  shared.run (generateTask config scope stamp)

end SharedEngine

end Reporting
