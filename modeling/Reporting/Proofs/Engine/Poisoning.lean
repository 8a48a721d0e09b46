import Reporting.Engine.Shared

/-!
# A shared engine until a task fails

Calls to a shared engine are taken in the order in which they get the lock.  As long as every task
ends with a result, be it an error, the shared engine does what an engine of one's own would do: the
same answers, the same state after each call (`SharedEngine.runAll_of_completes`).  The first task
that fails outright still works on the state that the calls before it left, and whatever it has
written by then stays.  From then on nothing happens any more: no task runs, so the engine keeps the
state that the failed task left, and every caller is told that the lock is poisoned
(`SharedEngine.runAll_of_poisoned`).

Every run is of one of these two kinds (`Engine.completes_or_fails`), and `SharedEngine.runAll_make`
says how each of them goes.
-/

namespace Reporting

/-- A call to a shared engine. -/
inductive SharedCall where
  | run {α : Type} (task : EngineTask α)
  | generate (config : Configuration) (scope : Scope) (stamp : Stamp)

namespace SharedCall

/-- What a call answers if it goes well. -/
def Answer : SharedCall → Type
  | @run α _ => α
  | generate _ _ _ => Report

/-- The call on a shared engine. -/
def onShared (shared : SharedEngine) : (call : SharedCall) → SharedEngine × Result call.Answer
  | run task => shared.run task
  | generate config scope stamp => shared.generate config scope stamp

/-- The call on an engine of one's own. -/
def onEngine (engine : Engine) : (call : SharedCall) → Engine × TaskOutcome call.Answer
  | run task => task engine
  | generate config scope stamp => (engine, .finished (engine.generate config scope stamp))

/-- While the lock is free, a call does to a shared engine what it does to an engine.  The lock is
poisoned afterwards if the task failed, and not if its result is an error. -/
theorem onShared_of_free (engine : Engine) (call : SharedCall) :
    call.onShared (.make engine)
      = (⟨(call.onEngine engine).1, (call.onEngine engine).2.isFailure⟩,
          (call.onEngine engine).2.join) := by
  cases call <;> rfl

/-- Once the lock is poisoned, a call changes nothing. -/
theorem onShared_of_poisoned (engine : Engine) (call : SharedCall) :
    call.onShared ⟨engine, true⟩ = (⟨engine, true⟩, .error (.invalidArgument .lockPoisoned)) := by
  cases call <;> rfl

end SharedCall

/-- A call together with what its caller is told. -/
structure SharedAnswer where
  call : SharedCall
  result : Result call.Answer

/-- A shared engine after some calls in the order in which they get the lock, and their answers. -/
def SharedEngine.runAll (shared : SharedEngine) :
    List SharedCall → SharedEngine × List SharedAnswer
  | [] => (shared, [])
  | call :: rest =>
    let (next, result) := call.onShared shared
    let (last, answers) := next.runAll rest
    (last, ⟨call, result⟩ :: answers)

/-- A run of some calls on an engine of one's own in which every task ends with a result, from one
state of the engine to another. -/
inductive Engine.Completes : Engine → List SharedCall → List SharedAnswer → Engine → Prop
  | nil (engine : Engine) : Completes engine [] [] engine
  | cons {engine next last : Engine} {call : SharedCall} {result : Result call.Answer}
      {calls : List SharedCall} {answers : List SharedAnswer}
      (finished : call.onEngine engine = (next, .finished result))
      (rest : Completes next calls answers last) :
      Completes engine (call :: calls) (⟨call, result⟩ :: answers) last

/-- Either every task ends with a result, or there is a first one that fails. -/
theorem Engine.completes_or_fails (engine : Engine) (calls : List SharedCall) :
    (∃ answers last, engine.Completes calls answers last) ∨
      ∃ before call after answers reached left,
        calls = before ++ call :: after ∧ engine.Completes before answers reached ∧
          call.onEngine reached = (left, .failed) := by
  induction calls generalizing engine with
  | nil => exact Or.inl ⟨[], engine, .nil engine⟩
  | cons call rest ih =>
      rcases hcall : call.onEngine engine with ⟨next, outcome⟩
      cases outcome with
      | failed => exact Or.inr ⟨[], call, rest, [], engine, next, rfl, .nil engine, hcall⟩
      | finished result =>
          rcases ih next with ⟨answers, last, hrest⟩ | hfails
          · exact Or.inl ⟨_, last, .cons hcall hrest⟩
          · obtain ⟨before, failing, after, answers, reached, left, rfl, hbefore, hfailed⟩ := hfails
            exact Or.inr ⟨call :: before, failing, after, _, reached, left, rfl,
              .cons hcall hbefore, hfailed⟩

namespace SharedEngine

/-- The first call is made, and the others go on from the state that it left. -/
theorem runAll_cons {shared next : SharedEngine} {call : SharedCall} {result : Result call.Answer}
    (hcall : call.onShared shared = (next, result)) (rest : List SharedCall) :
    shared.runAll (call :: rest)
      = ((next.runAll rest).1, ⟨call, result⟩ :: (next.runAll rest).2) := by
  rw [runAll, hcall]

/-- Calls that follow others go on from the state that these left. -/
theorem runAll_append (shared : SharedEngine) (before after : List SharedCall) :
    shared.runAll (before ++ after)
      = (((shared.runAll before).1.runAll after).1,
          (shared.runAll before).2 ++ ((shared.runAll before).1.runAll after).2) := by
  induction before generalizing shared with
  | nil => rfl
  | cons call rest ih =>
      rcases hcall : call.onShared shared with ⟨next, result⟩
      rw [List.cons_append, runAll_cons hcall, runAll_cons hcall, ih, List.cons_append]

/-- **A shared engine on which no task fails does what an engine does.** -/
theorem runAll_of_completes {engine last : Engine} {calls : List SharedCall}
    {answers : List SharedAnswer} (h : engine.Completes calls answers last) :
    (make engine).runAll calls = (make last, answers) := by
  induction h with
  | nil engine => rfl
  | @cons engine next last call result calls answers finished rest ih =>
      have hcall : call.onShared (make engine) = (make next, result) := by
        rw [SharedCall.onShared_of_free, finished]
        rfl
      rw [runAll_cons hcall, ih]

/-- **A poisoned engine stays as it is,** and every caller is told about the lock. -/
theorem runAll_of_poisoned (engine : Engine) (calls : List SharedCall) :
    (⟨engine, true⟩ : SharedEngine).runAll calls
      = (⟨engine, true⟩,
          calls.map fun call => ⟨call, .error (.invalidArgument .lockPoisoned)⟩) := by
  induction calls with
  | nil => rfl
  | cons call rest ih =>
      rw [runAll_cons (SharedCall.onShared_of_poisoned engine call), ih, List.map_cons]

/-- **A shared engine goes like an engine until a task fails and is closed afterwards.**  If every
task ends with a result, the answers and the state are those of an engine of one's own.  Otherwise
this holds of the calls before the first task that fails; this task works on the state that they
left, and its caller is told that it failed; the callers after it are told that the lock is
poisoned, whatever they asked for, and the engine stays as the failed task left it. -/
theorem runAll_make (engine : Engine) (calls : List SharedCall) :
    (∃ answers last, engine.Completes calls answers last ∧
      (make engine).runAll calls = (⟨last, false⟩, answers)) ∨
    ∃ before call after answers reached left,
      calls = before ++ call :: after ∧ engine.Completes before answers reached ∧
        call.onEngine reached = (left, .failed) ∧
        (make engine).runAll calls
          = (⟨left, true⟩,
              answers ++ ⟨call, .error (.invalidArgument .taskFailed)⟩
                :: after.map fun later => ⟨later, .error (.invalidArgument .lockPoisoned)⟩) := by
  rcases engine.completes_or_fails calls with ⟨answers, last, hcalls⟩ | hfails
  · exact Or.inl ⟨answers, last, hcalls, runAll_of_completes hcalls⟩
  · obtain ⟨before, call, after, answers, reached, left, rfl, hbefore, hfailed⟩ := hfails
    refine Or.inr ⟨before, call, after, answers, reached, left, rfl, hbefore, hfailed, ?_⟩
    have hcall : call.onShared (make reached)
        = (⟨left, true⟩, .error (.invalidArgument .taskFailed)) := by
      rw [SharedCall.onShared_of_free, hfailed]
      rfl
    rw [runAll_append, runAll_of_completes hbefore, runAll_cons hcall, runAll_of_poisoned]

end SharedEngine

end Reporting
