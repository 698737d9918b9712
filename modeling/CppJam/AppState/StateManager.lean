import Mathlib.Logic.Function.Basic
import Mathlib.Data.Nat.Notation

/-!
# The application state manager

`StateManagerImpl::run` as a sequence of small steps. `doPrepare`, `doLaunch` and
`doShutdown` are one loop over the callbacks of a stage: each enters its stage by a
compare-exchange on the state, calls the callbacks of its queue and leaves the stage by
another compare-exchange. The loop of `doShutdown` first drops the other queues, and
tests neither the state nor the results of the callbacks.

Every access to the state is a step of its own, and so are the test for an empty queue,
the call of a callback, its return and the removal from the queue.
-/

namespace CppJam.AppState

/-- `StateManager::State`. -/
inductive State where
  | init
  | prepare
  | readyToStart
  | starting
  | works
  | shuttingDown
  | readyToStop
  deriving DecidableEq

/-- The value of the enumerator, by which states are compared. -/
def State.rank : State → ℕ
  | init => 0
  | prepare => 1
  | readyToStart => 2
  | starting => 3
  | works => 4
  | shuttingDown => 5
  | readyToStop => 6

/-- The stages that have callbacks. -/
inductive Stage where
  | prepare
  | launch
  | shutdown
  deriving DecidableEq

/-- The state that a stage expects. -/
def Stage.entry : Stage → State
  | prepare => .init
  | launch => .readyToStart
  | shutdown => .works

/-- The state during a stage, the last one in which its callbacks can be added. -/
def Stage.active : Stage → State
  | prepare => .prepare
  | launch => .starting
  | shutdown => .shuttingDown

/-- The state after a stage. -/
def Stage.exit : Stage → State
  | prepare => .readyToStart
  | launch => .works
  | shutdown => .readyToStop

/-- Exceptions that leave a method. -/
inductive Exception where
  /-- `std::logic_error`. -/
  | logicError (what : String)
  /-- `AppStateException`. -/
  | appState (what : String)
  /-- An exception of a callback. -/
  | callback
  deriving DecidableEq

/-- The constructor of `AppStateException`. -/
def appStateException (message : String) : Exception := .appState ("Wrong workflow at " ++ message)

/-- What a stage throws in a state from which it cannot be entered. -/
def Stage.wrongEntry : Stage → Exception
  | prepare => appStateException "running stage 'preparing'"
  | launch => appStateException "running stage 'launch'"
  | shutdown => appStateException "running stage 'shutting down'"

/-- What is thrown when a callback is added too late. -/
def Stage.wrongAdding : Stage → Exception
  | prepare => appStateException "adding callback for stage 'prepare'"
  | launch => appStateException "adding callback for stage 'launch'"
  | shutdown => appStateException "adding callback for stage 'shutdown'"

/-- What `run` throws when nobody owns the manager by a shared pointer. -/
def notShared : Exception :=
  .logicError "StateManager must be instantiated on shared pointer before run"

/-- What `run` throws when the last stage did not end as expected. -/
def notReadyToStop : Exception := .logicError "StateManager is expected in stage 'ready to stop'"

/-- The next step of `run`. -/
inductive Pc where
  /-- `run` has not been called. -/
  | before
  /-- Lock the mutex and enter the stage. -/
  | enter (stage : Stage)
  /-- Drop the queues of the other stages, in `doShutdown`. -/
  | discard
  /-- Test whether the queue is empty. -/
  | loop (stage : Stage)
  /-- Test whether the state is still the one of the stage. -/
  | test (stage : Stage)
  /-- Call the first callback of the queue. -/
  | call (stage : Stage)
  /-- The first callback of the queue runs. -/
  | inside (stage : Stage)
  /-- Begin to shut down after a callback failed. -/
  | failed (stage : Stage)
  /-- Remove the first callback from the queue. -/
  | pop (stage : Stage)
  /-- Leave the stage and unlock the mutex. -/
  | leave (stage : Stage)
  /-- Test whether the application works. -/
  | look
  /-- `shutdownRequestWaiting`. -/
  | waiting
  /-- Test whether the application is ready to stop. -/
  | check
  | returned
  | threw (e : Exception)
  deriving DecidableEq

/-- The mutex of the callback queues can be taken: it is free, or a callback runs, in
whose thread it is held. -/
def Pc.unlocked : Pc → Bool
  | before | enter _ | inside _ | look | waiting | check | returned | threw _ => true
  | _ => false

/-- `StateManagerImpl` and the thread that runs it. -/
structure Manager (Callback : Type) where
  /-- `state_`. -/
  state : State
  /-- `prepare_`, `launch_` and `shutdown_`. -/
  queue : Stage → List Callback
  /-- Where `run` stands. -/
  pc : Pc

/-- What happens to a manager. -/
inductive Action (Callback : Type) where
  /-- `run` is called, on a manager that a shared pointer owns or on another one. -/
  | start (shared : Bool)
  /-- `run` takes a step other than those below. -/
  | advance
  /-- `run` tests the state before a callback. -/
  | test
  /-- `run` calls a callback. -/
  | call (stage : Stage) (callback : Callback)
  /-- The callback returns, or throws. -/
  | answer (stage : Stage) (result : Option Bool)
  /-- `atPrepare`, `atLaunch` or `atShutdown` adds a callback. -/
  | register (stage : Stage) (callback : Callback)
  /-- `atPrepare`, `atLaunch` or `atShutdown` throws. -/
  | refuse (stage : Stage) (callback : Callback)
  deriving DecidableEq

variable {Callback : Type}

/-- A new manager. -/
def Manager.initial : Manager Callback := ⟨.init, fun _ => [], .before⟩

/-- `compare_exchange_strong` on the state. -/
def State.compareExchange (state expected desired : State) : State :=
  if state = expected then desired else state

/-- Add a callback to the queue of a stage. -/
def Manager.add (stage : Stage) (callback : Callback) (m : Manager Callback) :
    Except Exception (Manager Callback) :=
  if m.state.rank > stage.active.rank then .error stage.wrongAdding
  else .ok { m with queue := Function.update m.queue stage (m.queue stage ++ [callback]) }

/-- `StateManagerImpl::atPrepare`. -/
def Manager.atPrepare (callback : Callback) :
    Manager Callback → Except Exception (Manager Callback) :=
  Manager.add .prepare callback

/-- `StateManagerImpl::atLaunch`. -/
def Manager.atLaunch (callback : Callback) :
    Manager Callback → Except Exception (Manager Callback) :=
  Manager.add .launch callback

/-- `StateManagerImpl::atShutdown`. -/
def Manager.atShutdown (callback : Callback) :
    Manager Callback → Except Exception (Manager Callback) :=
  Manager.add .shutdown callback

/-- The step after entering a stage. -/
def Stage.entered : Stage → Pc
  | shutdown => .discard
  | stage => .loop stage

/-- The step for the first callback of the queue. -/
def Stage.chosen : Stage → Pc
  | shutdown => .call .shutdown
  | stage => .test stage

/-- The step after a callback. -/
def Stage.answered : Stage → Option Bool → Pc
  | _, none => .threw .callback
  | shutdown, some _ => .pop .shutdown
  | stage, some true => .pop stage
  | stage, some false => .failed stage

/-- The step after a stage. -/
def Stage.left : Stage → Pc
  | prepare => .enter .launch
  | launch => .look
  | shutdown => .check

/-- A step of `run` itself. -/
def Manager.advance (m : Manager Callback) : Option (Manager Callback) :=
  match m.pc with
  | .enter stage =>
    if m.state = stage.entry ∨ m.state = .shuttingDown then
      some { m with
        state := m.state.compareExchange stage.entry stage.active
        pc := stage.entered }
    else some { m with pc := .threw stage.wrongEntry }
  | .discard =>
    some { m with
      queue := Function.update (Function.update m.queue .prepare []) .launch []
      pc := .loop .shutdown }
  | .loop stage =>
    some { m with pc := if (m.queue stage).isEmpty then .leave stage else stage.chosen }
  | .failed stage =>
    some { m with state := m.state.compareExchange stage.active .shuttingDown, pc := .pop stage }
  | .pop stage =>
    some { m with
      queue := Function.update m.queue stage (m.queue stage).tail
      pc := .loop stage }
  | .leave stage =>
    some { m with state := m.state.compareExchange stage.active stage.exit, pc := stage.left }
  | .look => some { m with pc := if m.state = .works then .waiting else .enter .shutdown }
  | .waiting => if m.state = .shuttingDown then some { m with pc := .enter .shutdown } else none
  | .check =>
    some { m with pc := if m.state = .readyToStop then .returned else .threw notReadyToStop }
  | _ => none

/-- Execute an action, if it is possible. -/
def Manager.exec [DecidableEq Callback] (m : Manager Callback) :
    Action Callback → Option (Manager Callback)
  | .start shared =>
    if m.pc = .before then
      some { m with pc := if shared then .enter .prepare else .threw notShared }
    else none
  | .advance => m.advance
  | .test =>
    match m.pc with
    | .test stage =>
      some { m with pc := if m.state = stage.active then .call stage else .pop stage }
    | _ => none
  | .call stage callback =>
    if m.pc = .call stage ∧ (m.queue stage).head? = some callback then
      some { m with pc := .inside stage }
    else none
  | .answer stage result =>
    if m.pc = .inside stage then some { m with pc := stage.answered result } else none
  | .register stage callback => if m.pc.unlocked then (m.add stage callback).toOption else none
  | .refuse stage callback =>
    if m.pc.unlocked ∧ (m.add stage callback).toOption.isNone then some m else none

/-- What `StateManagerImpl::shutdown` makes of the state, taken as one step. -/
def State.shutdown (state : State) : State :=
  if state = .readyToStop then state
  else if state = .shuttingDown then state
  else .shuttingDown

/-- `StateManagerImpl::shutdown`, taken as one step. -/
def Manager.shutdown (m : Manager Callback) : Manager Callback :=
  { m with state := m.state.shutdown }

end CppJam.AppState
