import CppJam.Dispatcher.Upload
import CppJam.Scheduler.Process
import CppJam.Slots

/-!
# Temporary handlers

A task that no worker of the pool takes gets a thread handler of its own. The dispatcher
counts it and queues a function there that runs the task and then counts it off. The
function is run by the scheduler of the handler, which catches what the task throws; the
exception leaves the function before it has counted the task off.
-/

namespace CppJam.Dispatcher

open Checks Runs Slots

/-- How far a temporary handler has come with its task. -/
inductive Phase where
  /-- The task is counted and not queued yet. -/
  | counted (timeout : ℤ)
  /-- The function is in the queue of the handler, or extracted and not called yet. -/
  | queued
  /-- The task runs. -/
  | running
  /-- The task has returned, or was left out as the dispatcher is disposed. -/
  | returning
  /-- The task is counted off. -/
  | countedOff
  /-- The function has disposed the handler and returned. -/
  | returned
  /-- The task has thrown. -/
  | thrown
  deriving DecidableEq

/-- The task of the handler has not finished. A task that returns counts as finished from the
decrement of the counter on, and a task that throws from the throw on. -/
def Phase.unfinished : Phase → Bool
  | .counted _ | .queued | .running | .returning => true
  | .countedOff | .returned | .thrown => false

/-- A temporary `ThreadHandler` and its task. -/
structure Temporary where
  scheduler : Scheduler.State
  phase : Phase
  deriving DecidableEq

/-- The task has not finished. -/
def Temporary.unfinished (h : Temporary) : Bool := h.phase.unfinished

/-- The task has thrown. -/
def Temporary.thrown (h : Temporary) : Bool := h.phase = .thrown

/-- A step for one temporary handler. -/
inductive Action where
  /-- `h->addDelayed`. -/
  | queue (now : ℤ)
  /-- `extractExpired` in the loop of the handler. -/
  | extract (now : ℤ)
  /-- The function is called and reads `is_disposed_`. -/
  | enter
  /-- The task returns, or throws (`false`). -/
  | ends (returned : Bool)
  /-- `--temporary_handlers_tasks_counter_`. -/
  | countOff
  /-- `h->dispose(false)`, and the function returns. -/
  | leave
  deriving DecidableEq

/-- The handler after a step, and what the step adds to the counter. -/
def Temporary.exec (isDisposed : Bool) (h : Temporary) : Action → Option (Temporary × ℤ)
  | .queue now =>
    match h.phase with
    | .counted timeout => do
      let scheduler ← Scheduler.exec h.scheduler (.addDelayed now timeout true)
      return (⟨scheduler, .queued⟩, 0)
    | _ => none
  | .extract now => do
    let scheduler ← Scheduler.exec h.scheduler (.extract now)
    return (⟨scheduler, h.phase⟩, 0)
  | .enter =>
    match h.phase, h.scheduler.hand with
    | .queued, .holding _ => some (⟨h.scheduler, if isDisposed then .returning else .running⟩, 0)
    | _, _ => none
  | .ends true =>
    match h.phase with
    | .running => some (⟨h.scheduler, .returning⟩, 0)
    | _ => none
  | .ends false =>
    match h.phase with
    | .running => do
      let scheduler ← Scheduler.exec h.scheduler (.body false)
      return (⟨scheduler, .thrown⟩, 0)
    | _ => none
  | .countOff =>
    match h.phase with
    | .returning => some (⟨h.scheduler, .countedOff⟩, -1)
    | _ => none
  | .leave =>
    match h.phase with
    | .countedOff => do
      let scheduler ← Scheduler.exec h.scheduler (.body true)
      return (⟨scheduler, .returned⟩, 0)
    | _ => none

/-- The dispatcher and its temporary handlers. -/
structure System (σ : Type) where
  dispatcher : AsyncDispatcher σ
  temporaries : List Temporary

/-- A step of the system. -/
inductive Event where
  /-- `add` or `addDelayed`; the workers of the pool answer `busy`, and a new handler starts at
  time `now`. -/
  | send (busy : ℕ → Bool) (tid : Tid) (timeout now : ℤ)
  /-- A step for one of the temporary handlers. -/
  | act (i : ℕ) (action : Action)
  /-- `dispose`, up to its wait loop. -/
  | dispose

variable {σ : Type}

/-- The handler that a placement starts, if it is one on a new thread. -/
def start (now : ℤ) (p : Placement σ Unit Unit) : Option Temporary :=
  match p.destination with
  | .temporary => some ⟨.initial now, .counted p.timeout⟩
  | _ => none

/-- Execute one step; `none` when it is not the turn of the step. -/
def System.exec (k : Sizes) (s : System σ) : Event → Option (System σ)
  | .send busy tid timeout now =>
    match s.dispatcher.addDelayed k busy tid timeout () with
    | .ok (d, placed) => some ⟨d, s.temporaries ++ placed.filterMap (start now)⟩
    | .error _ => none
  | .act i action => do
    let h ← s.temporaries[i]?
    let (h', change) ← h.exec s.dispatcher.isDisposed action
    return ⟨{ s.dispatcher with temporaryHandlersTasksCounter :=
      s.dispatcher.temporaryHandlersTasksCounter + change }, s.temporaries.set i h'⟩
  | .dispose => some { s with dispatcher := { s.dispatcher with isDisposed := true } }

/-- The step leads from `s` to `t`. -/
abbrev System.Step (k : Sizes) (s : System σ) (event : Event) (t : System σ) : Prop :=
  s.exec k event = some t

/-- A new dispatcher without temporary handlers. -/
def System.new : System σ := ⟨.new, []⟩

/-! ## One step -/

/-- How a handler goes on with its task, and what it adds to the counter. -/
inductive PhaseStep : Phase → Action → Phase → ℤ → Prop
  | queue (timeout now : ℤ) : PhaseStep (.counted timeout) (.queue now) .queued 0
  | extract (phase : Phase) (now : ℤ) : PhaseStep phase (.extract now) phase 0
  | run : PhaseStep .queued .enter .running 0
  | leaveOut : PhaseStep .queued .enter .returning 0
  | finish : PhaseStep .running (.ends true) .returning 0
  | throw : PhaseStep .running (.ends false) .thrown 0
  | countOff : PhaseStep .returning .countOff .countedOff (-1)
  | leave : PhaseStep .countedOff .leave .returned 0

/-- Every step takes the handler on with its task. -/
theorem Temporary.exec_phase {isDisposed : Bool} {h h' : Temporary} {action : Action} {change : ℤ}
    (hexec : h.exec isDisposed action = some (h', change)) :
    PhaseStep h.phase action h'.phase change := by
  obtain ⟨scheduler, phase⟩ := h
  cases action with
  | queue now =>
    cases phase <;> simp only [Temporary.exec, reduceCtorEq, Option.bind_eq_bind,
      Option.bind_eq_some_iff] at hexec
    obtain ⟨_, _, hh'⟩ := hexec
    cases hh'
    exact .queue _ now
  | extract now =>
    simp only [Temporary.exec, Option.bind_eq_bind, Option.bind_eq_some_iff] at hexec
    obtain ⟨_, _, hh'⟩ := hexec
    cases hh'
    exact .extract phase now
  | enter =>
    cases phase <;> simp only [Temporary.exec, reduceCtorEq] at hexec
    cases hhand : scheduler.hand <;> simp only [hhand, reduceCtorEq] at hexec
    cases isDisposed
    · cases hexec
      exact .run
    · cases hexec
      exact .leaveOut
  | ends returned =>
    cases returned with
    | true =>
      cases phase <;> simp only [Temporary.exec, reduceCtorEq] at hexec
      cases hexec
      exact .finish
    | false =>
      cases phase <;> simp only [Temporary.exec, reduceCtorEq, Option.bind_eq_bind,
        Option.bind_eq_some_iff] at hexec
      obtain ⟨_, _, hh'⟩ := hexec
      cases hh'
      exact .throw
  | countOff =>
    cases phase <;> simp only [Temporary.exec, reduceCtorEq] at hexec
    cases hexec
    exact .countOff
  | leave =>
    cases phase <;> simp only [Temporary.exec, reduceCtorEq, Option.bind_eq_bind,
      Option.bind_eq_some_iff] at hexec
    obtain ⟨_, _, hh'⟩ := hexec
    cases hh'
    exact .leave

end CppJam.Dispatcher
