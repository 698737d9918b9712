import CppJam.Dispatcher.TemporaryHandlers
import CppJam.Scheduler.Worker

/-!
# The dispatcher and its threads

`async_dispatcher_impl.hpp`, `thread_handler.hpp`: the fixed handlers and the workers of the pool
are threads, any thread submits tasks, and `dispose` stops the threads one after the other while all
this goes on. A submission reads `is_disposed_` once, at its beginning. The steps are the accesses
to what the threads share, so that other threads come in between.
-/

namespace CppJam.Dispatcher

open Checks

/-- A call of `uploadToHandler` that has read that the dispatcher is not disposed. -/
inductive Upload where
  /-- The task is for a fixed handler. -/
  | forHandler (i : ℕ) (timeout : ℤ) (pred : Bool)
  /-- The number is looked up among the bound ones. -/
  | lookingUp (tid : Tid) (timeout : ℤ)
  /-- The workers of the pool before this one have given the task back. -/
  | offering (i : ℕ) (timeout : ℤ)
  deriving DecidableEq

/-- How far `AsyncDispatcher::dispose` is. -/
inductive Stage where
  /-- It was not called. -/
  | idle
  /-- Before `proceed_` of the thread is cleared. -/
  | clearing (i : ℕ)
  /-- Before the event of the thread is set. -/
  | signaling (i : ℕ)
  /-- Before the thread is notified. -/
  | notifying (i : ℕ)
  /-- In `worker_.join()`. -/
  | joining (i : ℕ)
  /-- In the loop that waits for the temporary handlers. -/
  | waiting
  /-- It has returned. -/
  | returned
  deriving DecidableEq

/-- An `AsyncDispatcher`, its threads and the calls that are under way. -/
structure Threads (σ : Type) where
  /-- The fields of the dispatcher that are not threads. -/
  dispatcher : AsyncDispatcher σ
  /-- `handlers_`, and after them `pool_`. -/
  workers : List Scheduler.Machine
  /-- The submissions that are under way. -/
  uploads : List Upload
  /-- The temporary handlers. -/
  temporaries : List Temporary
  /-- The call of `dispose`. -/
  stage : Stage

/-- A step of one of the threads. -/
inductive Turn (σ : Type) where
  /-- `uploadToHandler` is called and reads `is_disposed_`. -/
  | submit (tid : Tid) (timeout : ℤ) (pred : Bool)
  /-- The next step of a submission. -/
  | upload (j : ℕ) (now : ℤ)
  /-- `bind`. -/
  | bind (scheduler : Option σ)
  /-- `unbind`. -/
  | unbind (tid : Tid)
  /-- A step of a handler or worker, or of a thread that holds the lock of its queue. -/
  | worker (i : ℕ) (move : Scheduler.Move)
  /-- A step for one of the temporary handlers. -/
  | temporary (i : ℕ) (action : Action)
  /-- The next step of `dispose`. -/
  | dispose

variable {σ : Type}

/-- A new dispatcher. -/
def Threads.new (k : Sizes) (now : ℤ) : Threads σ :=
  ⟨.new, List.replicate (k.kHandlersCount.toNat + k.kPoolThreadsCount.toNat) (.initial now), [], [],
    .idle⟩

/-- A step on a handler or worker. -/
def Threads.onWorker (s : Threads σ) (i : ℕ) (move : Scheduler.Move) : Option (Threads σ) := do
  let m ← s.workers[i]?
  let m' ← m.exec move
  return { s with workers := s.workers.set i m' }

/-- `uploadToHandler`, up to its reading of `is_disposed_`. -/
def Threads.submit (k : Sizes) (s : Threads σ) (tid : Tid) (timeout : ℤ) (pred : Bool) :
    Option (Threads σ) :=
  if tid = kExecuteInPool ∧ pred then none
  else if s.dispatcher.isDisposed then some s
  else if tid < k.kHandlersCount then
    some { s with uploads := s.uploads ++ [.forHandler tid.toNat timeout pred] }
  else some { s with uploads := s.uploads ++ [.lookingUp tid timeout] }

/-- The rest of `uploadToHandler`. Workers and new threads are not given a predicate, and a bound
scheduler is not part of the dispatcher. -/
def Threads.upload (k : Sizes) (s : Threads σ) (j : ℕ) (now : ℤ) : Option (Threads σ) :=
  match s.uploads[j]? with
  | none => none
  | some (.forHandler i timeout pred) =>
    (s.onWorker i (.request
      (if pred then .repeats now timeout true true else .addDelayed now timeout true))).map
      fun t => { t with uploads := s.uploads.eraseIdx j }
  | some (.lookingUp tid timeout) =>
    match s.dispatcher.bound.contexts tid with
    | some _ => some { s with uploads := s.uploads.eraseIdx j }
    | none => some { s with uploads := s.uploads.set j (.offering 0 timeout) }
  | some (.offering i timeout) =>
    if i < k.kPoolThreadsCount.toNat then do
      let m ← s.workers[k.kHandlersCount.toNat + i]?
      let m' ← m.exec (.request (.uploadIfFree now timeout true))
      return { s with
        workers := s.workers.set (k.kHandlersCount.toNat + i) m'
        uploads :=
          if m'.scheduler.insertions = m.scheduler.insertions then
            s.uploads.set j (.offering (i + 1) timeout)
          else s.uploads.eraseIdx j }
    else
      some { s with
        dispatcher := { s.dispatcher with
          temporaryHandlersTasksCounter := s.dispatcher.temporaryHandlersTasksCounter + 1 }
        temporaries := s.temporaries ++ [⟨.initial now, .counted timeout⟩]
        uploads := s.uploads.eraseIdx j }

/-- The stage of `dispose` after so many threads were joined. -/
def Threads.afterJoin (s : Threads σ) (i : ℕ) : Stage :=
  if i < s.workers.length then .clearing i else .waiting

/-- The next step of `AsyncDispatcher::dispose`; `none` in a call that blocks. -/
def Threads.dispose (s : Threads σ) : Option (Threads σ) :=
  match s.stage with
  | .idle =>
    some { s with
      dispatcher := { s.dispatcher with isDisposed := true }
      stage := s.afterJoin 0 }
  | .clearing i => (s.onWorker i .clear).map fun t => { t with stage := .signaling i }
  | .signaling i => (s.onWorker i .disposeSignal).map fun t => { t with stage := .notifying i }
  | .notifying i => (s.onWorker i .disposeNotify).map fun t => { t with stage := .joining i }
  | .joining i => do
    let m ← s.workers[i]?
    if m.place = .ended then some { s with stage := s.afterJoin (i + 1) } else none
  | .waiting =>
    -- the loop reads the counter again and again
    if s.dispatcher.temporaryHandlersTasksCounter = 0 then some { s with stage := .returned }
    else some s
  | .returned => none

/-- Execute one step; `none` when it is not the turn of the step. -/
def Threads.exec (k : Sizes) (s : Threads σ) : Turn σ → Option (Threads σ)
  | .submit tid timeout pred => s.submit k tid timeout pred
  | .upload j now => s.upload k j now
  | .bind scheduler =>
    match s.dispatcher.bind k scheduler with
    | .ok (d, _) => some { s with dispatcher := d }
    | .error _ => none
  | .unbind tid => some { s with dispatcher := (s.dispatcher.unbind tid).1 }
  | .worker i move => if move.isInner then s.onWorker i move else none
  | .temporary i action => do
    let h ← s.temporaries[i]?
    let (h', change) ← h.exec s.dispatcher.isDisposed action
    return { s with
      dispatcher := { s.dispatcher with
        temporaryHandlersTasksCounter := s.dispatcher.temporaryHandlersTasksCounter + change }
      temporaries := s.temporaries.set i h' }
  | .dispose => s.dispose

/-- The step leads from `s` to `t`. -/
abbrev Threads.Step (k : Sizes) (s : Threads σ) (turn : Turn σ) (t : Threads σ) : Prop :=
  s.exec k turn = some t

/-! ## What a step does -/

/-- The thread was joined. -/
def Stage.Joined (i : ℕ) : Stage → Prop
  | .idle => False
  | .clearing n | .signaling n | .notifying n | .joining n => i < n
  | .waiting | .returned => True

/-- What each step does. -/
inductive Effect (s : Threads σ) : Turn σ → Threads σ → Prop
  | submit {tid : Tid} {timeout : ℤ} {pred : Bool} (uploads : List Upload) :
      Effect s (.submit tid timeout pred) { s with uploads := uploads }
  | lookUp {j : ℕ} {now : ℤ} (uploads : List Upload) :
      Effect s (.upload j now) { s with uploads := uploads }
  | bind {scheduler : Option σ} (bound : BoundContexts σ) :
      Effect s (.bind scheduler) { s with dispatcher := { s.dispatcher with bound := bound } }
  | unbind {tid : Tid} (bound : BoundContexts σ) :
      Effect s (.unbind tid) { s with dispatcher := { s.dispatcher with bound := bound } }
  | request {j i : ℕ} {now : ℤ} {label : Scheduler.Label} {m m' : Scheduler.Machine}
      (uploads : List Upload) (hm : s.workers[i]? = some m) (hstep : m.Step (.request label) m') :
      Effect s (.upload j now) { s with workers := s.workers.set i m', uploads := uploads }
  | start {j : ℕ} {now timeout : ℤ} (uploads : List Upload) :
      Effect s (.upload j now) { s with
        dispatcher := { s.dispatcher with
          temporaryHandlersTasksCounter := s.dispatcher.temporaryHandlersTasksCounter + 1 }
        temporaries := s.temporaries ++ [⟨.initial now, .counted timeout⟩]
        uploads := uploads }
  | worker {i : ℕ} {move : Scheduler.Move} {m m' : Scheduler.Machine}
      (hinner : move.isInner = true) (hm : s.workers[i]? = some m) (hstep : m.Step move m') :
      Effect s (.worker i move) { s with workers := s.workers.set i m' }
  | temporary {i : ℕ} {action : Action} {h h' : Temporary} {change : ℤ}
      (hh : s.temporaries[i]? = some h)
      (hexec : h.exec s.dispatcher.isDisposed action = some (h', change)) :
      Effect s (.temporary i action) { s with
        dispatcher := { s.dispatcher with
          temporaryHandlersTasksCounter := s.dispatcher.temporaryHandlersTasksCounter + change }
        temporaries := s.temporaries.set i h' }
  | flag (hstage : s.stage = .idle) :
      Effect s .dispose { s with
        dispatcher := { s.dispatcher with isDisposed := true }
        stage := s.afterJoin 0 }
  | stop {i : ℕ} {move : Scheduler.Move} {m m' : Scheduler.Machine} {stage : Stage}
      (hm : s.workers[i]? = some m) (hstep : m.Step move m')
      (hstage : s.stage = .clearing i ∧ move = .clear ∧ stage = .signaling i ∨
        s.stage = .signaling i ∧ move = .disposeSignal ∧ stage = .notifying i ∨
        s.stage = .notifying i ∧ move = .disposeNotify ∧ stage = .joining i) :
      Effect s .dispose { s with workers := s.workers.set i m', stage := stage }
  | join {i : ℕ} {m : Scheduler.Machine} (hstage : s.stage = .joining i)
      (hm : s.workers[i]? = some m) (hended : m.place = .ended) :
      Effect s .dispose { s with stage := s.afterJoin (i + 1) }
  | poll (hstage : s.stage = .waiting) : Effect s .dispose s
  | leave (hstage : s.stage = .waiting)
      (hcounter : s.dispatcher.temporaryHandlersTasksCounter = 0) :
      Effect s .dispose { s with stage := .returned }

variable {k : Sizes} {s t : Threads σ} {turn : Turn σ}

/-- A step on a handler or worker is a step of its machine. -/
theorem Threads.onWorker_eq_some {i : ℕ} {move : Scheduler.Move}
    (hstep : s.onWorker i move = some t) :
    ∃ m m', s.workers[i]? = some m ∧ m.Step move m' ∧
      t = { s with workers := s.workers.set i m' } := by
  simp only [Threads.onWorker, Option.bind_eq_bind, Option.bind_eq_some_iff] at hstep
  obtain ⟨m, hm, m', hexec, ht⟩ := hstep
  exact ⟨m, m', hm, hexec, (Option.some.inj ht).symm⟩

/-- A step on a handler or worker, and what follows it. -/
theorem Threads.map_onWorker_eq_some {i : ℕ} {move : Scheduler.Move} {f : Threads σ → Threads σ}
    (hstep : (s.onWorker i move).map f = some t) :
    ∃ m m', s.workers[i]? = some m ∧ m.Step move m' ∧
      t = f { s with workers := s.workers.set i m' } := by
  obtain ⟨u, hu, rfl⟩ := Option.map_eq_some_iff.mp hstep
  obtain ⟨m, m', hm, hmove, rfl⟩ := Threads.onWorker_eq_some hu
  exact ⟨m, m', hm, hmove, rfl⟩

/-- What a step of a submission does. -/
theorem Threads.upload_effect {j : ℕ} {now : ℤ} (hstep : s.upload k j now = some t) :
    Effect s (.upload j now) t := by
  unfold Threads.upload at hstep
  split at hstep
  · cases hstep
  · obtain ⟨m, m', hm, hmove, rfl⟩ := Threads.map_onWorker_eq_some hstep
    exact .request _ hm hmove
  · split at hstep
    · cases hstep
      exact .lookUp _
    · cases hstep
      exact .lookUp _
  · split_ifs at hstep
    · simp only [Option.bind_eq_bind, Option.bind_eq_some_iff] at hstep
      obtain ⟨m, hm, m', hexec, ht⟩ := hstep
      cases ht
      exact .request _ hm hexec
    · cases hstep
      exact .start _

/-- What a step of `dispose` does. -/
theorem Threads.dispose_effect (hstep : s.dispose = some t) : Effect s .dispose t := by
  unfold Threads.dispose at hstep
  split at hstep
  · rename_i hstage
    cases hstep
    exact .flag hstage
  · rename_i i hstage
    obtain ⟨m, m', hm, hmove, rfl⟩ := Threads.map_onWorker_eq_some hstep
    exact .stop hm hmove (Or.inl ⟨hstage, rfl, rfl⟩)
  · rename_i i hstage
    obtain ⟨m, m', hm, hmove, rfl⟩ := Threads.map_onWorker_eq_some hstep
    exact .stop hm hmove (Or.inr (Or.inl ⟨hstage, rfl, rfl⟩))
  · rename_i i hstage
    obtain ⟨m, m', hm, hmove, rfl⟩ := Threads.map_onWorker_eq_some hstep
    exact .stop hm hmove (Or.inr (Or.inr ⟨hstage, rfl, rfl⟩))
  · rename_i i hstage
    simp only [Option.bind_eq_bind, Option.bind_eq_some_iff] at hstep
    obtain ⟨m, hm, hrest⟩ := hstep
    split_ifs at hrest with hended
    cases hrest
    exact .join hstage hm hended
  · rename_i hstage
    split_ifs at hstep with hcounter
    · cases hstep
      exact .leave hstage hcounter
    · cases hstep
      exact .poll hstage
  · cases hstep

/-- Every step has one of the effects. -/
theorem Threads.Step.effect (hstep : s.Step k turn t) : Effect s turn t := by
  cases turn with
  | submit tid timeout pred =>
    simp only [Threads.Step, Threads.exec, Threads.submit] at hstep
    split_ifs at hstep
    all_goals
      cases hstep
      exact .submit _
  | upload j now => exact Threads.upload_effect hstep
  | bind scheduler =>
    simp only [Threads.Step, Threads.exec] at hstep
    split at hstep
    · rename_i d tid hbind
      cases hstep
      cases scheduler with
      | none =>
        cases hbind
        exact .bind _
      | some scheduler =>
        obtain ⟨_, _, hd⟩ := bind_eq_ok.mp hbind
        cases hd
        exact .bind _
    · cases hstep
  | unbind tid =>
    cases hstep
    exact .unbind _
  | worker i move =>
    obtain ⟨hinner, hstep⟩ := Option.ite_none_right_eq_some.mp hstep
    obtain ⟨m, m', hm, hmove, rfl⟩ := Threads.onWorker_eq_some hstep
    exact .worker hinner hm hmove
  | temporary i action =>
    simp only [Threads.Step, Threads.exec, Option.bind_eq_bind, Option.bind_eq_some_iff] at hstep
    obtain ⟨h, hh, ⟨h', change⟩, hexec, ht⟩ := hstep
    cases ht
    exact .temporary hh hexec
  | dispose => exact Threads.dispose_effect hstep

end CppJam.Dispatcher
