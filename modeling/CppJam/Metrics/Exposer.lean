import CppJam.Runs

/-!
# The accept loop of the metrics server

`exposer_impl.cpp`: `start` asks for one connection, on the socket of a new session, and starts a
thread that runs the context. When a connection has come, or the request for it has failed, the
thread calls the handler of the request, which starts the session and asks for the next connection.
`stop` runs in another thread: it cancels the request, stops the context and waits for the thread.

The context and the acceptor are those of Boost.Asio. A request that is cancelled completes with an
error, a request that has completed before is not affected, and a stopped context calls no more
handlers. The handlers of the sessions run in the same thread and change nothing here.
-/

namespace CppJam.Metrics

open Runs

/-- Where the thread of the application is. -/
inductive Stage where
  /-- Before `prepare`. -/
  | created
  /-- `prepare` has returned. -/
  | prepared (ok : Bool)
  /-- In `start`, after `acceptOnce`. -/
  | accepting
  /-- `start` has returned. -/
  | started
  /-- In `stop`, after `cancel`. -/
  | cancelled
  /-- In `stop`, after the context is stopped. -/
  | stopping
  /-- `stop` has returned. -/
  | stopped
  deriving DecidableEq

/-- Where the thread of the context is. -/
inductive Place where
  /-- There is no thread. -/
  | absent
  /-- In `run`, between handlers. -/
  | running
  /-- In the handler, before it looks at the error code. -/
  | called (success : Bool)
  /-- In the handler, before it asks for the next connection. -/
  | served
  /-- `run` has returned. -/
  | ended
  deriving DecidableEq

/-- `ExposerImpl`, with its context and with what happened to connections. -/
structure Exposer (κ : Type) where
  /-- The thread of the application. -/
  stage : Stage
  /-- `thread_`. -/
  place : Place
  /-- `acceptor_` is there, and open. -/
  acceptor : Bool
  /-- The context is stopped. -/
  contextStopped : Bool
  /-- The connection of the socket of each session that was made. -/
  sockets : List (Option κ)
  /-- `new_session_`, by the number of the session. -/
  newSession : Option ℕ
  /-- The requests for a connection that are open, by the session for whose socket they are. -/
  pending : List ℕ
  /-- The handlers that the context is to call, by whether there was no error. -/
  ready : List Bool
  /-- The connections that were accepted, in order. -/
  accepted : List κ
  /-- The sessions that were started, in order, with the connection of their socket. -/
  sessions : List (ℕ × Option κ)

namespace Exposer

variable {κ : Type}

/-- The constructor. -/
def new : Exposer κ := ⟨.created, .absent, false, false, [], none, [], [], [], []⟩

/-- `acceptOnce`. -/
def acceptOnce (s : Exposer κ) : Exposer κ :=
  { s with
    sockets := s.sockets ++ [none]
    newSession := some s.sockets.length
    pending := s.pending ++ [s.sockets.length] }

/-- `acceptor_->cancel()`, if there is an acceptor. -/
def cancel (s : Exposer κ) : Exposer κ :=
  if s.acceptor then { s with pending := [], ready := s.ready ++ s.pending.map fun _ => false }
  else s

/-- A request completes with a connection. -/
def connect (s : Exposer κ) (i : ℕ) (c : κ) : Exposer κ :=
  { s with
    pending := s.pending.erase i
    sockets := s.sockets.set i (some c)
    ready := s.ready ++ [true]
    accepted := s.accepted ++ [c] }

/-- A request completes with an error. -/
def fail (s : Exposer κ) (i : ℕ) : Exposer κ :=
  { s with pending := s.pending.erase i, ready := s.ready ++ [false] }

/-- `self->new_session_->start()`, of the session `n`. -/
def startSession (s : Exposer κ) (n : ℕ) : Exposer κ :=
  { s with sessions := s.sessions ++ [(n, s.sockets[n]?.join)] }

/-- The end of the handler. -/
def acceptNext (s : Exposer κ) : Exposer κ := if s.acceptor then s.acceptOnce else s

end Exposer

/-- What happens. -/
inductive Label (κ : Type) where
  /-- `prepare`: whether there is an acceptor, and whether its option could be set. -/
  | prepare (acceptor option : Bool)
  /-- `start`, up to `acceptOnce`. -/
  | start
  /-- `start` on an acceptor that is not open. -/
  | refuse
  /-- The rest of `start`. -/
  | spawn
  /-- `stop`, up to `cancel`. -/
  | cancel
  /-- `context_->stop()`. -/
  | stopContext
  /-- The thread is joined, and `stop` returns. -/
  | join
  /-- A connection comes. -/
  | connect (c : κ)
  /-- A request fails. -/
  | fail
  /-- The context calls a handler. -/
  | call
  /-- The handler looks at the error code. -/
  | serve
  /-- The handler asks for the next connection, and returns. -/
  | acceptNext
  /-- `run` returns. -/
  | finish

/-- The step is one of the thread of the context. -/
def Label.isContext {κ : Type} : Label κ → Bool
  | .call | .serve | .acceptNext | .finish => true
  | _ => false

namespace Exposer

variable {κ : Type}

/-- Any thread takes its next step, or a request completes. `stop` is called when no other call is
running, whether or not the exposer was started. -/
inductive Step (s : Exposer κ) : Label κ → Exposer κ → Prop
  | prepare {acceptor option : Bool} : s.stage = .created →
      Step s (.prepare acceptor option)
        { s with acceptor := acceptor, stage := .prepared (acceptor && option) }
  | start : s.stage = .prepared true → s.acceptor = true →
      Step s .start { s.acceptOnce with stage := .accepting }
  | refuse : s.stage = .prepared true → s.acceptor = false →
      Step s .refuse { s with stage := .prepared false }
  | spawn : s.stage = .accepting → Step s .spawn { s with stage := .started, place := .running }
  | cancel : s.stage = .created ∨ (∃ ok, s.stage = .prepared ok) ∨ s.stage = .started →
      Step s .cancel { s.cancel with stage := .cancelled }
  | stopContext : s.stage = .cancelled →
      Step s .stopContext { s with contextStopped := true, stage := .stopping }
  | join : s.stage = .stopping → s.place = .absent ∨ s.place = .ended →
      Step s .join { s with stage := .stopped }
  | connect {i : ℕ} {c : κ} : i ∈ s.pending → Step s (.connect c) (s.connect i c)
  | fail {i : ℕ} : i ∈ s.pending → Step s .fail (s.fail i)
  | call {success : Bool} {ready : List Bool} : s.place = .running → s.contextStopped = false →
      s.ready = success :: ready →
      Step s .call { s with place := .called success, ready := ready }
  | serveSession {n : ℕ} : s.place = .called true → s.newSession = some n →
      Step s .serve { s.startSession n with place := .served }
  | serveError : s.place = .called false → Step s .serve { s with place := .served }
  | acceptNext : s.place = .served → Step s .acceptNext { s.acceptNext with place := .running }
  /-- The context is stopped, or has nothing to wait for. -/
  | finish : s.place = .running → s.contextStopped = true ∨ (s.pending = [] ∧ s.ready = []) →
      Step s .finish { s with place := .ended }

end Exposer

end CppJam.Metrics
