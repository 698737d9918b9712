import CppJam.Bytes
import CppJam.Runs

/-!
# A metrics session

`session_impl.cpp`: a session reads a request, hands it to the handler, writes the response
and reads the next request, each as an asynchronous operation whose completion starts the next
one. The handler is the one of `handler_impl.cpp`, which responds once to every request. When
a read fails, the session is stopped, but `onRead` goes on and hands over what the parser holds.
The protocol is kept exactly by the runs in which no read fails.

`need_eof` belongs to the HTTP library: for which responses it asks to close the connection is a
parameter, and nothing is assumed of it.
-/

namespace CppJam.Metrics

open Bytes Runs

/-- The error code of a completed operation. -/
inductive IoError where
  /-- `HttpError::end_of_stream`. -/
  | endOfStream
  /-- Any other error. -/
  | other (value : ℕ)
  deriving DecidableEq

/-- An HTTP request: its version, and all that the handler does not look at. -/
structure Request where
  /-- 10 for HTTP/1.0, 11 for HTTP/1.1. -/
  version : ℕ
  /-- Method, target, header fields and body. -/
  content : List Byte
  deriving DecidableEq

/-- The message of a parser that has not read anything. -/
def Request.empty : Request := ⟨11, []⟩

/-- An HTTP response. -/
structure Response where
  /-- The status code. -/
  status : ℕ
  /-- The version of HTTP. -/
  version : ℕ
  /-- The header field `Content-Type`. -/
  contentType : String
  /-- The header field `Content-Length`, if it is set. -/
  contentLength : Option ℕ
  /-- The connection is kept after the response. -/
  keepAlive : Bool
  /-- The body. -/
  body : List Byte
  deriving DecidableEq

/-- `PrometheusHandler::writeResponse`: the response to a request. -/
def writeResponse (request : Request) (body : List Byte) : Response where
  status := 200
  version := request.version
  contentType := "text/plain; charset=utf-8"
  contentLength := some body.length
  keepAlive := true
  body := body

/-- An asynchronous operation. A write is bound to whether its end closes the session. -/
inductive Operation where
  | read
  | write (close : Bool)
  deriving DecidableEq

/-- What a session does. -/
inductive Action where
  /-- `async_read` is called. -/
  | startRead
  /-- `async_write` is called. -/
  | startWrite (response : Response)
  /-- The callback for requests is called. -/
  | onRequest (request : Request)
  /-- `reportError` is called. -/
  | report (error : IoError) (message : String)
  /-- `stop` is called. -/
  | stop
  deriving DecidableEq

/-- The request that is handed to the callback. -/
def Action.request : Action → Option Request
  | .onRequest request => some request
  | _ => none

/-- A read or a write is started. -/
def Action.starts : Action → Bool
  | .startRead => true
  | .startWrite _ => true
  | _ => false

/-- `SessionImpl`. -/
structure SessionImpl where
  /-- The operations that were started and have not completed. -/
  outstanding : List Operation
  /-- The message in `parser_`. -/
  parser : Request
  /-- What the session did, in order. -/
  log : List Action

namespace SessionImpl

/-- `asyncRead`. -/
def asyncRead (s : SessionImpl) : SessionImpl :=
  ⟨s.outstanding ++ [.read], Request.empty, s.log ++ [.startRead]⟩

variable (needEof : Response → Bool)

/-- `asyncWrite`. -/
def asyncWrite (s : SessionImpl) (message : Response) : SessionImpl :=
  ⟨s.outstanding ++ [.write (needEof message)], s.parser, s.log ++ [.startWrite message]⟩

/-- `respond`. -/
def respond (s : SessionImpl) (response : Response) : SessionImpl :=
  s.asyncWrite needEof response

/-- `stop`. -/
def stop (s : SessionImpl) : SessionImpl := { s with log := s.log ++ [.stop] }

/-- `reportError`. -/
def reportError (s : SessionImpl) (error : IoError) (message : String) : SessionImpl :=
  { s with log := s.log ++ [.report error message] }

/-- `PrometheusHandler::onSessionRequest`, with the metrics as they are serialized. -/
def onSessionRequest (s : SessionImpl) (metrics : List Byte) (request : Request) : SessionImpl :=
  s.respond needEof (writeResponse request metrics)

/-- `handleRequest`: the callback is the one of the handler. -/
def handleRequest (s : SessionImpl) (metrics : List Byte) (request : Request) : SessionImpl :=
  onSessionRequest needEof { s with log := s.log ++ [.onRequest request] } metrics request

/-- `onRead`. The request is handled after an error too. -/
def onRead (s : SessionImpl) (metrics : List Byte) (ec : Option IoError) : SessionImpl :=
  let s := match ec with
    | none => s
    | some .endOfStream => s.stop
    | some (.other value) => (s.reportError (.other value) "unknown error occurred").stop
  s.handleRequest needEof metrics s.parser

/-- `onWrite`. -/
def onWrite (s : SessionImpl) (close : Bool) (ec : Option IoError) : SessionImpl :=
  match ec with
  | some error => (s.reportError error "failed to write message").stop
  | none => if close then s.stop else s.asyncRead

/-- `start`, on a new session. -/
def start : SessionImpl := asyncRead ⟨[], Request.empty, []⟩

end SessionImpl

/-- The completion of an operation. -/
inductive Completion where
  /-- A read completes; the parser holds `message`, and the metrics are about to be `metrics`. -/
  | read (ec : Option IoError) (message : Request) (metrics : List Byte)
  /-- A write completes. -/
  | write (close : Bool) (ec : Option IoError)
  deriving DecidableEq

/-- The operation that completes. -/
def Completion.operation : Completion → Operation
  | .read _ _ _ => .read
  | .write close _ => .write close

/-- The request that was read successfully. -/
def Completion.received : Completion → Option Request
  | .read none message _ => some message
  | _ => none

/-- A read fails. -/
def Completion.readFails : Completion → Bool
  | .read (some _) _ _ => true
  | _ => false

section Library

variable (needEof : Response → Bool)

/-- The call that the completion of an operation makes. -/
def SessionImpl.complete (s : SessionImpl) : Completion → SessionImpl
  | .read ec message metrics => onRead needEof { s with parser := message } metrics ec
  | .write close ec => s.onWrite close ec

/-- An outstanding operation completes. -/
def Step (s : SessionImpl) (c : Completion) (t : SessionImpl) : Prop :=
  c.operation ∈ s.outstanding ∧
    t = SessionImpl.complete needEof { s with outstanding := s.outstanding.erase c.operation } c

end Library

/-- No read or write is started after a stop. -/
def QuietAfterStop (log : List Action) : Prop :=
  ∀ front back, log = front ++ .stop :: back → ∀ action ∈ back, action.starts = false

/-- What a session should have done after some completions. -/
structure ProtocolLaw (completions : List Completion) (s : SessionImpl) : Prop where
  /-- The callback is called once for each request that was read, and for nothing else. -/
  requests_eq : s.log.filterMap Action.request = completions.filterMap Completion.received
  /-- At most one operation is outstanding. -/
  outstanding_le : s.outstanding.length ≤ 1
  /-- No read or write is started after a stop. -/
  quiet : QuietAfterStop s.log

/-! ## What a completion does -/

/-- What a failed read does before the request is handled. -/
def failureActions : Option IoError → List Action
  | none => []
  | some .endOfStream => [.stop]
  | some (.other value) => [.report (.other value) "unknown error occurred", .stop]

/-- What the session does at a completion. -/
def Completion.actions : Completion → List Action
  | .read ec message metrics =>
      failureActions ec ++ [.onRequest message, .startWrite (writeResponse message metrics)]
  | .write _ (some error) => [.report error "failed to write message", .stop]
  | .write true none => [.stop]
  | .write false none => [.startRead]

/-- The operation that the session starts at a completion, if any. -/
def Completion.follows (needEof : Response → Bool) : Completion → List Operation
  | .read _ message metrics => [.write (needEof (writeResponse message metrics))]
  | .write _ (some _) => []
  | .write true none => []
  | .write false none => [.read]

variable {needEof : Response → Bool} {s t : SessionImpl} {c : Completion}
  {completions : List Completion}

/-- A step appends to the log what the completion does, and puts the operation that it starts in
the place of the one that completes. -/
theorem Step.effects (hstep : Step needEof s c t) :
    t.log = s.log ++ c.actions ∧
      t.outstanding = s.outstanding.erase c.operation ++ c.follows needEof := by
  obtain ⟨_, rfl⟩ := hstep
  cases c with
  | read ec message metrics =>
    refine ⟨?_, ?_⟩
    · match ec with
      | none => exact List.append_assoc _ _ _
      | some .endOfStream => simp [SessionImpl.complete, SessionImpl.onRead, SessionImpl.stop,
          SessionImpl.handleRequest, SessionImpl.onSessionRequest, SessionImpl.respond,
          SessionImpl.asyncWrite, Completion.actions, failureActions]
      | some (.other value) => simp [SessionImpl.complete, SessionImpl.onRead, SessionImpl.stop,
          SessionImpl.reportError, SessionImpl.handleRequest, SessionImpl.onSessionRequest,
          SessionImpl.respond, SessionImpl.asyncWrite, Completion.actions, failureActions]
    · match ec with
      | none => rfl
      | some .endOfStream => rfl
      | some (.other value) => rfl
  | write close ec =>
    match ec, close with
    | some error, _ => exact ⟨List.append_assoc _ _ _, (List.append_nil _).symm⟩
    | none, true => exact ⟨rfl, (List.append_nil _).symm⟩
    | none, false => exact ⟨rfl, rfl⟩

/-- At most one operation is started at a completion. -/
theorem Completion.length_follows_le (needEof : Response → Bool) (c : Completion) :
    (c.follows needEof).length ≤ 1 := by
  match c with
  | .read _ _ _ => exact le_rfl
  | .write _ (some _) => exact Nat.zero_le 1
  | .write true none => exact Nat.zero_le 1
  | .write false none => exact le_rfl

/-- The callback is called once for each completed read, failed or not. -/
theorem Completion.requests_actions (c : Completion) :
    c.actions.filterMap Action.request =
      match c with
      | .read _ message _ => [message]
      | .write _ _ => [] := by
  match c with
  | .read none _ _ => rfl
  | .read (some .endOfStream) _ _ => rfl
  | .read (some (.other _)) _ _ => rfl
  | .write _ (some _) => rfl
  | .write true none => rfl
  | .write false none => rfl

/-! ## One operation at a time -/

/-- In every run at most one operation is outstanding. -/
theorem outstanding_le_one (hrun : Run (Step needEof) SessionImpl.start completions s) :
    s.outstanding.length ≤ 1 := by
  refine hrun.invariant ?_ ?_
  · exact le_rfl
  · intro completions c s t _ hle hstep
    obtain ⟨_, hout⟩ := hstep.effects
    have hone := List.length_erase_of_mem hstep.1
    have hpos := List.length_pos_of_mem hstep.1
    have hnext := c.length_follows_le needEof
    rw [hout, List.length_append]
    omega

/-- The operation that completes is the only one. -/
theorem Step.erase_eq_nil (hle : s.outstanding.length ≤ 1) (hstep : Step needEof s c t) :
    s.outstanding.erase c.operation = [] := by
  have hone := List.length_erase_of_mem hstep.1
  exact List.eq_nil_of_length_eq_zero (by omega)

/-! ## Runs with a failed read -/

/-- The callback is called once for a read that succeeds and once for one that fails. -/
theorem Completion.length_requests_actions (c : Completion) :
    (c.actions.filterMap Action.request).length =
      ([c].filterMap Completion.received).length + [c].countP Completion.readFails := by
  rw [c.requests_actions]
  match c with
  | .read none _ _ => rfl
  | .read (some _) _ _ => rfl
  | .write _ _ => rfl

/-- The callback is called as often as a read completes. -/
theorem length_requests (hrun : Run (Step needEof) SessionImpl.start completions s) :
    (s.log.filterMap Action.request).length =
      (completions.filterMap Completion.received).length +
        completions.countP Completion.readFails := by
  refine hrun.invariant ?_ ?_
  · rfl
  · intro completions c s t _ ih hstep
    obtain ⟨hlog, _⟩ := hstep.effects
    have hone := c.length_requests_actions
    rw [hlog, List.filterMap_append, List.filterMap_append, List.countP_append,
      List.length_append, List.length_append]
    omega

/-! ## Runs without failed reads -/

/-- Only the requests that were read are handed over, when no read fails. -/
theorem Completion.requests_eq_received (hc : c.readFails = false) :
    c.actions.filterMap Action.request = [c].filterMap Completion.received := by
  rw [c.requests_actions]
  match c with
  | .read none _ _ => rfl
  | .read (some _) _ _ => exact absurd hc Bool.noConfusion
  | .write _ _ => rfl

/-- What follows a log without a stop may stop at its end. -/
theorem QuietAfterStop.append {log actions : List Action} (hlog : .stop ∉ log)
    (hactions : QuietAfterStop actions) : QuietAfterStop (log ++ actions) := by
  intro front back hsplit
  rcases List.append_eq_append_iff.mp hsplit with ⟨rest, _, hrest⟩ | ⟨rest, hrest, htail⟩
  · exact hactions rest back hrest
  · cases rest with
    | nil => exact hactions [] back htail.symm
    | cons action rest =>
      obtain ⟨rfl, _⟩ := List.cons.inj htail
      exact absurd (hrest ▸ List.mem_append_right _ List.mem_cons_self) hlog

/-- A log without a stop is quiet after it. -/
theorem QuietAfterStop.of_not_mem {log : List Action} (hlog : .stop ∉ log) :
    QuietAfterStop log := by
  rintro front back rfl
  exact absurd (List.mem_append_right _ List.mem_cons_self) hlog

/-- A stop alone is quiet after it. -/
theorem QuietAfterStop.stop : QuietAfterStop [.stop] := by
  intro front back hsplit
  have hlength := congrArg List.length hsplit
  simp only [List.length_append, List.length_cons, List.length_nil] at hlength
  have hback : back = [] := List.eq_nil_of_length_eq_zero (by omega)
  simp [hback]

/-- Unless a read fails, the session stops last at a completion, if at all. -/
theorem Completion.quiet_actions (hc : c.readFails = false) : QuietAfterStop c.actions := by
  match c with
  | .read none _ _ => exact .of_not_mem (by simp [Completion.actions, failureActions])
  | .read (some _) _ _ => exact absurd hc Bool.noConfusion
  | .write _ (some error) =>
    have hreport : Action.stop ∉ [Action.report error "failed to write message"] := by simp
    exact .append hreport .stop
  | .write true none => exact .stop
  | .write false none => exact .of_not_mem (by simp [Completion.actions])

/-- Unless a read fails, nothing is started at a completion that stops the session. -/
theorem Completion.follows_of_stop (hc : c.readFails = false) (hstop : .stop ∈ c.actions) :
    c.follows needEof = [] := by
  match c with
  | .read none _ _ => simp [Completion.actions, failureActions] at hstop
  | .read (some _) _ _ => exact absurd hc Bool.noConfusion
  | .write _ (some _) => rfl
  | .write true none => rfl
  | .write false none => simp [Completion.actions] at hstop

/-- What holds along a run without failed reads: the law, and once the session has stopped nothing
is outstanding. -/
structure Orderly (completions : List Completion) (s : SessionImpl) : Prop where
  /-- The law holds. -/
  law : ProtocolLaw completions s
  /-- Nothing is outstanding after a stop. -/
  stopped : .stop ∈ s.log → s.outstanding = []

/-- The start is orderly. -/
theorem orderly_start : Orderly [] SessionImpl.start :=
  ⟨⟨rfl, le_rfl, .of_not_mem (by simp [SessionImpl.start, SessionImpl.asyncRead])⟩,
    fun hstop => absurd hstop (by simp [SessionImpl.start, SessionImpl.asyncRead])⟩

/-- A completion other than that of a failed read keeps a run orderly. -/
theorem Orderly.step (hs : Orderly completions s) (hstep : Step needEof s c t)
    (hc : c.readFails = false) : Orderly (completions ++ [c]) t := by
  obtain ⟨hlog, hout⟩ := hstep.effects
  have hrunning : .stop ∉ s.log := by
    intro hstop
    have hmem := hstep.1
    rw [hs.stopped hstop] at hmem
    exact List.not_mem_nil hmem
  rw [hstep.erase_eq_nil hs.law.outstanding_le, List.nil_append] at hout
  refine ⟨⟨?_, ?_, ?_⟩, ?_⟩
  · rw [hlog, List.filterMap_append, List.filterMap_append, hs.law.requests_eq,
      Completion.requests_eq_received hc]
  · rw [hout]
    exact c.length_follows_le needEof
  · rw [hlog]
    exact .append hrunning (Completion.quiet_actions hc)
  · intro hstop
    rw [hlog] at hstop
    rw [hout]
    exact Completion.follows_of_stop hc ((List.mem_append.mp hstop).resolve_left hrunning)

/-- A run without failed reads is orderly. -/
theorem orderly_of_run (hrun : Run (Step needEof) SessionImpl.start completions s)
    (hreads : ∀ c ∈ completions, c.readFails = false) : Orderly completions s := by
  revert hreads
  refine hrun.invariant ?_ ?_
  · exact fun _ => orderly_start
  · intro completions c s t _ ih hstep hreads
    obtain ⟨hfront, hlast⟩ := List.forall_mem_append.mp hreads
    exact (ih hfront).step hstep (hlast c (List.mem_singleton_self c))

/-- **Protocol of a session.** After any sequence of completions, the callback was called once for
each request that was read and for nothing else, at most one operation is outstanding, and no
read or write was started after a stop, exactly when no read failed. -/
theorem protocolLaw_iff (hrun : Run (Step needEof) SessionImpl.start completions s) :
    ProtocolLaw completions s ↔ ∀ c ∈ completions, c.readFails = false := by
  constructor
  · intro hlaw
    have hlength := length_requests hrun
    rw [hlaw.requests_eq] at hlength
    have hnone : completions.countP Completion.readFails = 0 := by omega
    intro c hc
    exact Bool.not_eq_true _ ▸ List.countP_eq_zero.mp hnone c hc
  · intro hreads
    exact (orderly_of_run hrun hreads).law

namespace Scenario

/-- A request for the metrics. -/
def request : Request := ⟨11, [47]⟩

/-- A library that closes the connection after a response that does not keep it. -/
def closesUnkept (response : Response) : Bool := !response.keepAlive

/-- The session after completions, with each of them taken as the completion of an outstanding
operation. -/
def session (completions : List Completion) : SessionImpl :=
  completions.foldl (fun s c => SessionImpl.complete closesUnkept
    { s with outstanding := s.outstanding.erase c.operation } c) SessionImpl.start

/-- A request is served, and another one is read. -/
def twoRequests : List Completion :=
  [.read none request [], .write false none, .read none request []]

end Scenario

/-- Two requests are handed over, one after the other. -/
theorem protocolLaw_iff_two_requests :
    ProtocolLaw Scenario.twoRequests (Scenario.session Scenario.twoRequests) := by
  have hrun : Run (Step Scenario.closesUnkept) SessionImpl.start Scenario.twoRequests
      (Scenario.session Scenario.twoRequests) :=
    ((Run.nil.snoc ⟨by decide, rfl⟩).snoc ⟨by decide, rfl⟩).snoc ⟨by decide, rfl⟩
  exact (protocolLaw_iff hrun).mpr (by decide)

/-- The client closes the connection: the callback is called for a request that was not read, and
a write is started after the stop. -/
theorem not_protocolLaw_end_of_stream :
    Run (Step Scenario.closesUnkept) SessionImpl.start [.read (some .endOfStream) Request.empty []]
        (Scenario.session [.read (some .endOfStream) Request.empty []]) ∧
      (Scenario.session [.read (some .endOfStream) Request.empty []]).log =
        [.startRead, .stop, .onRequest Request.empty,
          .startWrite (writeResponse Request.empty [])] ∧
      ¬ProtocolLaw [.read (some .endOfStream) Request.empty []]
        (Scenario.session [.read (some .endOfStream) Request.empty []]) := by
  refine ⟨Run.nil.snoc ⟨by decide, rfl⟩, rfl, ?_⟩
  intro hlaw
  exact absurd hlaw.requests_eq (by decide)

end CppJam.Metrics
