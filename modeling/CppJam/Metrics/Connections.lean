import CppJam.Metrics.Exposer

/-!
# Connections and sessions

From the start on there is one request for a connection, and at each moment it is in one place: it
is open, its handler is to be called, or its handler is running. It is for the socket of
`new_session_` all this time, so the handler starts the session that has the connection.
-/

namespace CppJam.Metrics

open Runs

variable {κ : Type} {s t : Exposer κ} {label : Label κ} {n : ℕ} {rest : Option κ}

/-- The thread is in the handler. -/
def Place.inHandler : Place → Bool
  | .called _ | .served => true
  | .absent | .running | .ended => false

namespace Exposer

/-- How many requests and handlers there are. -/
def outstanding (s : Exposer κ) : ℕ :=
  s.pending.length + s.ready.length + if s.place.inHandler then 1 else 0

/-- Where the request for the session `n` is, with the connection that no session has served. -/
inductive Request (s : Exposer κ) (n : ℕ) : Option κ → Prop
  | pending : s.pending = [n] → s.ready = [] → s.place.inHandler = false → Request s n none
  | ready {c : κ} : s.pending = [] → s.ready = [true] → s.place.inHandler = false →
      s.sockets[n]? = some (some c) → Request s n (some c)
  | failed : s.pending = [] → s.ready = [false] → s.place.inHandler = false → Request s n none
  | called {c : κ} : s.pending = [] → s.ready = [] → s.place = .called true →
      s.sockets[n]? = some (some c) → Request s n (some c)
  | calledFailed : s.pending = [] → s.ready = [] → s.place = .called false → Request s n none
  | served : s.pending = [] → s.ready = [] → s.place = .served → Request s n none

/-- The exposer was not started. -/
structure Idle (s : Exposer κ) : Prop where
  stage : s.stage ≠ .accepting ∧ s.stage ≠ .started
  place : s.place = .absent
  pending : s.pending = []
  ready : s.ready = []
  sockets : s.sockets = []
  accepted : s.accepted = []
  sessions : s.sessions = []

/-- The exposer was started, and `n` is its last session. -/
structure Active (s : Exposer κ) (n : ℕ) (rest : Option κ) : Prop where
  stage : s.stage ≠ .created ∧ ∀ ok, s.stage ≠ .prepared ok
  place : s.stage = .accepting → s.place = .absent
  acceptor : s.acceptor = true
  newSession : s.newSession = some n
  sockets : s.sockets.length = n + 1
  request : Request s n rest
  accepted : s.accepted.map some = s.sessions.map Prod.snd ++ rest.toList.map some
  increasing : (s.sessions.map Prod.fst).Pairwise (· < ·)
  below : ∀ x ∈ s.sessions, x.1 < n ∨ s.place = .served ∧ x.1 = n

/-- What holds at every moment. -/
structure Orderly (s : Exposer κ) : Prop where
  connections : s.Idle ∨ ∃ n rest, s.Active n rest
  joined : s.stage = .stopped → s.place = .absent ∨ s.place = .ended
  closed : s.stage = .stopping → s.contextStopped = true

/-! ## Requests -/

/-- A step that leaves the request where it is. -/
theorem Request.of_eq (h : Request s n rest) (hpending : t.pending = s.pending)
    (hready : t.ready = s.ready) (hsockets : t.sockets = s.sockets) (hplace : t.place = s.place) :
    Request t n rest := by
  cases h with
  | pending hp hr hh => exact .pending (by rwa [hpending]) (by rwa [hready]) (by rwa [hplace])
  | ready hp hr hh hs =>
    exact .ready (by rwa [hpending]) (by rwa [hready]) (by rwa [hplace]) (by rwa [hsockets])
  | failed hp hr hh => exact .failed (by rwa [hpending]) (by rwa [hready]) (by rwa [hplace])
  | called hp hr hh hs =>
    exact .called (by rwa [hpending]) (by rwa [hready]) (by rwa [hplace]) (by rwa [hsockets])
  | calledFailed hp hr hh =>
    exact .calledFailed (by rwa [hpending]) (by rwa [hready]) (by rwa [hplace])
  | served hp hr hh => exact .served (by rwa [hpending]) (by rwa [hready]) (by rwa [hplace])

/-- The thread goes from one place outside the handler to another. -/
theorem Request.outside (h : Request s n rest) (hpending : t.pending = s.pending)
    (hready : t.ready = s.ready) (hsockets : t.sockets = s.sockets)
    (hbefore : s.place.inHandler = false) (hafter : t.place.inHandler = false) :
    Request t n rest := by
  cases h with
  | pending hp hr hh => exact .pending (by rwa [hpending]) (by rwa [hready]) hafter
  | ready hp hr hh hs =>
    exact .ready (by rwa [hpending]) (by rwa [hready]) hafter (by rwa [hsockets])
  | failed hp hr hh => exact .failed (by rwa [hpending]) (by rwa [hready]) hafter
  | called _ _ hh | calledFailed _ _ hh | served _ _ hh =>
    rw [hh] at hbefore
    cases hbefore

/-- There is one request. -/
theorem Request.outstanding_eq (h : Request s n rest) : s.outstanding = 1 := by
  cases h with
  | pending hp hr hh | ready hp hr hh | failed hp hr hh => simp [outstanding, hp, hr, hh]
  | called hp hr hh | calledFailed hp hr hh | served hp hr hh =>
    simp [outstanding, hp, hr, hh, Place.inHandler]

/-- Cancelling makes an open request fail. -/
theorem Request.cancel (h : Request s n rest) (hacceptor : s.acceptor = true) :
    Request { s.cancel with stage := .cancelled } n rest := by
  have hcancel : s.cancel =
      { s with pending := [], ready := s.ready ++ s.pending.map fun _ => false } := if_pos hacceptor
  rw [hcancel]
  cases h with
  | pending hp hr hh => exact .failed rfl (by simp [hp, hr]) hh
  | ready hp hr hh hs => exact .ready rfl (by simp [hp, hr]) hh hs
  | failed hp hr hh => exact .failed rfl (by simp [hp, hr]) hh
  | called hp hr hh hs => exact .called rfl (by simp [hp, hr]) hh hs
  | calledFailed hp hr hh => exact .calledFailed rfl (by simp [hp, hr]) hh
  | served hp hr hh => exact .served rfl (by simp [hp, hr]) hh

/-- An open request is for the last session, and no connection waits. -/
theorem Request.of_mem_pending (h : Request s n rest) {i : ℕ} (hi : i ∈ s.pending) :
    i = n ∧ s.pending = [n] ∧ s.ready = [] ∧ s.place.inHandler = false ∧ rest = none := by
  cases h with
  | pending hp hr hh =>
    rw [hp] at hi
    exact ⟨List.mem_singleton.mp hi, hp, hr, hh, rfl⟩
  | ready hp | failed hp | called hp | calledFailed hp | served hp =>
    rw [hp] at hi
    cases hi

/-! ## Steps -/

/-- A step that makes no session and takes no connection. -/
theorem Active.of_eq (h : Active s n rest)
    (hstage : t.stage ≠ .created ∧ ∀ ok, t.stage ≠ .prepared ok)
    (haccepting : t.stage = .accepting → t.place = .absent) (hacceptor : t.acceptor = s.acceptor)
    (hnew : t.newSession = s.newSession) (hsockets : t.sockets = s.sockets)
    (haccepted : t.accepted = s.accepted) (hsessions : t.sessions = s.sessions)
    (hserved : s.place = .served → t.place = .served) (hrequest : Request t n rest) :
    Active t n rest where
  stage := hstage
  place := haccepting
  acceptor := hacceptor.trans h.acceptor
  newSession := hnew.trans h.newSession
  sockets := by rw [hsockets, h.sockets]
  request := hrequest
  accepted := by rw [haccepted, hsessions, h.accepted]
  increasing := by
    rw [hsessions]
    exact h.increasing
  below := by
    intro x hx
    rw [hsessions] at hx
    exact (h.below x hx).imp_right fun hx => ⟨hserved hx.1, hx.2⟩

/-- The thread of the context is there only after `start`. -/
theorem Active.not_accepting (h : Active s n rest) (hplace : s.place ≠ .absent) {place : Place} :
    s.stage = .accepting → place = .absent :=
  fun hstage => absurd (h.place hstage) hplace

/-- `start` asks for the first connection. -/
theorem Idle.start (h : Idle s) (hacceptor : s.acceptor = true) :
    Active { s.acceptOnce with stage := .accepting } 0 none where
  stage := ⟨by simp, by simp⟩
  place := fun _ => h.place
  acceptor := hacceptor
  newSession := by simp [acceptOnce, h.sockets]
  sockets := by simp [acceptOnce, h.sockets]
  request := by
    refine .pending ?_ h.ready ?_
    · simp [acceptOnce, h.sockets, h.pending]
    · simp [acceptOnce, h.place, Place.inHandler]
  accepted := by simp [acceptOnce, h.accepted, h.sessions]
  increasing := by simp [acceptOnce, h.sessions]
  below := by simp [acceptOnce, h.sessions]

/-- A connection comes to the socket of the last session. -/
theorem Active.connect (h : Active s n rest) {i : ℕ} (hi : i ∈ s.pending) (c : κ) :
    Active (s.connect i c) n (some c) := by
  obtain ⟨rfl, hpending, hready, houtside, rfl⟩ := h.request.of_mem_pending hi
  refine ⟨h.stage, h.place, h.acceptor, h.newSession, ?_, .ready ?_ ?_ houtside ?_, ?_,
    h.increasing, h.below⟩
  · rw [Exposer.connect, List.length_set, h.sockets]
  · simp [Exposer.connect, hpending]
  · simp [Exposer.connect, hready]
  · have hlt : i < s.sockets.length := by
      rw [h.sockets]
      exact i.lt_succ_self
    simp [Exposer.connect, hlt]
  · have haccepted := h.accepted
    simp only [Option.toList_none, List.map_nil, List.append_nil] at haccepted
    simp [Exposer.connect, haccepted]

/-- The session of the connection is started. -/
theorem Active.startSession (h : Active s n rest) (hplace : s.place = .called true) {i : ℕ}
    (hi : s.newSession = some i) :
    Active { s.startSession i with place := .served } n none := by
  obtain rfl : i = n := Option.some.inj (hi.symm.trans h.newSession)
  have hbelow : ∀ x ∈ s.sessions, x.1 < i := by
    intro x hx
    obtain hlt | ⟨hserved, _⟩ := h.below x hx
    · exact hlt
    · rw [hplace] at hserved
      cases hserved
  cases h.request with
  | pending _ _ hh | ready _ _ hh | failed _ _ hh =>
    rw [hplace] at hh
    cases hh
  | calledFailed _ _ hh | served _ _ hh =>
    rw [hplace] at hh
    cases hh
  | called hpending hready _ hsocket =>
    refine ⟨h.stage, h.not_accepting (by simp [hplace]), h.acceptor, h.newSession, h.sockets,
      .served hpending hready rfl, ?_, ?_, ?_⟩
    · simpa [Exposer.startSession, hsocket] using h.accepted
    · simp only [Exposer.startSession, List.map_append, List.map_cons, List.map_nil]
      refine List.pairwise_append.mpr ⟨h.increasing, List.pairwise_singleton _ _, ?_⟩
      simpa using fun x c hx => hbelow (x, c) hx
    · intro x hx
      rcases List.mem_append.mp hx with hx | hx
      · exact Or.inl (hbelow x hx)
      · exact Or.inr ⟨rfl, congrArg Prod.fst (List.mem_singleton.mp hx)⟩

/-- The handler asks for the next connection. -/
theorem Active.acceptNext (h : Active s n rest) (hplace : s.place = .served) :
    Active { s.acceptNext with place := .running } (n + 1) none := by
  rw [Exposer.acceptNext, if_pos h.acceptor]
  cases h.request with
  | pending _ _ hh | ready _ _ hh | failed _ _ hh =>
    rw [hplace] at hh
    cases hh
  | called _ _ hh | calledFailed _ _ hh =>
    rw [hplace] at hh
    cases hh
  | served hpending hready _ =>
    refine ⟨h.stage, h.not_accepting (by simp [hplace]), h.acceptor, ?_, ?_,
      .pending ?_ hready rfl, h.accepted, h.increasing, fun x hx => Or.inl ?_⟩
    · rw [acceptOnce, h.sockets]
    · simp [acceptOnce, h.sockets]
    · simp [acceptOnce, h.sockets, hpending]
    · obtain hlt | ⟨_, heq⟩ := h.below x hx <;> omega

/-- A step of the thread of the context. -/
theorem Orderly.context (h : Orderly s) (habsent : s.place ≠ .absent) (hended : s.place ≠ .ended)
    (hstage : t.stage = s.stage) (hstopped : t.contextStopped = s.contextStopped)
    (hstep : ∀ n rest, Active s n rest → ∃ n' rest', Active t n' rest') : Orderly t where
  connections := by
    obtain hidle | ⟨n, rest, hactive⟩ := h.connections
    · exact absurd hidle.place habsent
    · exact Or.inr (hstep n rest hactive)
  joined := by
    intro hjoined
    rw [hstage] at hjoined
    exact ((h.joined hjoined).elim habsent hended).elim
  closed := by
    intro hclosed
    rw [hstage] at hclosed
    rw [hstopped]
    exact h.closed hclosed

/-- A request completes. -/
theorem Orderly.completed (h : Orderly s) {i : ℕ} (hi : i ∈ s.pending) (hstage : t.stage = s.stage)
    (hplace : t.place = s.place) (hstopped : t.contextStopped = s.contextStopped)
    (hstep : ∀ n rest, Active s n rest → ∃ rest', Active t n rest') : Orderly t where
  connections := by
    obtain hidle | ⟨n, rest, hactive⟩ := h.connections
    · rw [hidle.pending] at hi
      cases hi
    · exact Or.inr ⟨n, hstep n rest hactive⟩
  joined := by
    rw [hstage, hplace]
    exact h.joined
  closed := by
    rw [hstage, hstopped]
    exact h.closed

/-- `stop` cancels the request. -/
theorem Orderly.cancel (h : Orderly s) : Orderly { s.cancel with stage := .cancelled } := by
  refine ⟨h.connections.imp ?_ ?_, by rintro ⟨⟩, by rintro ⟨⟩⟩
  · intro hidle
    unfold Exposer.cancel
    split_ifs with hacceptor
    · exact ⟨⟨by simp, by simp⟩, hidle.place, rfl, by simp [hidle.ready, hidle.pending],
        hidle.sockets, hidle.accepted, hidle.sessions⟩
    · exact ⟨⟨by simp, by simp⟩, hidle.place, hidle.pending, hidle.ready, hidle.sockets,
        hidle.accepted, hidle.sessions⟩
  · rintro ⟨n, rest, hactive⟩
    have hrequest := hactive.request.cancel hactive.acceptor
    have hcancel : s.cancel = { s with
        pending := [], ready := s.ready ++ s.pending.map fun _ => false } :=
      if_pos hactive.acceptor
    rw [hcancel] at hrequest ⊢
    exact ⟨n, rest, hactive.of_eq ⟨by simp, by simp⟩ (by rintro ⟨⟩) rfl rfl rfl rfl rfl id hrequest⟩

/-- `stop` goes on. -/
theorem Orderly.stop (h : Orderly s) {stage : Stage} {stopped : Bool}
    (hstage : stage = .stopping ∨ stage = .stopped)
    (hclosed : stage = .stopping → stopped = true)
    (hjoined : stage = .stopped → s.place = .absent ∨ s.place = .ended) :
    Orderly { s with stage := stage, contextStopped := stopped } := by
  refine ⟨h.connections.imp ?_ ?_, hjoined, hclosed⟩
  · intro hidle
    refine ⟨?_, hidle.place, hidle.pending, hidle.ready, hidle.sockets, hidle.accepted,
      hidle.sessions⟩
    obtain rfl | rfl := hstage <;> simp
  · rintro ⟨n, rest, hactive⟩
    refine ⟨n, rest, hactive.of_eq ?_ ?_ rfl rfl rfl rfl rfl id
      (hactive.request.of_eq rfl rfl rfl rfl)⟩
    · obtain rfl | rfl := hstage <;> simp
    · obtain rfl | rfl := hstage <;> simp

/-- Every step keeps the order. -/
theorem Orderly.step (h : Orderly s) (hstep : s.Step label t) : Orderly t := by
  cases hstep with
  | @prepare acceptor option hstage =>
    obtain hidle | ⟨n, rest, hactive⟩ := h.connections
    · exact ⟨Or.inl ⟨⟨by simp, by simp⟩, hidle.place, hidle.pending, hidle.ready, hidle.sockets,
        hidle.accepted, hidle.sessions⟩, by rintro ⟨⟩, by rintro ⟨⟩⟩
    · exact absurd hstage hactive.stage.1
  | start hstage hacceptor =>
    obtain hidle | ⟨n, rest, hactive⟩ := h.connections
    · exact ⟨Or.inr ⟨0, none, hidle.start hacceptor⟩, by rintro ⟨⟩, by rintro ⟨⟩⟩
    · exact absurd hstage (hactive.stage.2 true)
  | refuse hstage hacceptor =>
    obtain hidle | ⟨n, rest, hactive⟩ := h.connections
    · exact ⟨Or.inl ⟨⟨by simp, by simp⟩, hidle.place, hidle.pending, hidle.ready, hidle.sockets,
        hidle.accepted, hidle.sessions⟩, by rintro ⟨⟩, by rintro ⟨⟩⟩
    · exact absurd hstage (hactive.stage.2 true)
  | spawn hstage =>
    obtain hidle | ⟨n, rest, hactive⟩ := h.connections
    · exact absurd hstage hidle.stage.1
    · have habsent := hactive.place hstage
      have hbefore : s.place.inHandler = false := by
        rw [habsent]
        rfl
      refine ⟨Or.inr ⟨n, rest, hactive.of_eq ⟨by simp, by simp⟩ (by rintro ⟨⟩) rfl rfl rfl rfl rfl
        (by simp [habsent]) (hactive.request.outside rfl rfl rfl hbefore rfl)⟩, by rintro ⟨⟩,
        by rintro ⟨⟩⟩
  | cancel hstage => exact h.cancel
  | stopContext hstage => exact h.stop (Or.inl rfl) (fun _ => rfl) (by rintro ⟨⟩)
  | join hstage hplace => exact h.stop (Or.inr rfl) (by rintro ⟨⟩) (fun _ => hplace)
  | @connect i c hi =>
    exact h.completed hi rfl rfl rfl fun n rest hactive => ⟨_, hactive.connect hi c⟩
  | @fail i hi =>
    refine h.completed hi rfl rfl rfl fun n rest hactive => ?_
    obtain ⟨rfl, hpending, hready, houtside, rfl⟩ := hactive.request.of_mem_pending hi
    refine ⟨none, hactive.of_eq hactive.stage hactive.place rfl rfl rfl rfl rfl id
      (.failed ?_ ?_ houtside)⟩
    · simp [Exposer.fail, hpending]
    · simp [Exposer.fail, hready]
  | @call success ready hplace hopen hready =>
    refine h.context (by simp [hplace]) (by simp [hplace]) rfl rfl fun n rest hactive => ?_
    refine ⟨n, rest, hactive.of_eq hactive.stage (hactive.not_accepting (by simp [hplace])) rfl rfl
      rfl rfl rfl (by simp [hplace]) ?_⟩
    cases hactive.request with
      | pending _ hr | called _ hr | calledFailed _ hr | served _ hr =>
        rw [hr] at hready
        cases hready
      | ready hpending hr _ hsocket =>
        rw [hr] at hready
        cases hready
        exact .called hpending rfl rfl hsocket
      | failed hpending hr _ =>
        rw [hr] at hready
        cases hready
        exact .calledFailed hpending rfl rfl
  | serveSession hplace hnew =>
    exact h.context (by simp [hplace]) (by simp [hplace]) rfl rfl fun n rest hactive =>
      ⟨n, none, hactive.startSession hplace hnew⟩
  | serveError hplace =>
    refine h.context (by simp [hplace]) (by simp [hplace]) rfl rfl fun n rest hactive => ?_
    refine ⟨n, rest, hactive.of_eq hactive.stage (hactive.not_accepting (by simp [hplace])) rfl rfl
      rfl rfl rfl (fun _ => rfl) ?_⟩
    cases hactive.request with
      | pending _ _ hh | ready _ _ hh | failed _ _ hh =>
        rw [hplace] at hh
        cases hh
      | called _ _ hh | served _ _ hh =>
        rw [hplace] at hh
        cases hh
      | calledFailed hpending hready _ => exact .served hpending hready rfl
  | acceptNext hplace =>
    refine h.context (by simp [hplace]) (by simp [hplace]) ?_ ?_ fun n rest hactive =>
      ⟨n + 1, none, hactive.acceptNext hplace⟩
    · unfold Exposer.acceptNext
      split_ifs <;> rfl
    · unfold Exposer.acceptNext
      split_ifs <;> rfl
  | finish hplace hdone =>
    refine h.context (by simp [hplace]) (by simp [hplace]) rfl rfl fun n rest hactive => ?_
    exact ⟨n, rest, hactive.of_eq hactive.stage (hactive.not_accepting (by simp [hplace])) rfl rfl
      rfl rfl rfl (by simp [hplace])
      (hactive.request.outside rfl rfl rfl (by rw [hplace]; rfl) rfl)⟩

/-! ## Whole runs -/

/-- The order holds along every run. -/
theorem orderly_of_run {trace : List (Label κ)} (hrun : Run Step new trace s) : Orderly s := by
  refine hrun.invariant (I := fun _ s => Orderly s) ?_ fun _ h hstep => h.step hstep
  exact ⟨Or.inl ⟨⟨by simp [new], by simp [new]⟩, rfl, rfl, rfl, rfl, rfl, rfl⟩, by rintro ⟨⟩,
    by rintro ⟨⟩⟩

/-- After `stop` no session is started. -/
theorem Orderly.sessions_kept (h : Orderly s) (hstopped : s.stage = .stopped)
    {later : List (Label κ)} (hrun : Run Step s later t) : t.sessions = s.sessions := by
  have hkept : t.stage = .stopped ∧ (t.place = .absent ∨ t.place = .ended) ∧
      t.sessions = s.sessions := by
    refine hrun.invariant (I := fun _ t => t.stage = .stopped ∧
      (t.place = .absent ∨ t.place = .ended) ∧ t.sessions = s.sessions) ?_ ?_
    · exact ⟨hstopped, h.joined hstopped, rfl⟩
    · rintro later label t u _ ⟨hstage, hplace, hsessions⟩ hstep
      cases hstep with
      | prepare hs | spawn hs | stopContext hs =>
        rw [hstage] at hs
        cases hs
      | start hs _ | refuse hs _ | join hs _ =>
        rw [hstage] at hs
        cases hs
      | cancel hs =>
        rw [hstage] at hs
        simp at hs
      | connect _ | fail _ => exact ⟨hstage, hplace, hsessions⟩
      | call hp | serveSession hp | serveError hp | acceptNext hp | finish hp =>
        rw [hp] at hplace
        simp at hplace
  exact hkept.2.2

end Exposer

/-- **Each connection once.** However the threads interleave and whenever connections come, there
is at most one request or handler at a time, and the connections of the sessions that were started
are the accepted connections in order, without the last one as long as its handler has not started
its session. The sessions are all different, and none is started after `stop` has returned. -/
theorem each_connection_once {trace : List (Label κ)} (hrun : Run Exposer.Step .new trace s) :
    s.outstanding ≤ 1 ∧ (s.sessions.map Prod.fst).Pairwise (· < ·) ∧
    (∃ rest : List κ, s.accepted.map some = s.sessions.map Prod.snd ++ rest.map some ∧
      rest.length ≤ 1 ∧ (s.ready = [] → s.place.inHandler = false → rest = [])) ∧
    (s.stage = .stopped → ∀ later t, Run Exposer.Step s later t → t.sessions = s.sessions) := by
  have h := Exposer.orderly_of_run hrun
  have hlater : s.stage = .stopped → ∀ later t, Run Exposer.Step s later t →
      t.sessions = s.sessions := fun hstopped later t => h.sessions_kept hstopped
  obtain hidle | ⟨n, rest, hactive⟩ := h.connections
  · refine ⟨?_, ?_, ⟨[], ?_, Nat.zero_le 1, fun _ _ => rfl⟩, hlater⟩
    · simp [Exposer.outstanding, hidle.pending, hidle.ready, hidle.place, Place.inHandler]
    · simp [hidle.sessions]
    · simp [hidle.sessions, hidle.accepted]
  · refine ⟨hactive.request.outstanding_eq.le, hactive.increasing,
      ⟨rest.toList, hactive.accepted, ?_, ?_⟩, hlater⟩
    · cases rest <;> simp
    · intro hready hplace
      cases hactive.request with
      | pending | failed | calledFailed | served => rfl
      | ready _ hr =>
        rw [hr] at hready
        cases hready
      | called _ _ hh =>
        rw [hh] at hplace
        cases hplace

namespace Scenario

/-- The first session, with its connection. -/
def firstSession : Exposer ℕ :=
  ⟨.started, .served, true, false, [some 7], some 0, [], [], [7], [(0, some 7)]⟩

/-- A connection comes before the thread runs, and its session is started. -/
theorem run_firstSession : Run Exposer.Step .new
    [.prepare true true, .start, .connect 7, .spawn, .call, .serve] firstSession :=
  (((((Run.nil.snoc (.prepare rfl)).snoc (.start rfl rfl)).snoc
    (.connect (List.mem_singleton_self 0))).snoc (.spawn rfl)).snoc (.call rfl rfl rfl)).snoc
    (.serveSession rfl rfl)

end Scenario

/-- The connection that came before the thread ran has its session. -/
theorem each_connection_once_first :
    Scenario.firstSession.outstanding ≤ 1 ∧ Scenario.firstSession.accepted = [7] :=
  ⟨(each_connection_once Scenario.run_firstSession).1, rfl⟩

/-! ## The end of `stop` -/

/-- How many steps the thread of the context can still take when the context is stopped. -/
def Place.rank : Place → ℕ
  | .absent | .ended => 0
  | .running => 1
  | .served => 2
  | .called _ => 3

/-- The context is stopped for good. -/
structure Exposer.Closing (s : Exposer κ) : Prop where
  stage : s.stage = .stopping ∨ s.stage = .stopped
  closed : s.contextStopped = true

/-- The thread gets nearer to its end with each of its steps. -/
theorem Exposer.Closing.step (h : s.Closing) (hstep : s.Step label t) :
    t.Closing ∧ t.place.rank ≤ s.place.rank ∧
      (label.isContext = true → t.place.rank < s.place.rank) := by
  obtain ⟨hstage, hclosed⟩ := h
  cases hstep with
  | prepare hs | spawn hs | stopContext hs =>
    rw [hs] at hstage
    simp at hstage
  | start hs _ | refuse hs _ =>
    rw [hs] at hstage
    simp at hstage
  | cancel hs =>
    obtain hstage | hstage := hstage <;> simp [hstage] at hs
  | join hs hplace => exact ⟨⟨Or.inr rfl, hclosed⟩, le_rfl, by rintro ⟨⟩⟩
  | connect _ | fail _ => exact ⟨⟨hstage, hclosed⟩, le_rfl, by rintro ⟨⟩⟩
  | call _ hopen _ =>
    rw [hclosed] at hopen
    cases hopen
  | serveSession hplace _ | serveError hplace | finish hplace _ =>
    rw [hplace]
    exact ⟨⟨hstage, hclosed⟩, by simp [Place.rank], fun _ => by simp [Place.rank]⟩
  | acceptNext hplace =>
    have hkept : s.acceptNext.stage = s.stage ∧
        s.acceptNext.contextStopped = s.contextStopped := by
      unfold Exposer.acceptNext
      split_ifs <;> exact ⟨rfl, rfl⟩
    rw [hplace]
    refine ⟨⟨?_, hkept.2.trans hclosed⟩, by simp [Place.rank], fun _ => by simp [Place.rank]⟩
    simpa [hkept.1] using hstage

/-- **`stop` returns.** When the context is stopped, in whatever place its thread is and whatever
comes then, the thread takes at most three more steps, and as long as it has not ended it can take
one; when it has ended, or was never there, `stop` can return. -/
theorem stop_returns {trace : List (Label κ)} (hrun : Run Exposer.Step .new trace s)
    (hstage : s.stage = .stopping) :
    (∀ later t, Run Exposer.Step s later t → later.countP Label.isContext ≤ 3) ∧
    ((∃ t, s.Step .join t) ∨ ∃ label t, label.isContext = true ∧ s.Step label t) := by
  have h := Exposer.orderly_of_run hrun
  have hclosed := h.closed hstage
  constructor
  · intro later t hlater
    have hrank : s.place.rank ≤ 3 := by cases s.place <;> simp [Place.rank]
    have hstep : ∀ ⦃t : Exposer κ⦄ ⦃label u⦄, t.Step label u → t.Closing →
        u.Closing ∧ u.place.rank ≤ t.place.rank ∧
          (label.isContext = true → u.place.rank < t.place.rank) :=
      fun _ _ _ hstep hclosing => hclosing.step hstep
    obtain ⟨_, hcount⟩ := Run.countP_le hstep ⟨Or.inl hstage, hclosed⟩ hlater
    omega
  · cases hplace : s.place with
    | absent => exact Or.inl ⟨_, .join hstage (Or.inl hplace)⟩
    | ended => exact Or.inl ⟨_, .join hstage (Or.inr hplace)⟩
    | running => exact Or.inr ⟨.finish, _, rfl, .finish hplace (Or.inl hclosed)⟩
    | served => exact Or.inr ⟨.acceptNext, _, rfl, .acceptNext hplace⟩
    | called success =>
      obtain hidle | ⟨n, rest, hactive⟩ := h.connections
      · rw [hidle.place] at hplace
        cases hplace
      · cases success with
        | true => exact Or.inr ⟨.serve, _, rfl, .serveSession hplace hactive.newSession⟩
        | false => exact Or.inr ⟨.serve, _, rfl, .serveError hplace⟩

/-- `stop` comes while the first session is being served: the thread asks once more for a
connection before it ends. -/
theorem stop_returns_serving :
    ∃ s : Exposer ℕ, s.stage = .stopping ∧ s.place = .served ∧
      ∀ later t, Run Exposer.Step s later t → later.countP Label.isContext ≤ 3 := by
  have hrun := (Scenario.run_firstSession.snoc (.cancel (Or.inr (Or.inr rfl)))).snoc
    (.stopContext rfl)
  exact ⟨_, rfl, rfl, (stop_returns hrun rfl).1⟩

end CppJam.Metrics
