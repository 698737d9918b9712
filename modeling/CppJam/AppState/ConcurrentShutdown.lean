import CppJam.AppState.Steps
import CppJam.Runs

/-!
# The state under concurrent requests to shut down

`StateManagerImpl::shutdown` reads the state twice and then stores `ShuttingDown`. Calls
from several threads interleave with `run` and with each other at these steps. The state
never moves backwards exactly when no call stores after the application has become ready
to stop; a call that does makes `run` throw.
-/

namespace CppJam.AppState

open Runs

variable {Callback : Type} [DecidableEq Callback]

/-- The next step of a call of `shutdown`. -/
inductive ShutdownPc where
  /-- Compare the state with `ReadyToStop`. -/
  | first
  /-- Compare the state with `ShuttingDown`. -/
  | second
  /-- Store `ShuttingDown`. -/
  | store
  | done
  deriving DecidableEq

/-- A step of a call of `shutdown`. -/
def ShutdownPc.exec (state : State) : ShutdownPc → Option (State × ShutdownPc)
  | first => some (state, if state = .readyToStop then done else second)
  | second => some (state, if state = .shuttingDown then done else store)
  | store => some (.shuttingDown, done)
  | done => none

/-- A manager and any number of calls of `shutdown`, made at any time. -/
structure System (Callback : Type) where
  manager : Manager Callback
  calls : ℕ → ShutdownPc

/-- A new manager, before all calls. -/
def System.initial : System Callback := ⟨Manager.initial, fun _ => .first⟩

/-- The steps of a system. -/
inductive Event (Callback : Type) where
  | act (action : Action Callback)
  /-- The next step of a call of `shutdown`. -/
  | shutdown (call : ℕ)
  deriving DecidableEq

/-- Execute a step, if it is possible. -/
def System.exec (s : System Callback) : Event Callback → Option (System Callback)
  | .act action => do
    let m ← s.manager.exec action
    return ⟨m, s.calls⟩
  | .shutdown call => do
    let (state, pc) ← (s.calls call).exec s.manager.state
    return ⟨{ s.manager with state := state }, Function.update s.calls call pc⟩

/-- The steps of a system as a relation. -/
def System.Step (s : System Callback) (event : Event Callback) (s' : System Callback) : Prop :=
  s.exec event = some s'

/-- What the steps of a system are. -/
theorem System.Step.cases {s s' : System Callback} {event : Event Callback}
    (hstep : System.Step s event s') :
    (∃ action, event = .act action ∧ Move s.manager action s'.manager) ∨
    ∃ call, event = .shutdown call ∧ s'.manager.pc = s.manager.pc ∧
      (s'.manager.state = s.manager.state ∨
        s.calls call = .store ∧ s'.manager.state = .shuttingDown) := by
  cases event with
  | act action =>
    simp only [System.Step, System.exec, Option.bind_eq_bind, Option.bind_eq_some_iff] at hstep
    obtain ⟨m, hm, hs'⟩ := hstep
    cases hs'
    exact Or.inl ⟨action, rfl, Move.of_exec hm⟩
  | shutdown call =>
    refine Or.inr ⟨call, rfl, ?_⟩
    rw [System.Step, System.exec] at hstep
    cases hcall : s.calls call with
    | first =>
      rw [hcall] at hstep
      cases hstep
      exact ⟨rfl, Or.inl rfl⟩
    | second =>
      rw [hcall] at hstep
      cases hstep
      exact ⟨rfl, Or.inl rfl⟩
    | store =>
      rw [hcall] at hstep
      cases hstep
      exact ⟨rfl, Or.inr ⟨rfl, rfl⟩⟩
    | done =>
      rw [hcall] at hstep
      cases hstep

/-- The steps of `shutdown` without interruption are the one step of
`Manager.shutdown`. -/
theorem System.shutdown_run (m : Manager Callback) (calls : ℕ → ShutdownPc) {call : ℕ}
    (hcall : calls call = .first) :
    ∃ trace, (∀ event ∈ trace, event = .shutdown call) ∧
      Run System.Step ⟨m, calls⟩ trace ⟨m.shutdown, Function.update calls call .done⟩ := by
  obtain ⟨state, queue, pc⟩ := m
  by_cases hready : state = .readyToStop
  · subst hready
    refine ⟨[.shutdown call], by simp, Run.of_foldlM_some ?_⟩
    simp [System.exec, ShutdownPc.exec, hcall, Manager.shutdown, State.shutdown]
  by_cases hshutting : state = .shuttingDown
  · subst hshutting
    refine ⟨[.shutdown call, .shutdown call], by simp, Run.of_foldlM_some ?_⟩
    simp [System.exec, ShutdownPc.exec, hcall, Manager.shutdown, State.shutdown]
  · refine ⟨[.shutdown call, .shutdown call, .shutdown call], by simp, Run.of_foldlM_some ?_⟩
    simp [System.exec, ShutdownPc.exec, hcall, hready, hshutting, Manager.shutdown, State.shutdown]

/-- A call of `shutdown` does not store after the application has become ready to
stop. -/
def Event.InTime (s : System Callback) : Event Callback → Prop
  | act _ => True
  | shutdown call => s.calls call = .store → s.manager.state ≠ .readyToStop

/-- The law of the state along a sequence of steps. -/
structure MonotoneLaw (trace : List (Event Callback)) : Prop where
  /-- The state never moves backwards. -/
  never_backwards : ∀ front event back s s', trace = front ++ event :: back →
    Run System.Step System.initial front s → System.Step s event s' →
    s.manager.state.rank ≤ s'.manager.state.rank
  /-- `run` never finds the application not ready to stop. -/
  never_throws : ∀ front back s, trace = front ++ back →
    Run System.Step System.initial front s → s.manager.pc ≠ .threw notReadyToStop

/-- Every state is at most `ReadyToStop`, and the others at most `ShuttingDown`. -/
theorem State.rank_le_shuttingDown {state : State} (hstate : state ≠ .readyToStop) :
    state.rank ≤ State.shuttingDown.rank := by
  cases state with
  | readyToStop => exact absurd rfl hstate
  | init | prepare | readyToStart | starting | works | shuttingDown => decide

/-- A step in time does not move the state backwards. -/
theorem System.Step.rank_le {s s' : System Callback} {event : Event Callback}
    (hstep : System.Step s event s') (htime : event.InTime s) :
    s.manager.state.rank ≤ s'.manager.state.rank := by
  rcases hstep.cases with ⟨action, rfl, hmove⟩ | ⟨call, rfl, _, hsame | ⟨hstore, hstate⟩⟩
  · exact hmove.rank_le
  · rw [hsame]
  · rw [hstate]
    exact State.rank_le_shuttingDown (htime hstore)

/-- A step in time keeps state and place together. -/
theorem System.Step.fits {s s' : System Callback} {event : Event Callback}
    (hstep : System.Step s event s') (htime : event.InTime s)
    (hfits : s.manager.pc.Fits s.manager.state) : s'.manager.pc.Fits s'.manager.state := by
  rcases hstep.cases with ⟨action, rfl, hmove⟩ | ⟨call, rfl, hpc, hsame | ⟨hstore, hstate⟩⟩
  · exact hmove.fits hfits
  · rw [hpc, hsame]
    exact hfits
  · rw [hpc, hstate]
    exact hfits.shuttingDown (htime hstore)

/-- A step that is not in time moves the state backwards. -/
theorem System.Step.rank_lt {s s' : System Callback} {event : Event Callback}
    (hstep : System.Step s event s') (hlate : ¬event.InTime s) :
    s'.manager.state.rank < s.manager.state.rank := by
  cases event with
  | act action => exact absurd trivial hlate
  | shutdown call =>
    obtain ⟨hstore, hready⟩ : s.calls call = .store ∧ s.manager.state = .readyToStop := by
      simpa [Event.InTime] using hlate
    rw [System.Step, System.exec, hstore] at hstep
    cases hstep
    rw [hready]
    exact Nat.lt_succ_self 5

/-- The law of the state holds along a run exactly when every call of `shutdown` stores
in time. -/
theorem monotoneLaw_iff {trace : List (Event Callback)} {u : System Callback}
    (hrun : Run System.Step System.initial trace u) :
    MonotoneLaw trace ↔ ∀ front event back s, trace = front ++ event :: back →
      Run System.Step System.initial front s → event.InTime s := by
  constructor
  · rintro hlaw front event back s rfl hfront
    obtain ⟨t, t', hfront', hstep, _⟩ := hrun.at_step
    obtain rfl := hfront.unique (fun _ _ _ _ h h' => Option.some.inj (h.symm.trans h')) hfront'
    by_contra hlate
    exact (hstep.rank_lt hlate).not_ge (hlaw.never_backwards _ _ _ _ _ rfl hfront hstep)
  · intro htime
    refine ⟨?_, ?_⟩
    · intro front event back s s' htrace hfront hstep
      exact hstep.rank_le (htime front event back s htrace hfront)
    · rintro front back s rfl hfront hthrew
      have hinitial : (System.initial : System Callback).manager.pc.Fits .init := Or.inl rfl
      have hfits : s.manager.pc.Fits s.manager.state := by
        refine Run.of_steps (I := fun s : System Callback => s.manager.pc.Fits s.manager.state)
          (C := fun s event => event.InTime s) (fun _ _ _ hstep htime => hstep.fits htime)
          hinitial hfront ?_
        rintro front' event back' v rfl hv
        exact htime front' event (back' ++ back) v (by simp) hv
      rw [hthrew] at hfits
      rcases hfits with hcallback | hshared
      · cases hcallback
      · exact absurd hshared (by decide)

namespace Scenario

/-- Steps that `run` takes by itself. -/
def advances (n : ℕ) : List (Event ℕ) := List.replicate n (.act .advance)

/-- `run` on a manager without callbacks is asked once to shut down, and returns. -/
def stopped : List (Event ℕ) :=
  .act (.start true) :: .shutdown 0 :: .shutdown 0 :: .shutdown 0 :: advances 12

/-- Two calls of `shutdown` read the state `Works`. One of them stores, `run` shuts down
and becomes ready to stop, and then the other one stores. -/
def lateStore : List (Event ℕ) :=
  .act (.start true) :: advances 7 ++ [.shutdown 0, .shutdown 0, .shutdown 1, .shutdown 1,
    .shutdown 1] ++ advances 5 ++ [.shutdown 0, .act .advance]

end Scenario

/-- The law holds for a single request to shut down, after which `run` returns. -/
theorem monotoneLaw_stopped :
    ∃ u, Run System.Step (System.initial : System ℕ) Scenario.stopped u ∧
      u.manager.pc = .returned ∧ MonotoneLaw Scenario.stopped := by
  have hrun : Run System.Step (System.initial : System ℕ) Scenario.stopped _ :=
    Run.of_foldlM_some rfl
  refine ⟨_, hrun, rfl, (monotoneLaw_iff hrun).mpr ?_⟩
  intro front event back s htrace hfront
  cases event with
  | act action => trivial
  | shutdown call =>
    have hend : ∀ {front : List (Event ℕ)} {t : System ℕ},
        front.foldlM System.exec System.initial = some t →
        Run System.Step System.initial front s → s = t := fun hfold hs =>
      hs.unique (fun _ _ _ _ h h' => Option.some.inj (h.symm.trans h')) (Run.of_foldlM_some hfold)
    rcases front with _ | ⟨_, _ | ⟨_, _ | ⟨_, _ | ⟨_, rest⟩⟩⟩⟩
    · simp [Scenario.stopped] at htrace
    · simp only [Scenario.stopped, List.cons_append, List.nil_append, List.cons.injEq] at htrace
      obtain ⟨rfl, ⟨⟩, _⟩ := htrace
      rw [hend rfl hfront]
      exact fun _ => by decide
    · simp only [Scenario.stopped, List.cons_append, List.nil_append, List.cons.injEq] at htrace
      obtain ⟨rfl, rfl, ⟨⟩, _⟩ := htrace
      rw [hend rfl hfront]
      exact fun _ => by decide
    · simp only [Scenario.stopped, List.cons_append, List.nil_append, List.cons.injEq] at htrace
      obtain ⟨rfl, rfl, rfl, ⟨⟩, _⟩ := htrace
      rw [hend rfl hfront]
      exact fun _ => by decide
    · simp only [Scenario.stopped, List.cons_append, List.cons.injEq] at htrace
      have hmem : .shutdown call ∈ Scenario.advances 12 := by
        rw [htrace.2.2.2.2]
        simp
      cases List.eq_of_mem_replicate hmem

/-- A call of `shutdown` that stores too late moves the state backwards, and `run`
throws. -/
theorem not_monotoneLaw_lateStore :
    ∃ u, Run System.Step (System.initial : System ℕ) Scenario.lateStore u ∧
      u.manager.state = .shuttingDown ∧ u.manager.pc = .threw notReadyToStop ∧
      ¬MonotoneLaw Scenario.lateStore := by
  have hrun : Run System.Step (System.initial : System ℕ) Scenario.lateStore _ :=
    Run.of_foldlM_some rfl
  exact ⟨_, hrun, rfl, rfl, fun hlaw => hlaw.never_throws _ [] _ (by simp) hrun rfl⟩

end CppJam.AppState
