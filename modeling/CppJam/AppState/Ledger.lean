import CppJam.AppState.PrepareStage
import CppJam.AppState.ShutdownStage
import CppJam.Runs

/-!
# The account of a run

Requests to shut down, each taken as one step, arrive between any two steps of `run`. A
ledger records what was registered, called and returned along the way. Every step, and
every request, keeps ledger, queues, state and place together.
-/

namespace CppJam.AppState

open Runs

variable {Callback : Type} {m m' : Manager Callback}

/-- The steps of a manager and the requests to shut it down. -/
inductive Label (Callback : Type) where
  | act (action : Action Callback)
  | shutdown
  deriving DecidableEq

/-- Execute a step, if it is possible. -/
def Manager.perform [DecidableEq Callback] (m : Manager Callback) :
    Label Callback → Option (Manager Callback)
  | .act action => m.exec action
  | .shutdown => some m.shutdown

/-- The steps as a relation. -/
def Manager.Step [DecidableEq Callback] (m : Manager Callback) (label : Label Callback)
    (m' : Manager Callback) : Prop :=
  m.perform label = some m'

/-- What was registered, called and returned. -/
structure Ledger (Callback : Type) where
  /-- Callbacks registered for a stage, in order. -/
  registered : Stage → List Callback
  /-- Callbacks of a stage that were called, in order. -/
  called : Stage → List Callback
  /-- What the callbacks of a stage returned, in order. -/
  answered : Stage → List Bool
  /-- The stages of all calls, in order. -/
  stages : List Stage

/-- The stages of the calls, after an action. -/
def Action.stages (stages : List Stage) : Action Callback → List Stage
  | call stage _ => stages ++ [stage]
  | _ => stages

/-- The ledger after a step. -/
def Ledger.record (ledger : Ledger Callback) : Label Callback → Ledger Callback
  | .act action =>
    { registered := fun stage => action.registers stage (ledger.registered stage)
      called := fun stage => action.calls stage (ledger.called stage)
      answered := fun stage => action.answers stage (ledger.answered stage)
      stages := action.stages ledger.stages }
  | .shutdown => ledger

/-- The ledger of a sequence of steps. -/
def ledgerOf (trace : List (Label Callback)) : Ledger Callback :=
  trace.foldl Ledger.record ⟨fun _ => [], fun _ => [], fun _ => [], []⟩

/-- What the steps are. -/
theorem Manager.Step.cases [DecidableEq Callback] {label : Label Callback}
    (hstep : Manager.Step m label m') :
    (∃ action, label = .act action ∧ Move m action m') ∨ label = .shutdown ∧ m' = m.shutdown := by
  cases label with
  | act action => exact Or.inl ⟨action, rfl, Move.of_exec hstep⟩
  | shutdown => exact Or.inr ⟨rfl, (Option.some.inj hstep).symm⟩

/-- After a request the state is at least `ShuttingDown`. -/
theorem State.rank_shutdown (state : State) : State.shuttingDown.rank ≤ state.shutdown.rank := by
  cases state <;> decide

/-- A request does not move the state backwards. -/
theorem State.rank_le_shutdown (state : State) : state.rank ≤ state.shutdown.rank := by
  cases state <;> decide

/-- A request keeps state and place together. -/
theorem Pc.Fits.shutdown {pc : Pc} {state : State} (hfits : pc.Fits state) :
    pc.Fits state.shutdown := by
  by_cases hready : state = .readyToStop
  · rwa [State.shutdown, if_pos hready]
  · have hstate : state.shutdown = .shuttingDown := by
      revert hready
      cases state <;> decide
    rw [hstate]
    exact hfits.shuttingDown hready

/-- What holds after the steps of `trace` have led to `m`. -/
structure Accounted (trace : List (Label Callback)) (m : Manager Callback) : Prop where
  /-- State and place go together. -/
  fits : m.pc.Fits m.state
  /-- Callbacks of the prepare stage. -/
  prepare : m.pc.PrepareAt m.state (m.queue .prepare) ((ledgerOf trace).registered .prepare)
    ((ledgerOf trace).called .prepare) ((ledgerOf trace).answered .prepare)
  settled : Settled ((ledgerOf trace).registered .prepare) ((ledgerOf trace).called .prepare)
    ((ledgerOf trace).answered .prepare)
  /-- Callbacks of the shutdown stage. -/
  shutdown : m.pc.ShutdownAt (m.queue .shutdown) ((ledgerOf trace).registered .shutdown)
    ((ledgerOf trace).called .shutdown)
  /-- A callback of the launch stage is called after the prepare stage is complete. -/
  launched : (ledgerOf trace).called .launch ≠ [] →
    InStep ((ledgerOf trace).registered .prepare) ((ledgerOf trace).called .prepare)
      ((ledgerOf trace).answered .prepare) [] ∧
    State.prepare.rank < m.state.rank ∧ Stage.prepare.position < m.pc.position
  /-- Calls are made stage by stage. -/
  ordered : (ledgerOf trace).stages.Pairwise (fun a b => a.position ≤ b.position)
  reached : ∀ stage ∈ (ledgerOf trace).stages, stage.position ≤ m.pc.position
  /-- A request is seen in the state. -/
  requested : .shutdown ∈ trace → State.shuttingDown.rank ≤ m.state.rank
  /-- The state was tested before a call of the launch stage. -/
  tested : m.pc = .call .launch → ∃ before between, trace = before ++ .act .test :: between ∧
    .shutdown ∉ before ∧ ∀ label ∈ between, label = .shutdown

/-- A request to shut down keeps all accounts. -/
theorem Accounted.request {trace : List (Label Callback)} (h : Accounted trace m) :
    Accounted (trace ++ [.shutdown]) m.shutdown := by
  have hledger : ledgerOf (trace ++ [.shutdown]) = ledgerOf trace := by
    rw [ledgerOf, List.foldl_append]
    rfl
  have hrank := m.state.rank_le_shutdown
  constructor
  · exact h.fits.shutdown
  · rw [hledger]
    exact h.prepare.of_calm (Nat.lt_of_le_of_lt hrank)
  · rw [hledger]
    exact h.settled
  · rw [hledger]
    exact h.shutdown
  · rw [hledger]
    intro hcalled
    obtain ⟨hstep, hstate, hpc⟩ := h.launched hcalled
    exact ⟨hstep, Nat.lt_of_lt_of_le hstate hrank, hpc⟩
  · rw [hledger]
    exact h.ordered
  · rw [hledger]
    exact h.reached
  · exact fun _ => m.state.rank_shutdown
  · intro hpc
    obtain ⟨before, between, rfl, hbefore, hbetween⟩ := h.tested hpc
    refine ⟨before, between ++ [.shutdown], by simp, hbefore, ?_⟩
    intro label hlabel
    rcases List.mem_append.mp hlabel with hlabel | hlabel
    · exact hbetween label hlabel
    · exact List.mem_singleton.mp hlabel

/-- The first call of the launch stage is made when the prepare stage is complete, and
nothing changes about that later. -/
theorem Accounted.move_launched {trace : List (Label Callback)} {action : Action Callback}
    (h : Accounted trace m) (hmove : Move m action m')
    (hcalled : action.calls .launch ((ledgerOf trace).called .launch) ≠ []) :
    InStep (action.registers .prepare ((ledgerOf trace).registered .prepare))
      (action.calls .prepare ((ledgerOf trace).called .prepare))
      (action.answers .prepare ((ledgerOf trace).answered .prepare)) [] ∧
    State.prepare.rank < m'.state.rank ∧ Stage.prepare.position < m'.pc.position := by
  by_cases hearlier : (ledgerOf trace).called .launch = []
  · rw [hearlier] at hcalled
    obtain ⟨callback, rfl⟩ : ∃ callback, action = .call .launch callback := by
      cases action with
      | call stage callback =>
        cases stage with
        | launch => exact ⟨callback, rfl⟩
        | prepare => exact absurd rfl hcalled
        | shutdown => exact absurd rfl hcalled
      | start | advance | test | answer | register | refuse => exact absurd rfl hcalled
    obtain ⟨hpc, hpc', hstate⟩ := hmove.of_call
    have hprepare := h.prepare
    have hfits := h.fits
    rw [hpc] at hprepare hfits
    refine ⟨hprepare, ?_, ?_⟩
    · rw [hstate]
      rcases hfits with hfits | hfits <;> rw [hfits] <;> decide
    · rw [hpc']
      decide
  · obtain ⟨hstep, hstate, hpc⟩ := h.launched hearlier
    obtain ⟨hregistered, hcalls, hanswered⟩ := hmove.prepare_unchanged hstate hpc
      ((ledgerOf trace).registered .prepare) ((ledgerOf trace).called .prepare)
      ((ledgerOf trace).answered .prepare)
    rw [hregistered, hcalls, hanswered]
    exact ⟨hstep, Nat.lt_of_lt_of_le hstate hmove.rank_le, Nat.lt_of_lt_of_le hpc hmove.position_le⟩

/-- A call is made in the stage that `run` has reached. -/
theorem Move.stages_cases {action : Action Callback} (hmove : Move m action m')
    (stages : List Stage) :
    action.stages stages = stages ∨
      ∃ stage, action.stages stages = stages ++ [stage] ∧ m.pc.position = stage.position := by
  cases action with
  | call stage callback => exact Or.inr ⟨stage, rfl, by rw [hmove.of_call.1]; rfl⟩
  | start | advance | test | answer | register | refuse => exact Or.inl rfl

/-- A step of the manager keeps all accounts. -/
theorem Accounted.move {trace : List (Label Callback)} {action : Action Callback}
    (h : Accounted trace m) (hmove : Move m action m') :
    Accounted (trace ++ [.act action]) m' := by
  have hledger : ledgerOf (trace ++ [.act action]) = (ledgerOf trace).record (.act action) := by
    rw [ledgerOf, List.foldl_append]
    rfl
  have hrequested : .shutdown ∈ trace ++ [.act action] → .shutdown ∈ trace := by
    simp
  constructor
  · exact hmove.fits h.fits
  · rw [hledger]
    exact hmove.prepareAt h.fits h.prepare
  · rw [hledger]
    exact hmove.settled h.prepare h.settled
  · rw [hledger]
    exact hmove.shutdownAt h.fits h.shutdown
  · rw [hledger]
    exact h.move_launched hmove
  · rw [hledger]
    rcases hmove.stages_cases (ledgerOf trace).stages with hstages | ⟨stage, hstages, hpc⟩
    · simp only [Ledger.record, hstages]
      exact h.ordered
    · simp only [Ledger.record, hstages, List.pairwise_append, List.mem_singleton, forall_eq]
      exact ⟨h.ordered, List.pairwise_singleton _ _, fun a ha => hpc ▸ h.reached a ha⟩
  · rw [hledger]
    rcases hmove.stages_cases (ledgerOf trace).stages with hstages | ⟨stage, hstages, hpc⟩
    · simp only [Ledger.record, hstages]
      exact fun a ha => (h.reached a ha).trans hmove.position_le
    · simp only [Ledger.record, hstages, List.mem_append, List.mem_singleton]
      rintro a (ha | rfl)
      · exact (h.reached a ha).trans hmove.position_le
      · exact hpc ▸ hmove.position_le
  · exact fun hmem => (h.requested (hrequested hmem)).trans hmove.rank_le
  · intro hpc
    obtain ⟨rfl, hstate⟩ := hmove.of_call_launch hpc
    refine ⟨trace, [], rfl, ?_, by simp⟩
    intro hmem
    exact absurd (hstate ▸ h.requested hmem) (by decide)

/-- All accounts are kept along every run. -/
theorem accounted_of_run [DecidableEq Callback] {trace : List (Label Callback)}
    (hrun : Run Manager.Step Manager.initial trace m) : Accounted trace m := by
  refine hrun.invariant (I := fun trace m => Accounted trace m) ?_ ?_
  · exact
      { fits := Or.inl rfl
        prepare := ⟨rfl, rfl⟩
        settled := ⟨List.prefix_refl [], Nat.le_refl 0, fun _ hi => nomatch hi⟩
        shutdown := rfl
        launched := fun h => absurd rfl h
        ordered := List.Pairwise.nil
        reached := fun _ h => nomatch h
        requested := fun h => nomatch h
        tested := fun h => nomatch h }
  · intro trace label m m' _ h hstep
    rcases hstep.cases with ⟨action, rfl, hmove⟩ | ⟨rfl, rfl⟩
    · exact h.move hmove
    · exact h.request

end CppJam.AppState
