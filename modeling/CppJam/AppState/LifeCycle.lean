import CppJam.AppState.Ledger

/-!
# The life cycle of the application

Requests to shut down, each taken as one step, arrive between any two steps of `run`.
Along every such run the callbacks of the prepare stage are called in the order of
registration until one fails, those of the launch stage only after all of the prepare
stage have returned `true` and as long as no request was seen, and when `run` returns all
callbacks of the shutdown stage have been called, once and in order.
-/

namespace CppJam.AppState

open Runs

variable {Callback : Type} {m : Manager Callback}

/-- The law of the life cycle, after the steps of `trace` have led to `m`. -/
structure LifeCycleLaw (trace : List (Label Callback)) (m : Manager Callback) : Prop where
  /-- The callbacks of the prepare stage are called in the order of registration. -/
  prepare_in_order :
    (ledgerOf trace).called .prepare <+: (ledgerOf trace).registered .prepare
  /-- All of them but possibly the last one have returned `true`. -/
  prepare_true : ∀ i, i + 1 < ((ledgerOf trace).called .prepare).length →
    ((ledgerOf trace).answered .prepare)[i]? = some true
  /-- A callback of the launch stage is called only after all of the prepare stage were
  called and returned `true`. -/
  launch_prepared : (ledgerOf trace).called .launch ≠ [] →
    (ledgerOf trace).called .prepare = (ledgerOf trace).registered .prepare ∧
    (ledgerOf trace).answered .prepare = ((ledgerOf trace).called .prepare).map (fun _ => true)
  /-- No shutdown was requested before the test of the state that precedes the call of a
  callback of the launch stage; only requests come between test and call. -/
  launch_tested : ∀ front callback back,
    trace = front ++ .act (.call .launch callback) :: back →
    ∃ before between, front = before ++ .act .test :: between ∧ .shutdown ∉ before ∧
      ∀ label ∈ between, label = .shutdown
  /-- The stages of the calls follow each other. -/
  in_stages : (ledgerOf trace).stages.Pairwise (fun a b => a.position ≤ b.position)
  /-- When `run` returns, all callbacks of the shutdown stage were called once, in the
  order of registration, and the application is ready to stop. -/
  returned : m.pc = .returned →
    (ledgerOf trace).called .shutdown = (ledgerOf trace).registered .shutdown ∧
    m.state = .readyToStop
  /-- `run` throws only what a callback throws, or when nobody owns the manager. -/
  thrown : ∀ e, m.pc = .threw e → e = .callback ∨ e = notShared

/-- The law of the life cycle holds after every run. -/
theorem lifeCycleLaw [DecidableEq Callback] {trace : List (Label Callback)}
    (hrun : Run Manager.Step Manager.initial trace m) : LifeCycleLaw trace m := by
  have h := accounted_of_run hrun
  constructor
  · exact h.settled.in_order
  · exact h.settled.all_true
  · intro hcalled
    obtain ⟨⟨hregistered, hanswered⟩, _⟩ := h.launched hcalled
    exact ⟨by rw [hregistered, List.append_nil], hanswered⟩
  · rintro front callback back rfl
    obtain ⟨t, t', hfront, hstep, _⟩ := hrun.at_step
    have hmove : Move t (.call .launch callback) t' := Move.of_exec hstep
    exact (accounted_of_run hfront).tested hmove.of_call.1
  · exact h.ordered
  · intro hpc
    have hshutdown := h.shutdown
    have hfits := h.fits
    rw [hpc] at hshutdown hfits
    exact ⟨hshutdown.symm, hfits⟩
  · intro e hpc
    have hfits := h.fits
    rwa [hpc] at hfits

namespace Scenario

/-- Callbacks are registered for each stage; the one of the prepare stage registers
another one for the shutdown stage. The application works until it is asked to shut
down. -/
def wholeLife : List (Label ℕ) :=
  [.act (.register .prepare 1), .act (.register .launch 2), .act (.register .shutdown 3),
    .act (.start true), .act .advance, .act .advance, .act .test, .act (.call .prepare 1),
    .act (.register .shutdown 4), .act (.answer .prepare (some true)), .act .advance, .act .advance,
    .act .advance, .act .advance, .act .advance, .act .test, .act (.call .launch 2),
    .act (.answer .launch (some true)), .act .advance, .act .advance, .act .advance, .act .advance,
    .shutdown, .act .advance, .act .advance, .act .advance, .act .advance,
    .act (.call .shutdown 3), .act (.answer .shutdown (some true)), .act .advance, .act .advance,
    .act (.call .shutdown 4), .act (.answer .shutdown (some true)), .act .advance, .act .advance,
    .act .advance, .act .advance]

/-- A request to shut down arrives between the test of the state and the call of a
callback of the launch stage. -/
def lateRequest : List (Label ℕ) :=
  [.act (.register .launch 2), .act (.start true), .act .advance, .act .advance, .act .advance,
    .act .advance, .act .advance, .act .test, .shutdown, .act (.call .launch 2)]

end Scenario

/-- The law at a whole life of the application. -/
theorem lifeCycleLaw_wholeLife :
    ∃ m, LifeCycleLaw Scenario.wholeLife m ∧ m.pc = .returned ∧
      (ledgerOf Scenario.wholeLife).called .shutdown = [3, 4] := by
  have hrun : Run Manager.Step (Manager.initial : Manager ℕ) Scenario.wholeLife _ :=
    Run.of_foldlM_some rfl
  exact ⟨_, lifeCycleLaw hrun, rfl, rfl⟩

/-- A callback of the launch stage can be called after a shutdown was requested. -/
theorem launch_called_after_request :
    ∃ m front, Run Manager.Step (Manager.initial : Manager ℕ) Scenario.lateRequest m ∧
      Scenario.lateRequest = front ++ [.act (.call .launch 2)] ∧ .shutdown ∈ front := by
  have hrun : Run Manager.Step (Manager.initial : Manager ℕ) Scenario.lateRequest _ :=
    Run.of_foldlM_some rfl
  refine ⟨_, Scenario.lateRequest.dropLast, hrun, rfl, ?_⟩
  decide

end CppJam.AppState
