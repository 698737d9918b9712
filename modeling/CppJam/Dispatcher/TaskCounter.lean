import CppJam.Dispatcher.TemporaryHandlers

/-!
# The counter of temporary handlers

`dispose` waits until the counter of the temporary handlers is zero. Along every run the
counter is the number of tasks that have not finished and of tasks that have thrown. So
it is the number of unfinished tasks exactly as long as none of them has thrown.
-/

namespace CppJam.Dispatcher

open Checks Runs Slots

variable {σ : Type}

/-- The counter is the number of temporary handlers whose task has not finished; so once all have
finished it is zero, and `dispose` returns. -/
structure CounterLaw (s : System σ) : Prop where
  counter_eq : s.dispatcher.temporaryHandlersTasksCounter =
    s.temporaries.countP Temporary.unfinished
  dispose_returns : (∀ h ∈ s.temporaries, h.unfinished = false) →
    s.dispatcher.temporaryHandlersTasksCounter = 0

/-- The law holds in every state of a run. -/
def CounterLawDuring (k : Sizes) (σ : Type) (trace : List Event) : Prop :=
  ∀ front back (u : System σ), trace = front ++ back → Run (System.Step k) .new front u →
    CounterLaw u

variable {k : Sizes} {s t : System σ} {event : Event} {trace : List Event}

/-- A task throws in the step. -/
def Event.throws : Event → Bool
  | .act _ (.ends false) => true
  | _ => false

/-- The counter is the number of unfinished tasks and of tasks that have thrown; and it is known
how many have thrown. -/
structure Counts (trace : List Event) (s : System σ) : Prop where
  counter_eq : s.dispatcher.temporaryHandlersTasksCounter =
    s.temporaries.countP Temporary.unfinished + s.temporaries.countP Temporary.thrown
  thrown_eq : s.temporaries.countP Temporary.thrown = trace.countP Event.throws

/-- A submission counts the handlers it starts. -/
theorem counter_of_upload {d d' : AsyncDispatcher σ} {busy : ℕ → Bool} {tid : Tid} {timeout : ℤ}
    {placed : List (Placement σ Unit Unit)} (now : ℤ)
    (hupload : d.addDelayed k busy tid timeout () = .ok (d', placed)) :
    d'.temporaryHandlersTasksCounter = d.temporaryHandlersTasksCounter +
        (placed.filterMap (start now)).countP Temporary.unfinished ∧
      (placed.filterMap (start now)).countP Temporary.thrown = 0 := by
  obtain ⟨rfl, hplaced⟩ | ⟨rfl, rfl⟩ := upload_cases hupload
  · have hnone : placed.filterMap (start now) = [] := by
      rw [List.filterMap_eq_nil_iff]
      intro p hp
      unfold start
      split
      · rename_i htemporary
        exact absurd htemporary (hplaced p hp)
      · rfl
    rw [hnone]
    exact ⟨(Int.add_zero _).symm, rfl⟩
  · exact ⟨rfl, rfl⟩

/-- What a handler adds to the counter is the change of what is counted, and a task has thrown
exactly after the step in which it throws. -/
theorem Temporary.exec_counts {isDisposed : Bool} {h h' : Temporary} {action : Action} {change : ℤ}
    (hexec : h.exec isDisposed action = some (h', change)) (i : ℕ) :
    ([h'].countP Temporary.unfinished + [h'].countP Temporary.thrown : ℤ) =
        [h].countP Temporary.unfinished + [h].countP Temporary.thrown + change ∧
      [h'].countP Temporary.thrown =
        [h].countP Temporary.thrown + [Event.act i action].countP Event.throws := by
  have hphase := Temporary.exec_phase hexec
  obtain ⟨_, phase⟩ := h
  obtain ⟨_, phase'⟩ := h'
  cases hphase with
  | extract => exact ⟨(Int.add_zero _).symm, rfl⟩
  | queue | run | leaveOut | finish | throw | countOff | leave => exact ⟨rfl, rfl⟩

/-- Every step keeps the counts. -/
theorem Counts.step (hs : Counts trace s) (hstep : s.Step k event t) :
    Counts (trace ++ [event]) t := by
  obtain ⟨hcounter, hthrown⟩ := hs
  cases event with
  | send busy tid timeout now =>
    simp only [System.Step, System.exec] at hstep
    split at hstep
    · rename_i d placed hupload
      cases hstep
      obtain ⟨hcounter', hnone⟩ := counter_of_upload now hupload
      constructor
      · simp only [hcounter', hcounter, List.countP_append, hnone]
        omega
      · simp only [List.countP_append, hnone, hthrown]
        rfl
    · cases hstep
  | act i action =>
    simp only [System.Step, System.exec, Option.bind_eq_bind, Option.bind_eq_some_iff] at hstep
    obtain ⟨h, hh, ⟨h', change⟩, hexec, ht⟩ := hstep
    cases ht
    have hunfinished := countP_set (p := Temporary.unfinished) hh h'
    have hthrew := countP_set (p := Temporary.thrown) hh h'
    obtain ⟨hbalance, hthrows⟩ := Temporary.exec_counts hexec i
    constructor
    · dsimp only
      omega
    · rw [List.countP_append]
      dsimp only
      omega
  | dispose =>
    cases hstep
    exact ⟨hcounter, by rw [List.countP_append, ← hthrown]; rfl⟩

/-- The counts are kept along every run. -/
theorem counts_of_run (hrun : Run (System.Step k) .new trace s) : Counts trace s :=
  hrun.invariant (I := fun trace s => Counts trace s) ⟨rfl, rfl⟩ fun _ hs hstep => hs.step hstep

/-- The counter is the number of unfinished tasks exactly when no task has thrown. -/
theorem counterLaw_iff (hrun : Run (System.Step k) .new trace s) :
    CounterLaw s ↔ ∀ event ∈ trace, event.throws = false := by
  obtain ⟨hcounter, hthrown⟩ := counts_of_run hrun
  have hnone : trace.countP Event.throws = 0 ↔ ∀ event ∈ trace, event.throws = false := by
    simp [List.countP_eq_zero]
  rw [← hnone, ← hthrown]
  constructor
  · rintro ⟨heq, _⟩
    omega
  · intro hzero
    refine ⟨by omega, fun hall => ?_⟩
    have hfinished : s.temporaries.countP Temporary.unfinished = 0 := by
      simpa [List.countP_eq_zero] using hall
    omega

/-- **The counter of temporary handlers.** In every state of a run it is the number of handlers
whose task has not finished exactly when no task ends with an exception during the run. -/
theorem counterLawDuring_iff (hrun : Run (System.Step k) .new trace s) :
    CounterLawDuring k σ trace ↔ ∀ event ∈ trace, event.throws = false := by
  constructor
  · intro hall
    exact (counterLaw_iff hrun).mp (hall trace [] s (by simp) hrun)
  · rintro hnone front back u rfl hfront
    exact (counterLaw_iff hfront).mpr fun event hevent =>
      hnone event (List.mem_append_left _ hevent)

namespace Scenario

/-- All three workers are busy and the task gets a handler of its own, which extracts it and runs
it to its end. -/
def temporary (returned : Bool) : List Event :=
  [.send (fun _ => true) kExecuteInPool 0 0, .act 0 (.queue 1), .act 0 (.extract 2), .act 0 .enter,
    .act 0 (.ends returned)]

end Scenario

/-- A task that returns is counted off. -/
theorem counterLawDuring_returned :
    ∃ s : System ℕ, Run (System.Step ⟨1, 3⟩) .new
        (Scenario.temporary true ++ [.act 0 .countOff, .dispose]) s ∧
      s.dispatcher.temporaryHandlersTasksCounter = 0 ∧
      CounterLawDuring ⟨1, 3⟩ ℕ (Scenario.temporary true ++ [.act 0 .countOff, .dispose]) := by
  have hrun : Run (System.Step ⟨1, 3⟩) (.new : System ℕ)
      (Scenario.temporary true ++ [.act 0 .countOff, .dispose]) _ := Run.of_foldlM_some rfl
  refine ⟨_, hrun, rfl, (counterLawDuring_iff hrun).mpr ?_⟩
  simp [Scenario.temporary, Event.throws]

/-- A task that throws has finished and stays counted, so `dispose` waits for ever. -/
theorem not_counterLaw_thrown :
    ∃ s : System ℕ, Run (System.Step ⟨1, 3⟩) .new (Scenario.temporary false) s ∧
      (∀ h ∈ s.temporaries, h.unfinished = false) ∧
      s.dispatcher.temporaryHandlersTasksCounter = 1 ∧ ¬CounterLaw s ∧
      ¬CounterLawDuring ⟨1, 3⟩ ℕ (Scenario.temporary false) := by
  have hrun : Run (System.Step ⟨1, 3⟩) (.new : System ℕ) (Scenario.temporary false) _ :=
    Run.of_foldlM_some rfl
  have hlaw : ∀ s : System ℕ, s.dispatcher.temporaryHandlersTasksCounter = 1 →
      (∀ h ∈ s.temporaries, h.unfinished = false) → ¬CounterLaw s := by
    intro s hone hall hlaw
    rw [hlaw.dispose_returns hall] at hone
    cases hone
  refine ⟨_, hrun, by decide, rfl, hlaw _ rfl (by decide), ?_⟩
  exact fun hduring => hlaw _ rfl (by decide) (hduring _ [] _ (by simp) hrun)

end CppJam.Dispatcher
