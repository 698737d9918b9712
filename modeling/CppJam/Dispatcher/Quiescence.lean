import CppJam.Dispatcher.TaskCounter
import CppJam.Dispatcher.Threads
import CppJam.Scheduler.Disposal

/-!
# No task runs after `dispose`

When `dispose` of the dispatcher has returned, its threads have ended, and a temporary handler that
comes later leaves its task out, since the flag was set before. A task that throws on a temporary
handler stays counted, so `dispose` does not return after it.
-/

namespace CppJam.Dispatcher

open Runs Slots

variable {σ : Type} {k : Sizes} {s t : Threads σ} {turn : Turn σ} {trace : List (Turn σ)}

/-- A task throws on a temporary handler in the step. -/
def Turn.throws : Turn σ → Bool
  | .temporary _ (.ends false) => true
  | _ => false

/-- What holds between two steps. -/
structure Disposing (trace : List (Turn σ)) (s : Threads σ) : Prop where
  /-- `dispose` sets the flag first. -/
  isDisposed : s.stage ≠ .idle → s.dispatcher.isDisposed = true
  /-- The threads that were joined have ended. -/
  joined : ∀ i m, s.workers[i]? = some m → s.stage.Joined i → m.place = .ended
  /-- The counter is the number of unfinished tasks and of tasks that have thrown. -/
  counter_eq : s.dispatcher.temporaryHandlersTasksCounter =
    s.temporaries.countP Temporary.unfinished + s.temporaries.countP Temporary.thrown
  /-- It is known how many have thrown. -/
  thrown_eq : s.temporaries.countP Temporary.thrown = trace.countP Turn.throws
  /-- After the loop of `dispose` no temporary handler is inside of its task, or has left it by an
  exception. -/
  returned : s.stage = .returned → ∀ h ∈ s.temporaries, h.phase ≠ .running ∧ h.phase ≠ .thrown

/-- The next stage after so many threads were joined. -/
theorem Threads.joined_afterJoin {i j : ℕ} (hj : j < s.workers.length) :
    (s.afterJoin i).Joined j → j < i := by
  unfold Threads.afterJoin
  split_ifs with hi
  · exact id
  · exact fun _ => hj.trans_le (not_lt.mp hi)

/-- The next stage is neither the first nor the last. -/
theorem Threads.afterJoin_ne (i : ℕ) : s.afterJoin i ≠ .idle ∧ s.afterJoin i ≠ .returned := by
  unfold Threads.afterJoin
  split_ifs <;> simp

/-- A thread that has ended stays so when one of the threads takes a step. -/
theorem ended_of_set {workers : List Scheduler.Machine} {i j : ℕ} {m m' n : Scheduler.Machine}
    {move : Scheduler.Move} (hm : workers[i]? = some m) (hstep : m.Step move m')
    (hn : (workers.set i m')[j]? = some n)
    (hended : ∀ n, workers[j]? = some n → n.place = .ended) : n.place = .ended := by
  by_cases hij : i = j
  · subst hij
    rw [List.getElem?_set_self (List.getElem?_eq_some_iff.mp hm).1] at hn
    cases hn
    exact (hstep.ended (hended m hm)).1
  · rw [List.getElem?_set_ne hij] at hn
    exact hended n hn

/-- On a disposed dispatcher a temporary handler does not begin its task. -/
theorem Temporary.exec_quiet {h h' : Temporary} {action : Action} {change : ℤ}
    (hexec : h.exec true action = some (h', change))
    (hquiet : h.phase ≠ .running ∧ h.phase ≠ .thrown) :
    h'.phase ≠ .running ∧ h'.phase ≠ .thrown := by
  have hphase := Temporary.exec_phase hexec
  obtain ⟨scheduler, phase⟩ := h
  obtain ⟨scheduler', phase'⟩ := h'
  cases hphase with
  | extract => exact hquiet
  | queue | leaveOut | finish | countOff | leave => simp
  | run =>
    -- the function reads the flag when it is called
    simp only [Temporary.exec] at hexec
    split at hexec <;> cases hexec
  | throw => exact absurd rfl hquiet.1

/-- When a task throws on a temporary handler. -/
theorem throws_temporary (i : ℕ) (action : Action) :
    (Turn.temporary i action : Turn σ).throws = (Event.act i action).throws := by
  cases action with
  | ends returned => cases returned <;> rfl
  | queue | extract | enter | countOff | leave => rfl

/-- A step without a temporary handler throws nothing. -/
theorem Disposing.quiet_step (hs : Disposing trace s) (hthrows : turn.throws = false) :
    s.temporaries.countP Temporary.thrown = (trace ++ [turn]).countP Turn.throws := by
  rw [hs.thrown_eq, List.countP_append, List.countP_singleton, hthrows]
  rfl

/-- Every step keeps the invariant. -/
theorem Disposing.step (hs : Disposing trace s) (hstep : s.Step k turn t) :
    Disposing (trace ++ [turn]) t := by
  cases hstep.effect with
  | submit | lookUp | bind | unbind | poll =>
    exact ⟨hs.isDisposed, hs.joined, hs.counter_eq, hs.quiet_step rfl, hs.returned⟩
  | request uploads hm hmove =>
    refine ⟨hs.isDisposed, ?_, hs.counter_eq, hs.quiet_step rfl, hs.returned⟩
    exact fun j n hn hjoined => ended_of_set hm hmove hn fun n hn => hs.joined j n hn hjoined
  | worker hinner hm hmove =>
    refine ⟨hs.isDisposed, ?_, hs.counter_eq, hs.quiet_step rfl, hs.returned⟩
    exact fun j n hn hjoined => ended_of_set hm hmove hn fun n hn => hs.joined j n hn hjoined
  | start uploads =>
    refine ⟨hs.isDisposed, hs.joined, ?_, ?_, ?_⟩
    · have hcounter := hs.counter_eq
      simp only [List.countP_append, List.countP_singleton, Temporary.unfinished,
        Temporary.thrown, Phase.unfinished]
      simp
      omega
    · rw [List.countP_append, ← hs.quiet_step rfl]
      rfl
    · intro hreturned h hh
      rcases List.mem_append.mp hh with hold | hnew
      · exact hs.returned hreturned h hold
      · rw [List.mem_singleton.mp hnew]
        simp
  | @temporary i action h h' change hh hexec =>
    have hunfinished := countP_set (p := Temporary.unfinished) hh h'
    have hthrown := countP_set (p := Temporary.thrown) hh h'
    obtain ⟨hbalance, hthrows⟩ := Temporary.exec_counts hexec i
    have hcounter := hs.counter_eq
    have hcount := hs.thrown_eq
    refine ⟨hs.isDisposed, hs.joined, ?_, ?_, ?_⟩
    · dsimp only
      omega
    · rw [List.countP_append, List.countP_singleton, throws_temporary, ← List.countP_singleton]
      dsimp only
      omega
    · intro (hreturned : s.stage = .returned)
      have hquiet := hs.returned hreturned
      rw [hs.isDisposed (by simp [hreturned])] at hexec
      exact forall_mem_set hquiet
        (Temporary.exec_quiet hexec (hquiet h (List.mem_of_getElem? hh))) i
  | flag hstage =>
    have hne := s.afterJoin_ne 0
    refine ⟨fun _ => rfl, ?_, hs.counter_eq, hs.quiet_step rfl, fun h => absurd h hne.2⟩
    intro j n hn hjoined
    have hlt := s.joined_afterJoin (List.getElem?_eq_some_iff.mp hn).1 hjoined
    exact absurd hlt (Nat.not_lt_zero j)
  | @stop i move m m' stage hm hmove hstage =>
    obtain ⟨hidle, hreturned, hsame⟩ : s.stage ≠ .idle ∧ stage ≠ .returned ∧
        ∀ j, stage.Joined j = s.stage.Joined j := by
      rcases hstage with ⟨hs, _, rfl⟩ | ⟨hs, _, rfl⟩ | ⟨hs, _, rfl⟩ <;> simp [hs, Stage.Joined]
    refine ⟨fun _ => hs.isDisposed hidle, ?_, hs.counter_eq, hs.quiet_step rfl,
      fun h => absurd h hreturned⟩
    intro j n hn hjoined
    rw [hsame] at hjoined
    exact ended_of_set hm hmove hn fun n hn => hs.joined j n hn hjoined
  | @join i m hstage hm hended =>
    have hne := s.afterJoin_ne (i + 1)
    refine ⟨fun _ => hs.isDisposed (by simp [hstage]), ?_, hs.counter_eq, hs.quiet_step rfl,
      fun h => absurd h hne.2⟩
    intro j n hn hjoined
    rcases Nat.lt_succ_iff_lt_or_eq.mp
      (s.joined_afterJoin (List.getElem?_eq_some_iff.mp hn).1 hjoined) with hlt | rfl
    · exact hs.joined j n hn (by rw [hstage]; exact hlt)
    · cases hn.symm.trans hm
      exact hended
  | leave hstage hcounter =>
    refine ⟨fun _ => hs.isDisposed (by simp [hstage]), ?_, hs.counter_eq, hs.quiet_step rfl, ?_⟩
    · exact fun j n hn _ => hs.joined j n hn (by rw [hstage]; trivial)
    · intro _ h hh
      have hcount := hs.counter_eq
      rw [hcounter] at hcount
      have hunfinished : s.temporaries.countP Temporary.unfinished = 0 := by omega
      have hthrown : s.temporaries.countP Temporary.thrown = 0 := by omega
      rw [List.countP_eq_zero] at hunfinished hthrown
      constructor
      · intro hrunning
        exact hunfinished h hh (by simp [Temporary.unfinished, hrunning, Phase.unfinished])
      · intro hphase
        exact hthrown h hh (by simp [Temporary.thrown, hphase])

/-- The invariant holds along every run. -/
theorem disposing_of_run {now : ℤ} (hrun : Run (Threads.Step k) (.new k now) trace s) :
    Disposing trace s := by
  refine hrun.invariant (I := Disposing) ?_ fun _ hs hstep => hs.step hstep
  exact ⟨fun h => absurd rfl h, fun _ _ _ h => h.elim, rfl, rfl, fun _ _ h => by cases h⟩

/-- No task has thrown on a temporary handler when `dispose` has returned. -/
theorem Disposing.throws_eq_false (hs : Disposing trace s) (hreturned : s.stage = .returned) :
    ∀ turn ∈ trace, turn.throws = false := by
  have hthrown : s.temporaries.countP Temporary.thrown = 0 := by
    rw [List.countP_eq_zero]
    intro h hh
    simpa [Temporary.thrown] using (hs.returned hreturned h hh).2
  rw [hs.thrown_eq, List.countP_eq_zero] at hthrown
  simpa using hthrown

/-- A dispatcher that has been disposed stays so. -/
theorem Threads.Step.returned (hstep : s.Step k turn t) (hreturned : s.stage = .returned) :
    t.stage = .returned := by
  cases hstep.effect with
  | submit | lookUp | bind | unbind | request | worker | start | temporary | poll => exact hreturned
  | leave => rfl
  | flag hstage | join hstage =>
    rw [hreturned] at hstage
    cases hstage
  | stop _ _ hstage => simp [hreturned] at hstage

/-- The handlers and workers of a disposed dispatcher take no steps. -/
theorem Disposing.own_eq_false (hs : Disposing trace s) (hreturned : s.stage = .returned) {i : ℕ}
    {move : Scheduler.Move} (hstep : s.Step k (.worker i move) t) : move.isOwn = false := by
  cases hstep.effect with
  | worker hinner hm hmove =>
    exact (hmove.ended (hs.joined i _ hm (by rw [hreturned]; trivial))).2

/-- **No task runs after `dispose`.** However the submitting threads, the handlers, the workers of
the pool, the temporary handlers and the disposing thread interleave: when `dispose` has returned,
all handlers and workers have ended and take no further steps, no temporary handler is in its task,
and none ever begins one. Until then no task has thrown on a temporary handler; so `dispose` never
returns when one has. -/
theorem quiet_after_dispose {now : ℤ} (hrun : Run (Threads.Step k) (.new k now) trace s)
    (hreturned : s.stage = .returned) :
    (∀ turn ∈ trace, turn.throws = false) ∧
    ∀ later t, Run (Threads.Step k) s later t →
      (∀ m ∈ t.workers, m.place = .ended) ∧ (∀ h ∈ t.temporaries, h.phase ≠ .running) ∧
      ∀ i move, .worker i move ∈ later → move.isOwn = false := by
  have hs := disposing_of_run hrun
  constructor
  · exact hs.throws_eq_false hreturned
  · intro later t hlater
    obtain ⟨ht, hstage, hown⟩ : Disposing (trace ++ later) t ∧ t.stage = .returned ∧
        ∀ i move, .worker i move ∈ later → move.isOwn = false := by
      refine hlater.invariant (I := fun later t => Disposing (trace ++ later) t ∧
        t.stage = .returned ∧ ∀ i move, .worker i move ∈ later → move.isOwn = false) ?_ ?_
      · exact ⟨by simpa using hs, hreturned, by simp⟩
      · rintro later turn t u _ ⟨ht, hstage, hown⟩ hstep
        refine ⟨by simpa using ht.step hstep, hstep.returned hstage, ?_⟩
        intro i move hmem
        rcases List.mem_append.mp hmem with hold | hnew
        · exact hown i move hold
        · obtain rfl := List.mem_singleton.mp hnew
          exact ht.own_eq_false hstage hstep
    refine ⟨fun m hm => ?_, fun h hh => (ht.returned hstage h hh).1, hown⟩
    obtain ⟨i, hi⟩ := List.mem_iff_getElem?.mp hm
    exact ht.joined i m hi (by rw [hstage]; trivial)

namespace Scenario

/-- A dispatcher with one handler is disposed while a submission is under way. -/
def disposed : List (Turn ℕ) :=
  [.submit kExecuteInPool 0 false, .upload 0 0, .dispose, .dispose, .dispose, .dispose,
    .worker 0 (.extract 0), .worker 0 (.measure 0), .worker 0 (.enter 0), .worker 0 .test, .dispose,
    .dispose]

/-- The submission gets a temporary handler. -/
def late : List (Turn ℕ) :=
  [.upload 0 1, .temporary 0 (.queue 1), .temporary 0 (.extract 2), .temporary 0 .enter]

end Scenario

/-- The temporary handler that is started after `dispose` has returned leaves its task out. -/
theorem quiet_after_dispose_late :
    ∃ s t : Threads ℕ, Run (Threads.Step ⟨1, 0⟩) (.new ⟨1, 0⟩ 0) Scenario.disposed s ∧
      s.stage = .returned ∧ Run (Threads.Step ⟨1, 0⟩) s Scenario.late t ∧
      t.temporaries.map Temporary.phase = [.returning] ∧ ∀ m ∈ t.workers, m.place = .ended := by
  have hrun : Run (Threads.Step ⟨1, 0⟩) (.new ⟨1, 0⟩ 0) Scenario.disposed _ :=
    Run.of_foldlM_some rfl
  refine ⟨_, _, hrun, rfl, Run.of_foldlM_some rfl, rfl, ?_⟩
  exact ((quiet_after_dispose hrun rfl).2 Scenario.late _ (Run.of_foldlM_some rfl)).1

end CppJam.Dispatcher
