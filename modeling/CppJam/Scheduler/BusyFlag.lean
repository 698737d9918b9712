import CppJam.Scheduler.Ordering

/-!
# The busy flag

The flag is set when a task without timeout is queued and when a task is extracted, and
it is cleared when an extraction finds no due task. Creation times do not lie ahead of
the clock, so a queued task without timeout is due at once, and so is the first task of
the queue: an extraction does not clear the flag while such a task waits. So a scheduler
that looks free to `uploadIfFree` runs nothing and has nothing to run at once.
-/

namespace CppJam.Scheduler

open Containers Runs

variable {start : ℤ} {s s' : State} {label : Label} {trace : List Label}

/-- A queued task waits for no timeout. -/
def Immediate (s : State) : Prop := ∃ t ∈ s.tasks, t.timeout = 0

/-- The thread executes a task, or one waits to be executed at once. -/
def Engaged (s : State) : Prop := s.hand ≠ .idle ∨ Immediate s

/-- What holds of the flag in every state. -/
structure BusyInvariant (s : State) : Prop where
  /-- Queued tasks were created before the last reading of the clock. -/
  created : ∀ t ∈ s.tasks, t.created ≤ s.now
  busy : Engaged s → s.isBusy = true

/-- A later clock and a thread that is at the same task or at none keep the invariant. -/
theorem BusyInvariant.proceed (hinv : BusyInvariant s) (s' : State) (htasks : s'.tasks = s.tasks)
    (hnow : s.now ≤ s'.now) (hhand : s'.hand ≠ .idle → s.hand ≠ .idle)
    (hbusy : s'.isBusy = s.isBusy) : BusyInvariant s' := by
  refine ⟨fun t ht => (hinv.created t (htasks ▸ ht)).trans hnow, ?_⟩
  rw [hbusy, Engaged, Immediate, htasks]
  exact fun hengaged => hinv.busy (hengaged.imp_left hhand)

/-- Queueing a task keeps the invariant. -/
theorem BusyInvariant.add (hinv : BusyInvariant s) {t : TimedTask} (ht : t.created ≤ s.now)
    (hadd : s.add t = some s') : BusyInvariant s' := by
  obtain rfl := add_eq_some hadd
  constructor
  · intro x hx
    rcases mem_enqueue.mp hx with rfl | hx
    · exact ht
    · exact hinv.created x hx
  · rintro (hhand | ⟨x, hx, hzero⟩)
    · simp [hinv.busy (Or.inl hhand)]
    · rcases mem_enqueue.mp hx with rfl | hx
      · simp [show t.timeout = 0 from hzero]
      · simp [hinv.busy (Or.inr ⟨x, hx, hzero⟩)]

/-- Queueing the task of a new call keeps the invariant. -/
theorem BusyInvariant.accept (hinv : BusyInvariant s) {now timeout : ℤ} {predic task : Bool}
    (haccept : s.accept now timeout predic task = some s') : BusyInvariant s' := by
  obtain ⟨hnow, hadd⟩ := accept_eq_some haccept
  exact (hinv.proceed { s with now := now, accepted := s.accepted + 1 } rfl hnow id
    rfl).add le_rfl hadd

/-- An extraction that finds no due task finds no task without timeout. -/
theorem BusyInvariant.not_immediate (hinv : BusyInvariant s) (hsorted : s.tasks.Pairwise Before)
    {now : ℤ} (hnow : s.now ≤ now)
    (hnone : ∀ first rest, s.tasks = first :: rest → now < first.due) : ¬Immediate s := by
  rintro ⟨t, ht, hzero⟩
  cases htasks : s.tasks with
  | nil => simp [htasks] at ht
  | cons first rest =>
    -- the first task is due no later than the one that waits, which was due when it was created
    have hfirst : first.due ≤ t.due := by
      rw [htasks] at ht hsorted
      rcases List.mem_cons.mp ht with rfl | hrest
      · exact le_rfl
      · exact (List.rel_of_pairwise_cons hsorted hrest).key_le
    have hdue : t.due = t.created := by simp [TimedTask.due, hzero]
    have hcreated := hinv.created t ht
    have hlate := hnone first rest htasks
    omega

/-- An extraction keeps the invariant. -/
theorem BusyInvariant.extract (hinv : BusyInvariant s) (hsorted : s.tasks.Pairwise Before)
    (hidle : s.hand = .idle) {now : ℤ} (hextract : s.extractExpired now = some s') :
    BusyInvariant s' := by
  obtain ⟨hnow, ⟨hnone, rfl⟩ | ⟨first, rest, htasks, _, rfl⟩⟩ := extractExpired_cases hextract
  · refine ⟨fun t ht => (hinv.created t ht).trans hnow, ?_⟩
    rintro (hhand | himmediate)
    · exact absurd hidle hhand
    · exact absurd himmediate (hinv.not_immediate hsorted hnow hnone)
  · refine ⟨fun t ht => ?_, fun _ => rfl⟩
    exact (hinv.created t (htasks ▸ List.mem_cons_of_mem _ ht)).trans hnow

/-- A call that ends leaves the thread at its task or at none. -/
theorem HandStep.ne_idle_of_isCall {hand hand' : Hand} (hmove : HandStep hand label hand')
    (hcall : label.IsCall) : hand ≠ .idle := by
  obtain ⟨t, ht⟩ := hmove.task_of_call hcall
  rintro rfl
  cases ht

/-- Every step keeps the invariant. -/
theorem Step.busyInvariant (hstep : Step s label s') (hqueue : Invariant s)
    (hinv : BusyInvariant s) : BusyInvariant s' := by
  obtain ⟨_, _, _, _, haccept⟩ | rfl | ⟨_, hhand, hextract⟩ | hcall | ⟨now, _, _, hnow, hadd⟩ :=
    hstep.cases
  · exact hinv.accept haccept
  · exact hinv
  · exact hinv.extract hqueue.sorted hhand hextract
  · rw [hstep.eq_of_isCall hcall]
    exact hinv.proceed _ rfl le_rfl (fun _ => hstep.handStep.ne_idle_of_isCall hcall) rfl
  · exact (hinv.proceed { s with now := now, hand := .idle } rfl hnow
      (fun hne => absurd rfl hne) rfl).add le_rfl hadd

/-- The invariant holds after every run. -/
theorem busyInvariant_of_run (hrun : Run Step (State.initial start) trace s) :
    BusyInvariant s := by
  refine hrun.invariant (I := fun _ s => BusyInvariant s) ?_ ?_
  · constructor <;> simp [State.initial, Engaged, Immediate]
  · intro trace label t u hfront hinv hstep
    exact hstep.busyInvariant (invariant_of_run hfront) hinv

/-- A new task in the queue of a scheduler, and nothing else. -/
theorem accept_tasks {now timeout : ℤ} {predic task : Bool}
    (haccept : s.accept now timeout predic task = some s') :
    s'.tasks.Perm (⟨s.accepted, s.insertions, now, timeout, predic, task⟩ :: s.tasks) := by
  obtain ⟨_, hadd⟩ := accept_eq_some haccept
  rw [add_eq_some hadd]
  exact enqueue_perm _ _

/-- The task was given back, and the scheduler is as before. -/
def GivenBack (s : State) (task : Bool) (s' : State) (returned : Option Bool) : Prop :=
  returned = some task ∧ s' = s

/-- The task was queued once, and not given back. -/
def Queued (s : State) (now timeout : ℤ) (task : Bool) (s' : State) (returned : Option Bool) :
    Prop :=
  returned = none ∧
    s'.tasks.Perm (⟨s.accepted, s.insertions, now, timeout, false, task⟩ :: s.tasks)

/-- What a run guarantees of the busy flag. -/
structure BusyLaw (start : ℤ) (trace : List Label) (s : State) : Prop where
  /-- The flag is set while a task is executed or waits to be executed at once. -/
  busy : Engaged s → s.isBusy = true
  /-- Every `uploadIfFree` leads to the next state of the run. It gives the task back when the
  scheduler is busy. A free scheduler queues it, and not behind a task that is executed or waits to
  be executed at once. -/
  upload : ∀ front now timeout task back u,
    trace = front ++ .uploadIfFree now timeout task :: back →
    Run Step (State.initial start) front u →
    ∃ u' returned, u.uploadIfFree now timeout task = some (u', returned) ∧
      Step u (.uploadIfFree now timeout task) u' ∧ Run Step u' back s ∧
      (u.isBusy = true ∧ GivenBack u task u' returned ∨
        u.isBusy = false ∧ ¬Engaged u ∧ Queued u now timeout task u' returned)

/-- **The busy flag.** In every run it is set whenever a task is executed or waits to be
executed at once, so `uploadIfFree` queues no task behind such a one. -/
theorem busyLaw (hrun : Run Step (State.initial start) trace s) : BusyLaw start trace s := by
  refine ⟨(busyInvariant_of_run hrun).busy, ?_⟩
  rintro front now timeout task back u rfl hfront
  obtain ⟨v, v', hfront', hstep, hback⟩ := hrun.at_step
  obtain rfl := hfront.unique (fun _ _ _ _ h h' => Option.some.inj (h.symm.trans h')) hfront'
  obtain ⟨⟨_, returned⟩, hupload, rfl⟩ := Option.map_eq_some_iff.mp hstep
  refine ⟨_, returned, hupload, hstep, hback, ?_⟩
  obtain ⟨hbusy, hreturned, hkept⟩ | ⟨hfree, hreturned, haccept⟩ := uploadIfFree_cases hupload
  · exact Or.inl ⟨hbusy, hreturned, hkept⟩
  · have hengaged : ¬Engaged u :=
      fun hengaged => absurd ((busyInvariant_of_run hfront).busy hengaged) (by simp [hfree])
    exact Or.inr ⟨hfree, hengaged, hreturned, accept_tasks haccept⟩

/-- A task is given back while another one is executed or waits to be executed at once, and
queued when the scheduler is free again. -/
def Scenario.uploads : List Label :=
  [.addDelayed 0 0 true, .uploadIfFree 1 0 true, .extract 2, .uploadIfFree 3 5 true,
    .body true, .extract 4, .uploadIfFree 5 5 true]

/-- The law for the three uploads: only the last one is queued. -/
theorem busyLaw_uploads :
    ∃ s, Run Step (State.initial 0) Scenario.uploads s ∧ BusyLaw 0 Scenario.uploads s ∧
      s.tasks.map TimedTask.created = [5] ∧ s.extracted.map TimedTask.created = [0] := by
  have hrun : Run Step (State.initial 0) Scenario.uploads _ := Run.of_foldlM_some rfl
  exact ⟨_, hrun, busyLaw hrun, rfl, rfl⟩

end CppJam.Scheduler
