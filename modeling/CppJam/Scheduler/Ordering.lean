import CppJam.Runs
import CppJam.Scheduler.QueueInvariant

/-!
# Order and number of executions

Along every interleaving of the scheduler thread with threads that queue tasks, the
queue is sorted by due time with ties in the order of insertion, extraction takes its
first task and not before it is due, a task without predicate is extracted at most once,
and a repeating task goes back into the queue exactly when its predicate returned `true`
and its body returned.
-/

namespace CppJam.Scheduler

open Containers Runs

variable {start : ℤ} {s s' u u' : State} {label : Label} {trace front : List Label}

/-- The invariant holds after every run. -/
theorem invariant_of_run (hrun : Run Step (State.initial start) trace s) : Invariant s :=
  hrun.invariant (I := fun _ s => Invariant s) (invariant_initial start)
    fun _ hinv hstep => hstep.invariant hinv

/-- The steps of the scheduler thread in the current turn of its loop. -/
def Label.turn : List Label → Label → List Label
  | _, .extract _ => []
  | turn, .skip => turn ++ [.skip]
  | turn, .ask answer => turn ++ [.ask answer]
  | turn, .body returned => turn ++ [.body returned]
  | turn, .requeue now => turn ++ [.requeue now]
  | turn, _ => turn

/-- The steps of the scheduler thread since the last extraction. -/
def turnOf (trace : List Label) : List Label := trace.foldl Label.turn []

/-- In a completed turn the task was put back exactly when its predicate returned `true`
and its body returned. -/
def PutBack (turn : List Label) : Prop :=
  (∃ now, .requeue now ∈ turn) ↔ .ask (some true) ∈ turn ∧ .body true ∈ turn

/-- The steps of a turn, by the place that the scheduler thread has reached. -/
def TurnAt (turn : List Label) : Hand → Prop
  | .idle => PutBack turn
  | .holding _ => turn = []
  | .confirmed _ => turn = [.ask (some true)]
  | .finished _ => turn = [.ask (some true), .body true]

/-- Every step keeps the turn in line with the place of the thread. -/
theorem HandStep.turnAt {hand hand' : Hand} (hmove : HandStep hand label hand')
    {turn : List Label} (hturn : TurnAt turn hand) : TurnAt (Label.turn turn label) hand' := by
  cases hmove with
  | addDelayed | uploadIfFree | repeats => exact hturn
  | extractNone => simp [Label.turn, TurnAt, PutBack]
  | extractFirst => rfl
  | skip => simp [Label.turn, TurnAt, PutBack, show turn = [] from hturn]
  | confirm => simp [Label.turn, TurnAt, show turn = [] from hturn]
  | decline _ answer hanswer =>
    simp [Label.turn, TurnAt, PutBack, show turn = [] from hturn]
  | runOnce => simp [Label.turn, TurnAt, PutBack, show turn = [] from hturn]
  | finish => simp [Label.turn, TurnAt, show turn = [.ask (some true)] from hturn]
  | throw => simp [Label.turn, TurnAt, PutBack, show turn = [.ask (some true)] from hturn]
  | requeue _ now =>
    simp [Label.turn, TurnAt, PutBack, show turn = [.ask (some true), .body true] from hturn]

/-- The turn of every run is in line with the place of the thread. -/
theorem turnAt_of_run (hrun : Run Step (State.initial start) trace s) :
    TurnAt (turnOf trace) s.hand := by
  refine hrun.invariant (I := fun trace s => TurnAt (turnOf trace) s.hand) ?_ ?_
  · simp [turnOf, TurnAt, PutBack, State.initial]
  · intro trace label t u _ hturn hstep
    have hstep' := hstep.handStep.turnAt hturn
    simpa [turnOf] using hstep'

/-- A successful extraction takes the first task of the order, when it is due. -/
theorem Step.extract_least {now : ℤ} {t : TimedTask} (hinv : Invariant u)
    (hstep : Step u (.extract now) u') (hhand : u'.hand = .holding t) :
    t.due ≤ now ∧ ∃ rest, u.tasks = t :: rest ∧ u'.tasks = rest ∧ ∀ b ∈ rest, Before t b := by
  obtain ⟨hplace, hextract⟩ := hstep.of_extract
  obtain ⟨_, ⟨_, rfl⟩ | ⟨first, rest, htasks, hdue, rfl⟩⟩ := extractExpired_cases hextract
  · rw [hplace] at hhand
    cases hhand
  · cases hhand
    have hsorted := hinv.sorted
    rw [htasks, List.pairwise_cons] at hsorted
    exact ⟨hdue, rest, htasks, rfl, hsorted.1⟩

/-- A predicate or body is called for a task at hand. -/
theorem HandStep.task_of_call {hand hand' : Hand} (hmove : HandStep hand label hand')
    (hcall : label.IsCall) : ∃ t, hand.task? = some t := by
  cases hmove with
  | skip t | confirm t | decline t | runOnce t | finish t | throw t => exact ⟨t, rfl⟩
  | addDelayed | uploadIfFree | repeats | extractNone | extractFirst | requeue =>
    exact hcall.elim

/-- Putting a task back queues it again with a new time of creation. -/
theorem Step.requeue_mem {now : ℤ} (hstep : Step u (.requeue now) u') :
    ∃ t, u.hand = .finished t ∧ ∃ t' ∈ u'.tasks, t'.id = t.id ∧ t'.created = now := by
  obtain ⟨t, hhand, _, hadd⟩ := hstep.of_requeue
  rw [add_eq_some hadd]
  exact ⟨t, hhand, _, mem_enqueue.mpr (Or.inl rfl), rfl, rfl⟩

/-- What a run of the scheduler guarantees. -/
structure SchedulerLaw (start : ℤ) (trace : List Label) (s : State) : Prop where
  /-- The queue is sorted by due time, ties in the order of insertion. -/
  sorted : s.tasks.Pairwise Before
  /-- Every extraction takes the first task of that order, and not before it is due. -/
  least : ∀ front now back u u' t, trace = front ++ .extract now :: back →
    Run Step (State.initial start) front u → Step u (.extract now) u' → u'.hand = .holding t →
    t.due ≤ now ∧ ∃ rest, u.tasks = t :: rest ∧ u'.tasks = rest ∧ ∀ b ∈ rest, Before t b
  /-- Predicate and body are called for a task that is due. -/
  due : ∀ front label back u, trace = front ++ label :: back →
    Run Step (State.initial start) front u → label.IsCall →
    ∃ t, u.hand.task? = some t ∧ t.due ≤ u.now
  /-- A task without predicate is extracted at most once. -/
  once : s.extracted.Pairwise (fun a b => a.id = b.id → a.predic = true)
  /-- Putting a task back queues it again with a new time of creation. -/
  requeued : ∀ front now back u u', trace = front ++ .requeue now :: back →
    Run Step (State.initial start) front u → Step u (.requeue now) u' →
    ∃ t, u.hand = .finished t ∧ ∃ t' ∈ u'.tasks, t'.id = t.id ∧ t'.created = now
  /-- A completed turn of the loop put its task back exactly when the predicate returned
  `true` and the body returned. -/
  putBack : s.hand = .idle → PutBack (turnOf trace)

/-- Every run obeys the law. -/
theorem schedulerLaw (hrun : Run Step (State.initial start) trace s) :
    SchedulerLaw start trace s := by
  have hinv := invariant_of_run hrun
  refine ⟨hinv.sorted, ?_, ?_, hinv.once, fun _ _ _ _ _ _ _ hstep => hstep.requeue_mem, ?_⟩
  · intro front now back u u' t _ hfront hstep hhand
    exact hstep.extract_least (invariant_of_run hfront) hhand
  · rintro front label back u rfl hfront hcall
    obtain ⟨v, v', hfront', hstep, _⟩ := hrun.at_step
    obtain rfl := hfront.unique (fun _ _ _ _ h h' => Option.some.inj (h.symm.trans h')) hfront'
    obtain ⟨t, ht⟩ := hstep.handStep.task_of_call hcall
    exact ⟨t, ht, ((invariant_of_run hfront).hand t ht).2.1⟩
  · intro hidle
    have hturn := turnAt_of_run hrun
    rw [hidle] at hturn
    exact hturn

/-- Three tasks, of which the second and the third are due at the same time, and the
second repeats once. -/
def Scenario.threeTasks : List Label :=
  [.addDelayed 0 5 true, .repeats 0 3 true true, .uploadIfFree 0 3 true, .extract 3000,
    .ask (some true), .addDelayed 3001 0 true, .body true, .requeue 3002, .extract 3003,
    .body false]

/-- The law for the three tasks: the repeating one is extracted before the one inserted
after it. -/
theorem schedulerLaw_threeTasks :
    ∃ s, Run Step (State.initial 0) Scenario.threeTasks s ∧
      s.extracted.map TimedTask.id = [1, 2] ∧ s.tasks.map TimedTask.id = [3, 0, 1] ∧
      SchedulerLaw 0 Scenario.threeTasks s := by
  have hrun : Run Step (State.initial 0) Scenario.threeTasks _ := Run.of_foldlM_some rfl
  exact ⟨_, hrun, rfl, rfl, schedulerLaw hrun⟩

end CppJam.Scheduler
