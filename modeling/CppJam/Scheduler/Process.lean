import CppJam.Containers.StableQueue
import CppJam.Types

/-!
# The scheduler of the subscription engine

`scheduler_impl.hpp`: other threads queue tasks under a lock, and the scheduler thread
extracts the first task when it is due, runs it without the lock, and puts a repeating
task back. The steps below are the critical sections and the calls of predicate and
body, so that other threads come in between. Time is in nanoseconds and timeouts in
microseconds; a due time that does not fit in 64 bits is undefined.
-/

namespace CppJam.Scheduler

open Containers

/-- `TimedTask`. The identity of the accepted call and the number of the insertion are
added for the statements; the code does not have them. -/
structure TimedTask where
  /-- The call that the task comes from. -/
  id : ℕ
  /-- The insertion that put the task into the queue. -/
  stamp : ℕ
  /-- When the task was queued. -/
  created : ℤ
  /-- How long it waits. -/
  timeout : ℤ
  /-- A predicate is set: the task may repeat. -/
  predic : Bool
  /-- A body is set. -/
  task : Bool
  deriving DecidableEq

/-- `created + timeout`. -/
def TimedTask.due (t : TimedTask) : ℤ := t.created + 1000 * t.timeout

/-- The number fits in 64 bits. -/
def Fits (x : ℤ) : Prop := -9223372036854775808 ≤ x ∧ x ≤ 9223372036854775807

instance (x : ℤ) : Decidable (Fits x) := inferInstanceAs (Decidable (_ ∧ _))

/-- The order of the queue: by due time, then by insertion. -/
abbrev Before : TimedTask → TimedTask → Prop := Precedes TimedTask.due TimedTask.stamp

/-- What the scheduler thread does. -/
inductive Hand where
  /-- It is at the head of its loop. -/
  | idle
  /-- It has extracted the task and not called anything yet. -/
  | holding (t : TimedTask)
  /-- The predicate of the task returned `true`. -/
  | confirmed (t : TimedTask)
  /-- The body of the repeating task returned. -/
  | finished (t : TimedTask)
  deriving DecidableEq

/-- The task that the scheduler thread works on. -/
def Hand.task? : Hand → Option TimedTask
  | idle => none
  | holding t => some t
  | confirmed t => some t
  | finished t => some t

/-- The scheduler. -/
structure State where
  /-- `tasks_`. -/
  tasks : List TimedTask
  /-- `is_busy_`. -/
  isBusy : Bool
  /-- What the scheduler thread does. -/
  hand : Hand
  /-- The last reading of the clock. -/
  now : ℤ
  /-- Number of accepted calls. -/
  accepted : ℕ
  /-- Number of insertions. -/
  insertions : ℕ
  /-- The extracted tasks in order. -/
  extracted : List TimedTask
  deriving DecidableEq

/-- A new scheduler. -/
def State.initial (now : ℤ) : State := ⟨[], false, .idle, now, 0, 0, []⟩

/-- `add`: a task without timeout makes the scheduler busy. -/
def State.add (t : TimedTask) (s : State) : Option State :=
  if Fits (1000 * t.timeout) ∧ Fits t.due then
    some { s with
      tasks := enqueue TimedTask.due { t with stamp := s.insertions } s.tasks
      isBusy := s.isBusy || t.timeout == 0
      insertions := s.insertions + 1 }
  else none

/-- Read the clock, which does not go backwards. -/
def State.readClock (now : ℤ) (s : State) : Option State :=
  if s.now ≤ now then some { s with now := now } else none

/-- Queue a task of a new call. -/
def State.accept (now timeout : ℤ) (predic task : Bool) (s : State) : Option State := do
  let s ← s.readClock now
  State.add ⟨s.accepted, s.insertions, now, timeout, predic, task⟩
    { s with accepted := s.accepted + 1 }

/-- `uploadIfFree`: the scheduler afterwards, and the task when it is given back. -/
def State.uploadIfFree (now timeout : ℤ) (task : Bool) (s : State) :
    Option (State × Option Bool) :=
  if s.isBusy then some (s, some task)
  else do
    let s ← s.accept now timeout false task
    return (s, none)

/-- `extractExpired`. -/
def State.extractExpired (now : ℤ) (s : State) : Option State := do
  let s ← s.readClock now
  match s.tasks with
  | [] => return { s with isBusy := false }
  | first :: rest =>
    if first.due ≤ now then
      return { s with
        tasks := rest
        isBusy := true
        hand := .holding first
        extracted := s.extracted ++ [first] }
    else return { s with isBusy := false }

/-- One step of the scheduler thread or of another thread. -/
inductive Label where
  /-- `addDelayed`. -/
  | addDelayed (now timeout : ℤ) (task : Bool)
  /-- `uploadIfFree`. -/
  | uploadIfFree (now timeout : ℤ) (task : Bool)
  /-- `repeat`. -/
  | repeats (now timeout : ℤ) (task pred : Bool)
  /-- `extractExpired`, called at the head of the loop in `process`. -/
  | extract (now : ℤ)
  /-- The extracted task has no body. -/
  | skip
  /-- The predicate returns, or throws (`none`). -/
  | ask (answer : Option Bool)
  /-- The body returns, or throws (`false`). -/
  | body (returned : Bool)
  /-- The task is put back with a new time of creation. -/
  | requeue (now : ℤ)
  deriving DecidableEq

/-- Execute one step; `none` when it is not the turn of the step, when the clock would
go backwards, or when a due time does not fit. -/
def exec (s : State) : Label → Option State
  | .addDelayed now timeout task => s.accept now timeout false task
  | .uploadIfFree now timeout task => (s.uploadIfFree now timeout task).map Prod.fst
  | .repeats now timeout task pred => s.accept now timeout pred task
  | .extract now =>
    match s.hand with
    | .idle => s.extractExpired now
    | _ => none
  | .skip =>
    match s.hand with
    | .holding t => if t.task then none else some { s with hand := .idle }
    | _ => none
  | .ask answer =>
    match s.hand with
    | .holding t =>
      if t.task && t.predic then
        some { s with hand := if answer = some true then .confirmed t else .idle }
      else none
    | _ => none
  | .body returned =>
    match s.hand with
    | .holding t => if t.task && !t.predic then some { s with hand := .idle } else none
    | .confirmed t => some { s with hand := if returned then .finished t else .idle }
    | _ => none
  | .requeue now =>
    match s.hand with
    | .finished t => do
      let s ← s.readClock now
      State.add { t with created := now } { s with hand := .idle }
    | _ => none

/-- The step leads from `s` to `s'`. -/
def Step (s : State) (label : Label) (s' : State) : Prop := exec s label = some s'

variable {s s' : State} {label : Label}

/-- Adding a task whose due time fits. -/
theorem add_eq_some {t : TimedTask} (hadd : s.add t = some s') :
    s' = { s with
      tasks := enqueue TimedTask.due { t with stamp := s.insertions } s.tasks
      isBusy := s.isBusy || t.timeout == 0
      insertions := s.insertions + 1 } := by
  unfold State.add at hadd
  split_ifs at hadd
  exact (Option.some.inj hadd).symm

/-- Reading the clock. -/
theorem readClock_eq_some {now : ℤ} (hread : s.readClock now = some s') :
    s.now ≤ now ∧ s' = { s with now := now } := by
  unfold State.readClock at hread
  split_ifs at hread with hnow
  exact ⟨hnow, (Option.some.inj hread).symm⟩

/-- Accepting a call reads the clock and adds the task. -/
theorem accept_eq_some {now timeout : ℤ} {predic task : Bool}
    (haccept : s.accept now timeout predic task = some s') :
    s.now ≤ now ∧ State.add ⟨s.accepted, s.insertions, now, timeout, predic, task⟩
      { s with now := now, accepted := s.accepted + 1 } = some s' := by
  simp only [State.accept, Option.bind_eq_bind, Option.bind_eq_some_iff] at haccept
  obtain ⟨mid, hread, hadd⟩ := haccept
  obtain ⟨hnow, rfl⟩ := readClock_eq_some hread
  exact ⟨hnow, hadd⟩

/-- What extraction does: nothing to the queue, or it takes the first task. -/
theorem extractExpired_cases {now : ℤ} (hextract : s.extractExpired now = some s') :
    s.now ≤ now ∧ ((∀ first rest, s.tasks = first :: rest → now < first.due) ∧
        s' = { s with isBusy := false, now := now } ∨
      ∃ first rest, s.tasks = first :: rest ∧ first.due ≤ now ∧
        s' = ⟨rest, true, .holding first, now, s.accepted, s.insertions,
          s.extracted ++ [first]⟩) := by
  simp only [State.extractExpired, Option.bind_eq_bind, Option.bind_eq_some_iff] at hextract
  obtain ⟨mid, hread, hrest⟩ := hextract
  obtain ⟨hnow, rfl⟩ := readClock_eq_some hread
  refine ⟨hnow, ?_⟩
  cases htasks : s.tasks with
  | nil =>
    simp only [htasks] at hrest
    exact Or.inl ⟨by simp, (Option.some.inj hrest).symm⟩
  | cons first rest =>
    simp only [htasks] at hrest
    split_ifs at hrest with hdue
    · exact Or.inr ⟨first, rest, rfl, hdue, (Option.some.inj hrest).symm⟩
    · refine Or.inl ⟨?_, (Option.some.inj hrest).symm⟩
      rintro _ _ ⟨⟩
      exact not_le.mp hdue

/-- `uploadIfFree` gives the task back when the scheduler is busy, and queues it when it is not. -/
theorem uploadIfFree_cases {now timeout : ℤ} {task : Bool} {returned : Option Bool}
    (hupload : s.uploadIfFree now timeout task = some (s', returned)) :
    s.isBusy = true ∧ returned = some task ∧ s' = s ∨
      s.isBusy = false ∧ returned = none ∧ s.accept now timeout false task = some s' := by
  unfold State.uploadIfFree at hupload
  split_ifs at hupload with hbusy
  · cases hupload
    exact Or.inl ⟨hbusy, rfl, rfl⟩
  · simp only [Option.bind_eq_bind, Option.bind_eq_some_iff, Option.pure_def, Option.some.injEq,
      Prod.mk.injEq] at hupload
    obtain ⟨_, haccept, rfl, rfl⟩ := hupload
    exact Or.inr ⟨Bool.eq_false_iff.mpr hbusy, rfl, haccept⟩

/-- `uploadIfFree` gives the task back and changes nothing, or queues it. -/
theorem Step.of_uploadIfFree {now timeout : ℤ} {task : Bool}
    (hstep : Step s (.uploadIfFree now timeout task) s') :
    s' = s ∨ s.accept now timeout false task = some s' := by
  obtain ⟨⟨_, _⟩, hupload, rfl⟩ := Option.map_eq_some_iff.mp hstep
  obtain ⟨_, _, hkept⟩ | ⟨_, _, haccept⟩ := uploadIfFree_cases hupload
  · exact Or.inl hkept
  · exact Or.inr haccept

/-- A thread that extracts has no task at hand. -/
theorem Step.of_extract {now : ℤ} (hstep : Step s (.extract now) s') :
    s.hand = .idle ∧ s.extractExpired now = some s' := by
  cases hhand : s.hand <;> simp only [Step, exec, hhand, reduceCtorEq] at hstep
  exact ⟨rfl, hstep⟩

/-- A thread that puts a task back has finished it. -/
theorem Step.of_requeue {now : ℤ} (hstep : Step s (.requeue now) s') :
    ∃ t, s.hand = .finished t ∧ s.now ≤ now ∧
      State.add { t with created := now } { s with now := now, hand := .idle } = some s' := by
  cases hhand : s.hand <;> simp only [Step, exec, hhand, reduceCtorEq] at hstep
  simp only [Option.bind_eq_bind, Option.bind_eq_some_iff] at hstep
  obtain ⟨mid, hread, hadd⟩ := hstep
  obtain ⟨hnow, rfl⟩ := readClock_eq_some hread
  exact ⟨_, rfl, hnow, hadd⟩

/-- How the scheduler thread goes from one place of its loop to the next. Steps of other
threads leave it where it is. -/
inductive HandStep : Hand → Label → Hand → Prop
  | addDelayed (hand : Hand) (now timeout : ℤ) (task : Bool) :
      HandStep hand (.addDelayed now timeout task) hand
  | uploadIfFree (hand : Hand) (now timeout : ℤ) (task : Bool) :
      HandStep hand (.uploadIfFree now timeout task) hand
  | repeats (hand : Hand) (now timeout : ℤ) (task pred : Bool) :
      HandStep hand (.repeats now timeout task pred) hand
  | extractNone (now : ℤ) : HandStep .idle (.extract now) .idle
  | extractFirst (now : ℤ) (t : TimedTask) : HandStep .idle (.extract now) (.holding t)
  | skip (t : TimedTask) : HandStep (.holding t) .skip .idle
  | confirm (t : TimedTask) (hpredic : t.predic = true) :
      HandStep (.holding t) (.ask (some true)) (.confirmed t)
  | decline (t : TimedTask) (answer : Option Bool) (hanswer : answer ≠ some true) :
      HandStep (.holding t) (.ask answer) .idle
  | runOnce (t : TimedTask) (returned : Bool) : HandStep (.holding t) (.body returned) .idle
  | finish (t : TimedTask) : HandStep (.confirmed t) (.body true) (.finished t)
  | throw (t : TimedTask) : HandStep (.confirmed t) (.body false) .idle
  | requeue (t : TimedTask) (now : ℤ) : HandStep (.finished t) (.requeue now) .idle

/-- Queueing a task of a new call does not concern the scheduler thread. -/
theorem accept_hand {now timeout : ℤ} {predic task : Bool}
    (haccept : s.accept now timeout predic task = some s') : s'.hand = s.hand := by
  obtain ⟨_, hadd⟩ := accept_eq_some haccept
  rw [add_eq_some hadd]

/-- Every step moves the scheduler thread along its loop. -/
theorem Step.handStep (hstep : Step s label s') : HandStep s.hand label s'.hand := by
  cases label with
  | addDelayed now timeout task => exact accept_hand hstep ▸ .addDelayed ..
  | uploadIfFree now timeout task =>
    obtain rfl | haccept := hstep.of_uploadIfFree
    · exact .uploadIfFree ..
    · exact accept_hand haccept ▸ .uploadIfFree ..
  | repeats now timeout task pred => exact accept_hand hstep ▸ .repeats ..
  | extract now =>
    obtain ⟨hhand, hextract⟩ := hstep.of_extract
    rw [hhand]
    obtain ⟨_, ⟨_, rfl⟩ | ⟨first, rest, _, _, rfl⟩⟩ := extractExpired_cases hextract
    · exact hhand ▸ .extractNone now
    · exact .extractFirst now first
  | skip =>
    cases hhand : s.hand <;> simp only [Step, exec, hhand, reduceCtorEq] at hstep
    split_ifs at hstep
    cases hstep
    exact .skip _
  | ask answer =>
    cases hhand : s.hand <;> simp only [Step, exec, hhand, reduceCtorEq] at hstep
    split_ifs at hstep with hset hanswer
    · cases hstep
      subst hanswer
      exact .confirm _ (by simp at hset; exact hset.2)
    · cases hstep
      exact .decline _ answer hanswer
  | body returned =>
    cases hhand : s.hand <;> simp only [Step, exec, hhand, reduceCtorEq] at hstep
    · split_ifs at hstep
      cases hstep
      exact .runOnce _ returned
    · cases returned <;> cases hstep
      · exact .throw _
      · exact .finish _
  | requeue now =>
    obtain ⟨t, hhand, _, hadd⟩ := hstep.of_requeue
    rw [add_eq_some hadd, hhand]
    exact .requeue t now

/-- The steps of the scheduler thread between extraction and putting back. -/
def Label.IsCall : Label → Prop
  | .skip => True
  | .ask _ => True
  | .body _ => True
  | _ => False

/-- A call that ends changes only the place of the thread. -/
theorem Step.eq_of_isCall (hstep : Step s label s') (hcall : label.IsCall) :
    s' = { s with hand := s'.hand } := by
  unfold Step at hstep
  cases label with
  | skip =>
    cases hhand : s.hand <;> simp only [exec, hhand, reduceCtorEq] at hstep
    split_ifs at hstep
    cases hstep
    rfl
  | ask answer =>
    cases hhand : s.hand <;> simp only [exec, hhand, reduceCtorEq] at hstep
    split_ifs at hstep <;> cases hstep <;> rfl
  | body returned =>
    cases hhand : s.hand <;> simp only [exec, hhand, reduceCtorEq] at hstep
    · split_ifs at hstep
      cases hstep
      rfl
    · cases hstep
      rfl
  | addDelayed | uploadIfFree | repeats | extract | requeue => exact hcall.elim

/-- What a step does: it queues the task of a new call, changes nothing, extracts, calls what is
at hand, or puts the task back. -/
theorem Step.cases (hstep : Step s label s') :
    (∃ now timeout predic task, s.accept now timeout predic task = some s') ∨ s' = s ∨
    (∃ now, s.hand = .idle ∧ s.extractExpired now = some s') ∨ label.IsCall ∨
    ∃ now t, s.hand = .finished t ∧ s.now ≤ now ∧
      State.add { t with created := now } { s with now := now, hand := .idle } = some s' := by
  cases label with
  | addDelayed now timeout task => exact Or.inl ⟨_, _, _, _, hstep⟩
  | uploadIfFree now timeout task =>
    obtain rfl | haccept := hstep.of_uploadIfFree
    · exact Or.inr (Or.inl rfl)
    · exact Or.inl ⟨_, _, _, _, haccept⟩
  | repeats now timeout task pred => exact Or.inl ⟨_, _, _, _, hstep⟩
  | extract now => exact Or.inr (Or.inr (Or.inl ⟨now, hstep.of_extract⟩))
  | skip | ask | body => exact Or.inr (Or.inr (Or.inr (Or.inl trivial)))
  | requeue now => exact Or.inr (Or.inr (Or.inr (Or.inr ⟨now, hstep.of_requeue⟩)))

end CppJam.Scheduler
