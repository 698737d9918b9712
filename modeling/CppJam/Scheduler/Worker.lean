import CppJam.Scheduler.QueueInvariant

/-!
# The thread of a scheduler and its event

`scheduler_impl.hpp`, `common.hpp`: the loop in `process` with the event that it waits for and the
flag that ends it. A thread that adds a task sets the event while it holds the lock of the queue,
`dispose` clears the flag and sets the event, and the loop sleeps on a condition variable, which
may also wake it for no reason. The steps are the critical sections of the two locks, the
operations on the flag and the notifications, so that other threads come in between.
-/

namespace CppJam.Scheduler

/-- `untilFirst`, in microseconds: ten minutes when the queue is empty. -/
def untilFirst (now : ℤ) : List TimedTask → ℤ
  | [] => 600000000
  | first :: _ => if now < first.due then (first.due - now) / 1000 else 0

/-- A call of `event_.wait`. -/
structure Waiting where
  /-- When `untilFirst` read the clock. -/
  measured : ℤ
  /-- What it returned. -/
  timeout : ℤ
  /-- When the wait began. -/
  entered : ℤ
  deriving DecidableEq

/-- When the wait ends without the event. -/
def Waiting.deadline (w : Waiting) : ℤ := w.entered + 1000 * w.timeout

/-- Where the thread is in `process`. -/
inductive Place where
  /-- Before `extractExpired`. -/
  | head
  /-- Between the calls of predicate and body. -/
  | calling
  /-- Inside `add`, with the lock. -/
  | adding
  /-- Before `untilFirst`. -/
  | measuring
  /-- Before `event_.wait`. -/
  | entering (measured timeout : ℤ)
  /-- On the condition variable; the thread was notified or not. -/
  | asleep (w : Waiting) (notified : Bool)
  /-- Before the test of `proceed_`. -/
  | testing
  /-- After the loop. -/
  | ended
  deriving DecidableEq

/-- `tasks_cs_`, and how far `add` is under it. -/
inductive Lock where
  /-- No thread holds it for longer than a step. -/
  | free
  /-- A task was inserted. -/
  | inserted
  /-- The event was set and the thread is not notified yet. -/
  | signaled
  deriving DecidableEq

/-- A scheduler with its thread. -/
structure Machine where
  /-- The queue and the task at hand. -/
  scheduler : State
  /-- The place of the thread. -/
  place : Place
  /-- The event is set: `flag_` is `false`. -/
  signaled : Bool
  /-- `proceed_`. -/
  proceed : Bool
  /-- The lock of the queue. -/
  lock : Lock
  /-- Calls of `dispose` that have cleared `proceed_` and not set the event. -/
  clearing : ℕ
  /-- Calls of `dispose` that have set the event and not notified. -/
  notifying : ℕ
  deriving DecidableEq

/-- A new scheduler. -/
def Machine.initial (now : ℤ) : Machine := ⟨.initial now, .head, false, true, .free, 0, 0⟩

/-- Read the clock. -/
def Machine.readClock (now : ℤ) (m : Machine) : Option Machine :=
  if m.scheduler.now ≤ now then some { m with scheduler := { m.scheduler with now := now } }
  else none

/-- `notify_one`. -/
def Place.notify : Place → Place
  | asleep w _ => asleep w true
  | place => place

/-- The predicate of the wait, which resets the event: the loop goes on when it was set. -/
def Machine.check (otherwise : Place) (m : Machine) : Machine :=
  if m.signaled then { m with signaled := false, place := .testing }
  else { m with place := otherwise }

/-- A step of the thread or of another thread. -/
inductive Move where
  /-- Another thread inserts a task, or is refused. -/
  | request (label : Label)
  /-- The thread that holds the lock sets the event. -/
  | signal
  /-- The thread that holds the lock notifies and releases it. -/
  | release
  /-- `extractExpired`. -/
  | extract (now : ℤ)
  /-- A call of predicate or body ends. -/
  | call (label : Label)
  /-- The thread inserts the task again. -/
  | requeue (now : ℤ)
  /-- `untilFirst`. -/
  | measure (now : ℤ)
  /-- `event_.wait` begins. -/
  | enter (now : ℤ)
  /-- The thread wakes up, notified or not, and checks the event. -/
  | wake
  /-- The wait times out. -/
  | expire (now : ℤ)
  /-- `proceed_.test_and_set`. -/
  | test
  /-- `dispose` clears `proceed_`. -/
  | clear
  /-- `dispose` sets the event. -/
  | disposeSignal
  /-- `dispose` notifies. -/
  | disposeNotify
  deriving DecidableEq

/-- The calls of other threads that add a task. -/
def Label.isRequest : Label → Bool
  | .addDelayed .. => true
  | .uploadIfFree .. => true
  | .repeats .. => true
  | _ => false

/-- The calls of predicate and body. -/
def Label.isCall : Label → Bool
  | .skip => true
  | .ask _ => true
  | .body _ => true
  | _ => false

/-- Execute one step; `none` when it is not the turn of the step. -/
def Machine.exec (m : Machine) : Move → Option Machine
  | .request label =>
    if m.lock = .free ∧ label.isRequest then
      (Scheduler.exec m.scheduler label).map fun s =>
        -- A refused task is given back without a word to the thread.
        { m with
          scheduler := s
          lock := if s.insertions = m.scheduler.insertions then .free else .inserted }
    else none
  | .signal =>
    if m.lock = .inserted then some { m with signaled := true, lock := .signaled } else none
  | .release =>
    if m.lock = .signaled then
      some { m with
        lock := .free
        place := if m.place = .adding then .testing else m.place.notify }
    else none
  | .extract now =>
    if m.place = .head ∧ m.lock = .free then
      (Scheduler.exec m.scheduler (.extract now)).map fun s =>
        { m with scheduler := s, place := if s.hand = .idle then .measuring else .calling }
    else none
  | .call label =>
    if m.place = .calling ∧ label.isCall then
      (Scheduler.exec m.scheduler label).map fun s =>
        { m with scheduler := s, place := if s.hand = .idle then .testing else .calling }
    else none
  | .requeue now =>
    if m.place = .calling ∧ m.lock = .free then
      (Scheduler.exec m.scheduler (.requeue now)).map fun s =>
        { m with scheduler := s, place := .adding, lock := .inserted }
    else none
  | .measure now =>
    if m.place = .measuring ∧ m.lock = .free then
      (m.readClock now).map fun m =>
        { m with place := .entering now (untilFirst now m.scheduler.tasks) }
    else none
  | .enter now =>
    match m.place with
    | .entering measured timeout =>
      (m.readClock now).map (Machine.check (.asleep ⟨measured, timeout, now⟩ false))
    | _ => none
  | .wake =>
    match m.place with
    | .asleep w _ => some (m.check (.asleep w false))
    | _ => none
  | .expire now =>
    match m.place with
    | .asleep w _ =>
      if w.deadline ≤ now then (m.readClock now).map (Machine.check .testing) else none
    | _ => none
  | .test =>
    if m.place = .testing then
      some { m with proceed := true, place := if m.proceed then .head else .ended }
    else none
  | .clear => some { m with proceed := false, clearing := m.clearing + 1 }
  | .disposeSignal =>
    if 0 < m.clearing then
      some { m with
        signaled := true
        clearing := m.clearing - 1
        notifying := m.notifying + 1 }
    else none
  | .disposeNotify =>
    if 0 < m.notifying then
      some { m with notifying := m.notifying - 1, place := m.place.notify }
    else none

/-- The step leads from `m` to `m'`. -/
def Machine.Step (m : Machine) (move : Move) (m' : Machine) : Prop := m.exec move = some m'

/-- The steps that only the thread takes. When it puts a task back it also sets the event and
releases the lock; those two steps are the same for every thread that adds and are not counted. -/
def Move.isOwn : Move → Bool
  | .extract _ => true
  | .call _ => true
  | .requeue _ => true
  | .measure _ => true
  | .enter _ => true
  | .wake => true
  | .expire _ => true
  | .test => true
  | _ => false

/-- The steps of the thread and of a thread that has queued a task and holds the lock. -/
def Move.isInner : Move → Bool
  | .signal => true
  | .release => true
  | move => move.isOwn

/-- The steps in which the thread takes a task, or finds that none is due. -/
def Move.isExtract : Move → Bool
  | .extract _ => true
  | _ => false

/-- What each step does. -/
inductive Transition (m : Machine) : Move → Machine → Prop
  | refuse (label : Label) : Transition m (.request label) m
  | insert {label : Label} {s : State} (hlock : m.lock = .free)
      (hstep : Scheduler.Step m.scheduler label s) (hhand : s.hand = m.scheduler.hand)
      (hnow : m.scheduler.now ≤ s.now) :
      Transition m (.request label) { m with scheduler := s, lock := .inserted }
  | signal (hlock : m.lock = .inserted) :
      Transition m .signal { m with signaled := true, lock := .signaled }
  | release (hlock : m.lock = .signaled) :
      Transition m .release { m with
        lock := .free
        place := if m.place = .adding then .testing else m.place.notify }
  | extract {now : ℤ} {s : State} (hplace : m.place = .head)
      (hstep : Scheduler.Step m.scheduler (.extract now) s) :
      Transition m (.extract now) { m with
        scheduler := s
        place := if s.hand = .idle then .measuring else .calling }
  | call {label : Label} {s : State} (hplace : m.place = .calling) (hcall : label.IsCall)
      (hstep : Scheduler.Step m.scheduler label s) :
      Transition m (.call label) { m with
        scheduler := s
        place := if s.hand = .idle then .testing else .calling }
  | requeue {now : ℤ} {s : State} (hplace : m.place = .calling) (hlock : m.lock = .free)
      (hstep : Scheduler.Step m.scheduler (.requeue now) s) :
      Transition m (.requeue now) { m with scheduler := s, place := .adding, lock := .inserted }
  | measure {now : ℤ} (hplace : m.place = .measuring) (hnow : m.scheduler.now ≤ now) :
      Transition m (.measure now) { m with
        scheduler := { m.scheduler with now := now }
        place := .entering now (untilFirst now m.scheduler.tasks) }
  | enter {now measured timeout : ℤ} (hplace : m.place = .entering measured timeout)
      (hnow : m.scheduler.now ≤ now) :
      Transition m (.enter now) (Machine.check (.asleep ⟨measured, timeout, now⟩ false)
        { m with scheduler := { m.scheduler with now := now } })
  | wake {w : Waiting} {notified : Bool} (hplace : m.place = .asleep w notified) :
      Transition m .wake (m.check (.asleep w false))
  | expire {now : ℤ} {w : Waiting} {notified : Bool} (hplace : m.place = .asleep w notified)
      (hnow : m.scheduler.now ≤ now) :
      Transition m (.expire now) (Machine.check .testing
        { m with scheduler := { m.scheduler with now := now } })
  | test (hplace : m.place = .testing) :
      Transition m .test
        { m with proceed := true, place := if m.proceed then .head else .ended }
  | clear : Transition m .clear { m with proceed := false, clearing := m.clearing + 1 }
  | disposeSignal (hclearing : 0 < m.clearing) :
      Transition m .disposeSignal { m with
        signaled := true
        clearing := m.clearing - 1
        notifying := m.notifying + 1 }
  | disposeNotify (hnotifying : 0 < m.notifying) :
      Transition m .disposeNotify
        { m with notifying := m.notifying - 1, place := m.place.notify }

variable {m m' : Machine} {move : Move}

/-- A request inserts one task, or changes nothing. -/
theorem request_cases {s s' : State} {label : Label} (hrequest : label.isRequest = true)
    (hstep : Scheduler.Step s label s') :
    s' = s ∨ s'.insertions ≠ s.insertions ∧ s'.hand = s.hand ∧ s.now ≤ s'.now := by
  have haccept {now timeout : ℤ} {predic task : Bool}
      (haccept : s.accept now timeout predic task = some s') :
      s'.insertions ≠ s.insertions ∧ s'.hand = s.hand ∧ s.now ≤ s'.now := by
    obtain ⟨hnow, hadd⟩ := accept_eq_some haccept
    rw [add_eq_some hadd]
    exact ⟨Nat.succ_ne_self _, rfl, hnow⟩
  cases label with
  | addDelayed now timeout task => exact Or.inr (haccept hstep)
  | uploadIfFree now timeout task =>
    obtain rfl | hadded := hstep.of_uploadIfFree
    · exact Or.inl rfl
    · exact Or.inr (haccept hadded)
  | repeats now timeout task pred => exact Or.inr (haccept hstep)
  | extract | skip | ask | body | requeue => cases hrequest

/-- A label that is a call. -/
theorem Label.isCall_iff {label : Label} : label.isCall = true ↔ label.IsCall := by
  cases label <;> simp [Label.isCall, Label.IsCall]

/-- Reading the clock of the machine. -/
theorem Machine.readClock_eq_some {now : ℤ} (hread : m.readClock now = some m') :
    m.scheduler.now ≤ now ∧ m' = { m with scheduler := { m.scheduler with now := now } } := by
  unfold Machine.readClock at hread
  split_ifs at hread with hnow
  exact ⟨hnow, (Option.some.inj hread).symm⟩

/-- Every step is one of the transitions. -/
theorem Machine.Step.transition (hstep : m.Step move m') : Transition m move m' := by
  unfold Machine.Step at hstep
  cases move with
  | request label =>
    obtain ⟨hturn, hstep⟩ := Option.ite_none_right_eq_some.mp hstep
    obtain ⟨s, hs, rfl⟩ := Option.map_eq_some_iff.mp hstep
    obtain rfl | ⟨hcount, hhand, hnow⟩ := request_cases hturn.2 hs
    · rw [if_pos rfl, ← hturn.1]
      exact .refuse label
    · rw [if_neg hcount]
      exact .insert hturn.1 hs hhand hnow
  | signal =>
    obtain ⟨hlock, hstep⟩ := Option.ite_none_right_eq_some.mp hstep
    cases hstep
    exact .signal hlock
  | release =>
    obtain ⟨hlock, hstep⟩ := Option.ite_none_right_eq_some.mp hstep
    cases hstep
    exact .release hlock
  | extract now =>
    obtain ⟨hturn, hstep⟩ := Option.ite_none_right_eq_some.mp hstep
    obtain ⟨s, hs, rfl⟩ := Option.map_eq_some_iff.mp hstep
    exact .extract hturn.1 hs
  | call label =>
    obtain ⟨hturn, hstep⟩ := Option.ite_none_right_eq_some.mp hstep
    obtain ⟨s, hs, rfl⟩ := Option.map_eq_some_iff.mp hstep
    exact .call hturn.1 (Label.isCall_iff.mp hturn.2) hs
  | requeue now =>
    obtain ⟨hturn, hstep⟩ := Option.ite_none_right_eq_some.mp hstep
    obtain ⟨s, hs, rfl⟩ := Option.map_eq_some_iff.mp hstep
    exact .requeue hturn.1 hturn.2 hs
  | measure now =>
    obtain ⟨hturn, hstep⟩ := Option.ite_none_right_eq_some.mp hstep
    obtain ⟨m₁, hread, rfl⟩ := Option.map_eq_some_iff.mp hstep
    obtain ⟨hnow, rfl⟩ := Machine.readClock_eq_some hread
    exact .measure hturn.1 hnow
  | enter now =>
    cases hplace : m.place <;> simp only [Machine.exec, hplace, reduceCtorEq] at hstep
    obtain ⟨m₁, hread, rfl⟩ := Option.map_eq_some_iff.mp hstep
    obtain ⟨hnow, rfl⟩ := Machine.readClock_eq_some hread
    exact hplace ▸ .enter hplace hnow
  | wake =>
    cases hplace : m.place <;> simp only [Machine.exec, hplace, reduceCtorEq] at hstep
    cases hstep
    exact .wake hplace
  | expire now =>
    cases hplace : m.place <;> simp only [Machine.exec, hplace, reduceCtorEq] at hstep
    split_ifs at hstep
    obtain ⟨m₁, hread, rfl⟩ := Option.map_eq_some_iff.mp hstep
    obtain ⟨hnow, rfl⟩ := Machine.readClock_eq_some hread
    exact hplace ▸ .expire hplace hnow
  | test =>
    obtain ⟨hplace, hstep⟩ := Option.ite_none_right_eq_some.mp hstep
    cases hstep
    exact .test hplace
  | clear =>
    cases hstep
    exact .clear
  | disposeSignal =>
    obtain ⟨hclearing, hstep⟩ := Option.ite_none_right_eq_some.mp hstep
    cases hstep
    exact .disposeSignal hclearing
  | disposeNotify =>
    obtain ⟨hnotifying, hstep⟩ := Option.ite_none_right_eq_some.mp hstep
    cases hstep
    exact .disposeNotify hnotifying

end CppJam.Scheduler
