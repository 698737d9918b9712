import CppJam.Runs
import CppJam.Scheduler.Worker

/-!
# No wake-up is lost

A thread that sleeps in the wait, without a notification on its way, sleeps for as long as the
first task of the queue as it is now allows: every task that was added since the timeout was
measured has set the event, and the event was not reset without leaving the wait.
-/

namespace CppJam.Scheduler

open Runs

variable {m m' : Machine} {move : Move}

/-- When the timeout of the current wait was measured, and the timeout. -/
def Place.measurement : Place → Option (ℤ × ℤ)
  | entering measured timeout => some (measured, timeout)
  | asleep w _ => some (w.measured, w.timeout)
  | _ => none

/-- What holds between two steps. -/
structure Alert (m : Machine) : Prop where
  queue : Invariant m.scheduler
  /-- Without the event, the measured timeout is that of the queue. -/
  measured : ∀ measured timeout, m.place.measurement = some (measured, timeout) →
    measured ≤ m.scheduler.now ∧ (m.signaled = false → m.lock ≠ .inserted →
      timeout = untilFirst measured m.scheduler.tasks)
  /-- The wait begins after the measurement. -/
  entered : ∀ w notified, m.place = .asleep w notified → w.measured ≤ w.entered
  /-- A thread that sleeps through the event is about to be notified. -/
  notified : ∀ w, m.place = .asleep w false → m.signaled = true →
    m.lock = .signaled ∨ 0 < m.notifying

/-- A thread that does not wait. -/
theorem alert_of_measurement_eq_none (hqueue : Invariant m.scheduler)
    (hplace : m.place.measurement = none) : Alert m where
  queue := hqueue
  measured measured timeout h := by rw [hplace] at h; cases h
  entered w notified h := by rw [h] at hplace; cases hplace
  notified w h := by rw [h] at hplace; cases hplace

/-- Notifying does not change what was measured. -/
@[simp] theorem Place.measurement_notify (place : Place) :
    place.notify.measurement = place.measurement := by
  cases place <;> rfl

/-- Only a thread that sleeps already sleeps after a notification, and it is notified. -/
theorem Place.notify_eq_asleep {place : Place} {w : Waiting} {notified : Bool}
    (h : place.notify = .asleep w notified) : notified = true ∧ ∃ b, place = .asleep w b := by
  cases place <;> cases h
  exact ⟨rfl, _, rfl⟩

/-- A notification keeps the invariant. -/
theorem Alert.notify (halert : Alert m) {lock : Lock} {notifying : ℕ}
    (hlock : m.lock = .inserted → lock = .inserted) :
    Alert { m with lock := lock, notifying := notifying, place := m.place.notify } where
  queue := halert.queue
  measured measured timeout h := by
    rw [Place.measurement_notify] at h
    obtain ⟨hle, hqueue⟩ := halert.measured measured timeout h
    exact ⟨hle, fun hsignaled hfree => hqueue hsignaled (mt hlock hfree)⟩
  entered w notified h := by
    obtain ⟨_, b, hplace⟩ := Place.notify_eq_asleep h
    exact halert.entered w b hplace
  notified w h := by
    obtain ⟨hnotified, _⟩ := Place.notify_eq_asleep h
    cases hnotified

/-- Setting the event, with a notification to come, keeps the invariant. -/
theorem Alert.signal (halert : Alert m) {lock : Lock} {clearing notifying : ℕ}
    (hpending : lock = .signaled ∨ 0 < notifying) :
    Alert { m with
      signaled := true, lock := lock, clearing := clearing, notifying := notifying } where
  queue := halert.queue
  measured measured timeout h := by
    obtain ⟨hle, _⟩ := halert.measured measured timeout h
    exact ⟨hle, fun hsignaled => by cases hsignaled⟩
  entered := halert.entered
  notified _ _ _ := hpending

/-- Checking the event keeps the invariant. -/
theorem Alert.check {otherwise : Place} (hqueue : Invariant m.scheduler)
    (hmeasured : ∀ measured timeout, otherwise.measurement = some (measured, timeout) →
      measured ≤ m.scheduler.now ∧ (m.signaled = false → m.lock ≠ .inserted →
        timeout = untilFirst measured m.scheduler.tasks))
    (hentered : ∀ w notified, otherwise = .asleep w notified → w.measured ≤ w.entered) :
    Alert (m.check otherwise) := by
  unfold Machine.check
  split_ifs with hsignaled
  · exact alert_of_measurement_eq_none hqueue rfl
  · refine ⟨hqueue, hmeasured, hentered, fun w _ hset => ?_⟩
    exact absurd hset hsignaled

/-- Every step keeps the invariant. -/
theorem Machine.Step.alert (hstep : m.Step move m') (halert : Alert m) : Alert m' := by
  have hclock {now : ℤ} (hnow : m.scheduler.now ≤ now) :
      Invariant { m.scheduler with now := now } :=
    halert.queue.proceed hnow (fun t ht => ht) halert.queue.repeats
  cases hstep.transition with
  | refuse label => exact halert
  | insert hlock hinsert hhand hnow =>
    refine ⟨hinsert.invariant halert.queue, ?_, halert.entered, ?_⟩
    · intro measured timeout hplace
      obtain ⟨hle, _⟩ := halert.measured measured timeout hplace
      exact ⟨hle.trans hnow, fun _ hfree => absurd rfl hfree⟩
    · intro w hplace hset
      obtain hheld | hpending := halert.notified w hplace hset
      · rw [hlock] at hheld
        cases hheld
      · exact Or.inr hpending
  | signal hlock => exact halert.signal (Or.inl rfl)
  | release hlock =>
    split_ifs with hadding
    · exact alert_of_measurement_eq_none halert.queue rfl
    · refine halert.notify fun hinserted => ?_
      rw [hlock] at hinserted
      cases hinserted
  | extract hplace hextract =>
    refine alert_of_measurement_eq_none (hextract.invariant halert.queue) ?_
    split_ifs <;> rfl
  | call hplace hcall hend =>
    refine alert_of_measurement_eq_none (hend.invariant halert.queue) ?_
    split_ifs <;> rfl
  | requeue hplace hlock hinsert =>
    exact alert_of_measurement_eq_none (hinsert.invariant halert.queue) rfl
  | measure hplace hnow =>
    refine ⟨hclock hnow, ?_, ?_, ?_⟩
    · rintro measured timeout ⟨⟩
      exact ⟨le_rfl, fun _ _ => rfl⟩
    · rintro w notified ⟨⟩
    · rintro w ⟨⟩
  | enter hplace hnow =>
    obtain ⟨hle, hqueue⟩ := halert.measured _ _ (by rw [hplace]; rfl)
    refine Alert.check (hclock hnow) ?_ ?_
    · rintro measured timeout ⟨⟩
      exact ⟨hle.trans hnow, hqueue⟩
    · rintro w notified ⟨⟩
      exact hle.trans hnow
  | wake hplace =>
    refine Alert.check halert.queue ?_ ?_
    · rintro measured timeout ⟨⟩
      exact halert.measured _ _ (by rw [hplace]; rfl)
    · rintro w notified ⟨⟩
      exact halert.entered _ _ hplace
  | expire hplace hnow =>
    refine Alert.check (hclock hnow) ?_ ?_
    · rintro measured timeout ⟨⟩
    · rintro w notified ⟨⟩
  | test hplace =>
    refine alert_of_measurement_eq_none halert.queue ?_
    split_ifs <;> rfl
  | clear => exact ⟨halert.queue, halert.measured, halert.entered, halert.notified⟩
  | disposeSignal hclearing => exact halert.signal (Or.inr (Nat.succ_pos _))
  | disposeNotify hnotifying => exact halert.notify id

/-- A thread sleeps through the event only until another thread notifies it. -/
theorem Alert.signaled_eq_false (halert : Alert m) {w : Waiting}
    (hplace : m.place = .asleep w false) (hlock : m.lock = .free) (hnotifying : m.notifying = 0) :
    m.signaled = false := by
  by_contra hset
  obtain hheld | hpending := halert.notified w hplace (by simpa using hset)
  · rw [hlock] at hheld
    cases hheld
  · omega

/-- The invariant holds in every run. -/
theorem alert_of_run {start : ℤ} {trace : List Move}
    (hrun : Run Machine.Step (.initial start) trace m) : Alert m := by
  refine hrun.invariant (I := fun _ m => Alert m) ?_ ?_
  · exact alert_of_measurement_eq_none (invariant_initial start) rfl
  · intro trace move t u _ halert hstep
    exact hstep.alert halert

/-- No task of the queue is due before the first. -/
theorem untilFirst_le {now : ℤ} {tasks : List TimedTask} (hsorted : tasks.Pairwise Before)
    {t : TimedTask} (ht : t ∈ tasks) : 1000 * untilFirst now tasks ≤ max 0 (t.due - now) := by
  cases tasks with
  | nil => cases ht
  | cons first rest =>
    have hdue : first.due ≤ t.due := by
      rcases List.mem_cons.mp ht with rfl | hrest
      · exact le_rfl
      · exact ((List.pairwise_cons.mp hsorted).1 t hrest).key_le
    rw [untilFirst]
    split_ifs <;> omega

/-- A thread that sleeps, with no other thread on the way to notify it, waits for the first task
of the queue as it is now, and not longer than that task allows. -/
theorem sleeps_until_due {start : ℤ} {trace : List Move} {w : Waiting}
    (hrun : Run Machine.Step (.initial start) trace m) (hplace : m.place = .asleep w false)
    (hlock : m.lock = .free) (hnotifying : m.notifying = 0) :
    m.signaled = false ∧ w.measured ≤ w.entered ∧
      w.timeout = untilFirst w.measured m.scheduler.tasks ∧
      ∀ t ∈ m.scheduler.tasks, w.deadline ≤ max w.entered (t.due + (w.entered - w.measured)) := by
  have halert := alert_of_run hrun
  have hsignaled := halert.signaled_eq_false hplace hlock hnotifying
  have hmeasured : m.place.measurement = some (w.measured, w.timeout) := by rw [hplace]; rfl
  have htimeout := (halert.measured _ _ hmeasured).2 hsignaled (by rw [hlock]; decide)
  refine ⟨hsignaled, halert.entered w false hplace, htimeout, fun t ht => ?_⟩
  have hle : 1000 * untilFirst w.measured m.scheduler.tasks ≤ max 0 (t.due - w.measured) :=
    untilFirst_le halert.queue.sorted ht
  rw [Waiting.deadline, htimeout]
  omega

/-- A thread that sleeps while a task waits for its time. -/
theorem sleeps_until_due_delayed :
    ∃ m w, Run Machine.Step (.initial 0)
        [.request (.addDelayed 0 5 true), .signal, .release, .extract 1, .measure 2, .enter 3,
          .test, .extract 4, .measure 1000, .enter 1001] m ∧
      m.place = .asleep w false ∧ w.deadline = 5001 ∧
      ∀ t ∈ m.scheduler.tasks, w.deadline ≤ max w.entered (t.due + (w.entered - w.measured)) := by
  have hrun : Run Machine.Step (.initial 0) [.request (.addDelayed 0 5 true), .signal, .release,
      .extract 1, .measure 2, .enter 3, .test, .extract 4, .measure 1000, .enter 1001] _ :=
    Run.of_foldlM_some rfl
  exact ⟨_, _, hrun, rfl, by decide, (sleeps_until_due hrun rfl rfl rfl).2.2.2⟩

end CppJam.Scheduler
