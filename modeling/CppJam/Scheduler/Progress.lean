import CppJam.Scheduler.Disposal

/-!
# A disposed thread is never stuck

A thread that was disposed can always take its next step, or wait for a thread that holds the lock
of the queue and can take its own. Each of these steps brings the end of the loop nearer, and the
thread is not asleep unless it was notified.
-/

namespace CppJam.Scheduler

open Runs

variable {m m' : Machine} {move : Move}

/-- How many steps the thread that holds the lock can still take. -/
def Lock.rank : Lock → ℕ
  | .free => 0
  | .signaled => 1
  | .inserted => 2

/-- How far it is to the end of the loop. -/
def Machine.toEnd (m : Machine) : ℕ := 3 * m.rank + m.lock.rank

/-- The place of the thread, its task and the lock fit together. -/
structure Coherent (m : Machine) : Prop where
  /-- The thread has a task at hand exactly between its calls. -/
  calling : m.place = .calling ↔ m.scheduler.hand ≠ .idle
  /-- The thread adds a task under the lock. -/
  adding : m.place = .adding → m.lock ≠ .free

/-- The task that is about to be put back can be. -/
def RequeueFits (m : Machine) : Prop :=
  ∀ t, m.scheduler.hand = .finished t →
    Fits (1000 * t.timeout) ∧ Fits (m.scheduler.now + 1000 * t.timeout)

/-- A lock is not held for more than two steps. -/
theorem Lock.rank_le (lock : Lock) : lock.rank ≤ 2 := by
  cases lock <;> simp [Lock.rank]

/-- The end of the loop is never far. -/
theorem Machine.toEnd_le (m : Machine) : m.toEnd ≤ 17 := by
  have hplace : m.rank ≤ 5 := Place.rank_le m.scheduler.hand m.place
  have hlock := m.lock.rank_le
  unfold Machine.toEnd
  omega

/-- A new thread is coherent. -/
theorem Coherent.initial (now : ℤ) : Coherent (.initial now) :=
  ⟨by simp [Machine.initial, State.initial], by simp [Machine.initial]⟩

/-- A thread without a task that is not adding one. -/
theorem coherent_of_idle (hhand : m.scheduler.hand = .idle) (hcalling : m.place ≠ .calling)
    (hadding : m.place ≠ .adding) : Coherent m :=
  ⟨iff_of_false hcalling (not_not.mpr hhand), fun h => absurd h hadding⟩

/-- A thread that is not between its calls has no task at hand. -/
theorem Coherent.idle (hm : Coherent m) (hplace : m.place ≠ .calling) : m.scheduler.hand = .idle :=
  not_not.mp (mt hm.calling.mpr hplace)

/-- A notification does not change what the thread does. -/
theorem Place.notify_eq_iff {place place' : Place} (hasleep : ∀ w b, place' ≠ .asleep w b) :
    place.notify = place' ↔ place = place' := by
  cases place with
  | asleep w b =>
    exact iff_of_false (fun h => hasleep w true h.symm) (fun h => hasleep w b h.symm)
  | head | calling | adding | measuring | entering | testing | ended => rfl

/-- A notification keeps the thread coherent. -/
theorem Coherent.notify (hm : Coherent m) {lock : Lock} {notifying : ℕ}
    (hadding : m.place = .adding → lock ≠ .free) :
    Coherent { m with lock := lock, notifying := notifying, place := m.place.notify } := by
  refine ⟨?_, fun h => hadding ?_⟩
  · rw [Place.notify_eq_iff (by simp)]
    exact hm.calling
  · exact (Place.notify_eq_iff (by simp)).mp h

/-- Checking the event keeps the thread coherent. -/
theorem Coherent.check {otherwise : Place} (hhand : m.scheduler.hand = .idle)
    (hcalling : otherwise ≠ .calling) (hadding : otherwise ≠ .adding) :
    Coherent (m.check otherwise) := by
  unfold Machine.check
  split_ifs
  · exact coherent_of_idle hhand (by simp) (by simp)
  · exact coherent_of_idle hhand hcalling hadding

/-- Every step keeps the thread coherent. -/
theorem Machine.Step.coherent (hstep : m.Step move m') (hm : Coherent m) : Coherent m' := by
  cases hstep.transition with
  | refuse label => exact hm
  | insert hlock hinsert hhand hnow => exact ⟨by rw [hhand]; exact hm.calling, by simp⟩
  | signal hlock => exact ⟨hm.calling, by simp⟩
  | release hlock =>
    split_ifs with hadding
    · exact coherent_of_idle (hm.idle (by simp [hadding])) (by simp) (by simp)
    · exact hm.notify fun h => absurd h hadding
  | @extract now s hplace hextract =>
    refine ⟨?_, ?_⟩ <;> by_cases hidle : s.hand = .idle <;> simp [hidle]
  | @call label s hplace hcall hend =>
    refine ⟨?_, ?_⟩ <;> by_cases hidle : s.hand = .idle <;> simp [hidle]
  | @requeue now s hplace hlock hinsert =>
    have hidle : s.hand = .idle := by
      obtain ⟨t, _, _, hadd⟩ := hinsert.of_requeue
      rw [add_eq_some hadd]
    exact ⟨by simp [hidle], by simp⟩
  | measure hplace hnow =>
    exact coherent_of_idle (hm.idle (by simp [hplace])) (by simp) (by simp)
  | enter hplace hnow => exact .check (hm.idle (by simp [hplace])) (by simp) (by simp)
  | wake hplace => exact .check (hm.idle (by simp [hplace])) (by simp) (by simp)
  | expire hplace hnow => exact .check (hm.idle (by simp [hplace])) (by simp) (by simp)
  | test hplace =>
    refine coherent_of_idle (hm.idle (by simp [hplace])) ?_ ?_ <;> dsimp only <;> split_ifs <;> simp
  | clear | disposeSignal => exact ⟨hm.calling, hm.adding⟩
  | disposeNotify hnotifying => exact hm.notify hm.adding

/-- Only `dispose` changes how many of its calls are under way. -/
theorem Machine.Step.dispose_kept (hstep : m.Step move m')
    (hmove : move.isInner = true ∨ ∃ label, move = .request label) :
    m'.clearing = m.clearing ∧ m'.notifying = m.notifying := by
  cases hstep.transition with
  | refuse | insert | signal | release | extract | call | requeue | measure | test =>
    exact ⟨rfl, rfl⟩
  | enter | wake | expire =>
    unfold Machine.check
    split_ifs <;> exact ⟨rfl, rfl⟩
  | clear | disposeSignal | disposeNotify => rcases hmove with h | ⟨_, h⟩ <;> cases h

/-! ## The next step -/

section

variable {s : State}

/-- A thread without a task can look for one. -/
theorem exists_extract (hidle : s.hand = .idle) :
    ∃ s', Scheduler.Step s (.extract s.now) s' ∧ ∀ t, s'.hand ≠ .finished t := by
  have hread : s.readClock s.now = some { s with now := s.now } := if_pos le_rfl
  simp only [Scheduler.Step, Scheduler.exec, hidle, State.extractExpired, hread,
    Option.bind_eq_bind, Option.bind_some]
  cases s.tasks with
  | nil => exact ⟨_, rfl, by simp⟩
  | cons first rest =>
    dsimp only
    split_ifs
    · exact ⟨_, rfl, by simp⟩
    · exact ⟨_, rfl, by simp⟩

/-- A call of predicate or body can end, and the thread then has no task at hand. -/
theorem exists_call (hidle : s.hand ≠ .idle) (hfinished : ∀ t, s.hand ≠ .finished t) :
    ∃ label s', label.isCall = true ∧ Scheduler.Step s label s' ∧ s'.hand = .idle := by
  suffices h : ∃ label, label.isCall = true ∧ Scheduler.Step s label { s with hand := .idle } by
    obtain ⟨label, hcall, hstep⟩ := h
    exact ⟨label, _, hcall, hstep, rfl⟩
  cases hhand : s.hand with
  | idle => exact absurd hhand hidle
  | finished t => exact absurd hhand (hfinished t)
  | confirmed t => exact ⟨.body false, rfl, by simp [Scheduler.Step, Scheduler.exec, hhand]⟩
  | holding t =>
    cases htask : t.task with
    | false => exact ⟨.skip, rfl, by simp [Scheduler.Step, Scheduler.exec, hhand, htask]⟩
    | true =>
      cases hpredic : t.predic with
      | false =>
        exact ⟨.body true, rfl, by simp [Scheduler.Step, Scheduler.exec, hhand, htask, hpredic]⟩
      | true =>
        exact ⟨.ask none, rfl, by simp [Scheduler.Step, Scheduler.exec, hhand, htask, hpredic]⟩

/-- A task whose due time fits can be put back. -/
theorem exists_requeue {t : TimedTask} (hhand : s.hand = .finished t)
    (hfits : Fits (1000 * t.timeout) ∧ Fits (s.now + 1000 * t.timeout)) :
    ∃ s', Scheduler.Step s (.requeue s.now) s' ∧ s'.hand = .idle := by
  obtain ⟨s', hadd⟩ : ∃ s', State.add { t with created := s.now } { s with hand := .idle } =
      some s' := ⟨_, if_pos hfits⟩
  have hread : s.readClock s.now = some { s with now := s.now } := if_pos le_rfl
  refine ⟨s', ?_, by rw [add_eq_some hadd]⟩
  simp only [Scheduler.Step, Scheduler.exec, hhand, hread, Option.bind_eq_bind, Option.bind_some]
  exact hadd

end

/-- A thread that is not about to put a task back. -/
theorem RequeueFits.of_ne (hhand : ∀ t, m.scheduler.hand ≠ .finished t) : RequeueFits m :=
  fun t ht => absurd ht (hhand t)

/-- The same, of a thread without a task. -/
theorem RequeueFits.of_idle (hhand : m.scheduler.hand = .idle) : RequeueFits m :=
  .of_ne (by simp [hhand])

/-- Checking the event does not concern the task at hand. -/
theorem Machine.check_hand (m : Machine) (otherwise : Place) :
    (m.check otherwise).scheduler.hand = m.scheduler.hand := by
  unfold Machine.check
  split_ifs <;> rfl

/-- The thread does not wake up for no reason. -/
def Machine.Prompted (m : Machine) (move : Move) : Prop :=
  move = .wake → ∃ w, m.place = .asleep w true

/-- When nobody holds the lock, a thread that does not sleep without being notified can take its
next step, if a task that it is about to put back can be put back. -/
theorem Coherent.exists_own (hm : Coherent m) (hfits : RequeueFits m) (hlock : m.lock = .free)
    (hasleep : ∀ w, m.place ≠ .asleep w false) (hended : m.place ≠ .ended) :
    ∃ move m', move.isOwn = true ∧ m.Prompted move ∧ m.Step move m' ∧ RequeueFits m' := by
  have hread : m.readClock m.scheduler.now = some { m with
      scheduler := { m.scheduler with now := m.scheduler.now } } := if_pos le_rfl
  cases hplace : m.place with
  | head =>
    obtain ⟨s, hs, hhand⟩ := exists_extract (hm.idle (by simp [hplace]))
    refine ⟨.extract m.scheduler.now, { m with
      scheduler := s
      place := if s.hand = .idle then .measuring else .calling }, rfl, by rintro ⟨⟩, ?_,
      .of_ne hhand⟩
    rw [Machine.Step, Machine.exec, if_pos ⟨hplace, hlock⟩, hs]
    rfl
  | calling =>
    by_cases hfinished : ∃ t, m.scheduler.hand = .finished t
    · obtain ⟨t, ht⟩ := hfinished
      obtain ⟨s, hs, hidle⟩ := exists_requeue ht (hfits t ht)
      refine ⟨.requeue m.scheduler.now, { m with
        scheduler := s, place := .adding, lock := .inserted }, rfl, by rintro ⟨⟩, ?_,
        .of_idle hidle⟩
      rw [Machine.Step, Machine.exec, if_pos ⟨hplace, hlock⟩, hs]
      rfl
    · obtain ⟨label, s, hcall, hs, hidle⟩ :=
        exists_call (hm.calling.mp hplace) (not_exists.mp hfinished)
      refine ⟨.call label, { m with
        scheduler := s
        place := if s.hand = .idle then .testing else .calling }, rfl, by rintro ⟨⟩, ?_,
        .of_idle hidle⟩
      rw [Machine.Step, Machine.exec, if_pos ⟨hplace, hcall⟩, hs]
      rfl
  | adding => exact absurd hlock (hm.adding hplace)
  | measuring =>
    have hidle := hm.idle (by simp [hplace])
    refine ⟨.measure m.scheduler.now, { m with
      place := .entering m.scheduler.now (untilFirst m.scheduler.now m.scheduler.tasks) }, rfl,
      by rintro ⟨⟩, ?_, .of_idle hidle⟩
    rw [Machine.Step, Machine.exec, if_pos ⟨hplace, hlock⟩, hread]
    rfl
  | entering measured timeout =>
    have hidle := hm.idle (by simp [hplace])
    refine ⟨.enter m.scheduler.now, m.check (.asleep ⟨measured, timeout, m.scheduler.now⟩ false),
      rfl, by rintro ⟨⟩, ?_, .of_idle ((m.check_hand _).trans hidle)⟩
    simp only [Machine.Step, Machine.exec, hplace, hread]
    rfl
  | asleep w notified =>
    have hidle := hm.idle (by simp [hplace])
    cases notified with
    | false => exact absurd hplace (hasleep w)
    | true =>
      refine ⟨.wake, m.check (.asleep w false), rfl, fun _ => ⟨w, hplace⟩, ?_,
        .of_idle ((m.check_hand _).trans hidle)⟩
      simp only [Machine.Step, Machine.exec, hplace]
  | testing =>
    have hidle := hm.idle (by simp [hplace])
    exact ⟨.test, { m with proceed := true, place := if m.proceed then .head else .ended }, rfl,
      by rintro ⟨⟩, if_pos hplace, .of_idle hidle⟩
  | ended => exact absurd hplace hended

/-- A disposed thread does not sleep without being notified when nobody is on the way to notify
it. -/
theorem Closed.not_asleep (hclosed : Closed m) (halert : Alert m) (hlock : m.lock = .free)
    (hnotifying : m.notifying = 0) (w : Waiting) : m.place ≠ .asleep w false := by
  intro hplace
  have hsignaled := halert.signaled_eq_false hplace hlock hnotifying
  rcases hclosed with h | ⟨_, h | h⟩
  · rw [hplace] at h
    cases h
  · rw [hsignaled] at h
    cases h
  · rw [hplace] at h
    cases h

/-- A disposed thread that has not ended is not stuck: it can take its next step, or the thread that
holds the lock can. The end is then nearer. -/
theorem Closed.exists_step (hclosed : Closed m) (hm : Coherent m) (halert : Alert m)
    (hnotifying : m.notifying = 0) (hfits : RequeueFits m) (hended : m.place ≠ .ended) :
    ∃ move m', move.isInner = true ∧ m.Prompted move ∧ m.Step move m' ∧ RequeueFits m' ∧
      m'.toEnd < m.toEnd := by
  cases hlock : m.lock with
  | free =>
    have hasleep := hclosed.not_asleep halert hlock hnotifying
    obtain ⟨move, m', hown, hprompted, hstep, hfits'⟩ := hm.exists_own hfits hlock hasleep hended
    refine ⟨move, m', ?_, hprompted, hstep, hfits', ?_⟩
    · cases move <;> first | rfl | exact hown
    · have hlt := (hstep.closed hclosed).2.2 hown
      have hle := m'.lock.rank_le
      unfold Machine.toEnd
      omega
  | inserted =>
    have hstep : m.Step .signal { m with signaled := true, lock := .signaled } := if_pos hlock
    refine ⟨.signal, _, rfl, by rintro ⟨⟩, hstep, hfits, ?_⟩
    have hle := (hstep.closed hclosed).2.1
    simp only [Machine.toEnd, hlock, Lock.rank]
    omega
  | signaled =>
    have hstep : m.Step .release { m with
        lock := .free
        place := if m.place = .adding then .testing else m.place.notify } := if_pos hlock
    refine ⟨.release, _, rfl, by rintro ⟨⟩, hstep, hfits, ?_⟩
    have hle := (hstep.closed hclosed).2.1
    simp only [Machine.toEnd, hlock, Lock.rank]
    omega

end CppJam.Scheduler
