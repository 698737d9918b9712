import CppJam.Scheduler.WakeUps

/-!
# The thread ends after it is disposed

Once `dispose` has set the event, the thread takes at most five more steps of its own, starts at
most one more task, and is not left asleep: it ends as soon as the calls that it is in end.
-/

namespace CppJam.Scheduler

open Runs

variable {m m' : Machine} {move : Move}

/-- How many steps of its own the thread can still take in this round of the loop. -/
def Hand.rank : Hand → ℕ
  | .idle => 0
  | .finished _ => 2
  | .confirmed _ => 3
  | .holding _ => 4

/-- The same, from the place of the thread. -/
def Place.rank (hand : Hand) : Place → ℕ
  | .ended => 0
  | .testing => 1
  | .adding => 1
  | .asleep _ _ => 2
  | .entering _ _ => 3
  | .measuring => 4
  | .calling => hand.rank
  | .head => 5

/-- The same, of the machine. -/
def Machine.rank (m : Machine) : ℕ := m.place.rank m.scheduler.hand

/-- `dispose` has cleared the flag, and the loop has not gone on since. -/
def Closing (m : Machine) : Prop := m.place = .ended ∨ m.proceed = false

/-- The thread will see that the flag was cleared, without sleeping before. -/
def Closed (m : Machine) : Prop :=
  m.place = .ended ∨ m.proceed = false ∧ (m.signaled = true ∨ m.place = .testing)

/-- The rank is at most that of the head of the loop. -/
theorem Place.rank_le (hand : Hand) (place : Place) : place.rank hand ≤ 5 := by
  cases place with
  | calling => cases hand <;> simp [Place.rank, Hand.rank]
  | head | adding | measuring | entering | asleep | testing | ended => simp [Place.rank]

/-- A notification moves no thread. -/
theorem Place.rank_notify (hand : Hand) (place : Place) :
    place.notify.rank hand = place.rank hand := by
  cases place <;> rfl

/-- A notification keeps a thread that has ended where it is. -/
@[simp] theorem Place.notify_ended : Place.ended.notify = .ended := rfl

/-- A notification keeps a thread before its test where it is. -/
@[simp] theorem Place.notify_testing : Place.testing.notify = .testing := rfl

/-- A step that leaves the flag, the event and the place alone. -/
theorem Closed.of_eq (hclosed : Closed m) (hplace : m'.place = m.place)
    (hproceed : m'.proceed = m.proceed) (hsignaled : m'.signaled = m.signaled) : Closed m' := by
  rwa [Closed, hplace, hproceed, hsignaled]

/-- Notifying the thread. -/
theorem Closed.notify (hclosed : Closed m) {lock : Lock} {notifying : ℕ} :
    Closed { m with lock := lock, notifying := notifying, place := m.place.notify } := by
  obtain hended | ⟨hproceed, hset | htesting⟩ := hclosed
  · exact Or.inl (by simp [hended])
  · exact Or.inr ⟨hproceed, Or.inl hset⟩
  · exact Or.inr ⟨hproceed, Or.inr (by simp [htesting])⟩

/-- Checking the event leads to the test. -/
theorem Closed.check (hclosed : Closed m) (hended : m.place ≠ .ended)
    (htesting : m.place ≠ .testing) (otherwise : Place) :
    Closed (m.check otherwise) ∧ (m.check otherwise).rank = 1 := by
  obtain hplace | ⟨hproceed, hset | hplace⟩ := hclosed
  · exact absurd hplace hended
  · rw [Machine.check, if_pos hset]
    exact ⟨Or.inr ⟨hproceed, Or.inr rfl⟩, rfl⟩
  · exact absurd hplace htesting

/-- The steps of the thread before it waits or tests. -/
theorem Closed.moved (hclosed : Closed m) (hended : m.place ≠ .ended)
    (htesting : m.place ≠ .testing) (s : State) (place : Place) (lock : Lock) :
    Closed { m with scheduler := s, place := place, lock := lock } := by
  obtain hplace | ⟨hproceed, hset | hplace⟩ := hclosed
  · exact absurd hplace hended
  · exact Or.inr ⟨hproceed, Or.inl hset⟩
  · exact absurd hplace htesting

/-- The calls of predicate and body bring the thread nearer to its test. -/
theorem HandStep.rank_lt {hand hand' : Hand} {label : Label} (hmove : HandStep hand label hand')
    (hcall : label.IsCall) : 1 < hand.rank ∧ hand'.rank < hand.rank := by
  cases hmove with
  | skip | confirm | decline | runOnce | finish | throw => simp [Hand.rank]
  | addDelayed | uploadIfFree | repeats | extractNone | extractFirst | requeue => exact hcall.elim

/-- What a step does to a thread that will see the flag. -/
theorem Machine.Step.closed (hstep : m.Step move m') (hclosed : Closed m) :
    Closed m' ∧ m'.rank ≤ m.rank ∧ (move.isOwn = true → m'.rank < m.rank) := by
  cases hstep.transition with
  | refuse label => exact ⟨hclosed, le_rfl, by rintro ⟨⟩⟩
  | insert hlock hinsert hhand hnow =>
    refine ⟨hclosed.of_eq rfl rfl rfl, ?_, by rintro ⟨⟩⟩
    rw [Machine.rank, hhand, Machine.rank]
  | signal hlock =>
    refine ⟨?_, le_rfl, by rintro ⟨⟩⟩
    exact hclosed.imp_right fun h => ⟨h.1, Or.inl rfl⟩
  | release hlock =>
    by_cases hadding : m.place = .adding
    · obtain hplace | ⟨hproceed, _⟩ := hclosed
      · rw [hadding] at hplace
        cases hplace
      · rw [if_pos hadding]
        refine ⟨Or.inr ⟨hproceed, Or.inr rfl⟩, ?_, by rintro ⟨⟩⟩
        simp [Machine.rank, hadding, Place.rank]
    · rw [if_neg hadding]
      exact ⟨hclosed.notify, (Place.rank_notify _ _).le, by rintro ⟨⟩⟩
  | @extract now s hplace hextract =>
    have hlt : Place.rank s.hand (if s.hand = .idle then .measuring else .calling) < m.rank := by
      have hmove := hextract.handStep
      rw [Machine.rank, hplace]
      generalize m.scheduler.hand = hand, s.hand = hand' at hmove ⊢
      cases hmove <;> simp [Place.rank, Hand.rank]
    exact ⟨hclosed.moved (by simp [hplace]) (by simp [hplace]) _ _ _, hlt.le, fun _ => hlt⟩
  | @call label s hplace hcall hend =>
    have hlt : Place.rank s.hand (if s.hand = .idle then .testing else .calling) < m.rank := by
      obtain ⟨hbig, hlower⟩ := hend.handStep.rank_lt hcall
      rw [Machine.rank, hplace]
      split_ifs
      · exact hbig
      · exact hlower
    exact ⟨hclosed.moved (by simp [hplace]) (by simp [hplace]) _ _ _, hlt.le, fun _ => hlt⟩
  | @requeue now s hplace hlock hinsert =>
    have hlt : Place.rank s.hand .adding < m.rank := by
      obtain ⟨t, hhand, _⟩ := hinsert.of_requeue
      rw [Machine.rank, hplace, hhand]
      exact Nat.one_lt_two
    exact ⟨hclosed.moved (by simp [hplace]) (by simp [hplace]) _ _ _, hlt.le, fun _ => hlt⟩
  | @measure now hplace hnow =>
    have hlt : Place.rank m.scheduler.hand (.entering now (untilFirst now m.scheduler.tasks)) <
        m.rank := by
      rw [Machine.rank, hplace]
      exact Nat.lt_succ_self 3
    exact ⟨hclosed.moved (by simp [hplace]) (by simp [hplace]) _ _ _, hlt.le, fun _ => hlt⟩
  | @enter now measured timeout hplace hnow =>
    have hclock : Closed { m with scheduler := { m.scheduler with now := now } } :=
      hclosed.of_eq rfl rfl rfl
    obtain ⟨hnext, hrank⟩ := hclock.check (by simp [hplace]) (by simp [hplace])
      (.asleep ⟨measured, timeout, now⟩ false)
    have hlt : 1 < m.rank := by rw [Machine.rank, hplace]; exact Nat.le_succ 2
    rw [hrank]
    exact ⟨hnext, hlt.le, fun _ => hlt⟩
  | @wake w notified hplace =>
    obtain ⟨hnext, hrank⟩ := hclosed.check (by simp [hplace]) (by simp [hplace]) (.asleep w false)
    have hlt : 1 < m.rank := by rw [Machine.rank, hplace]; exact Nat.one_lt_two
    rw [hrank]
    exact ⟨hnext, hlt.le, fun _ => hlt⟩
  | @expire now w notified hplace hnow =>
    have hclock : Closed { m with scheduler := { m.scheduler with now := now } } :=
      hclosed.of_eq rfl rfl rfl
    obtain ⟨hnext, hrank⟩ := hclock.check (by simp [hplace]) (by simp [hplace]) .testing
    have hlt : 1 < m.rank := by rw [Machine.rank, hplace]; exact Nat.one_lt_two
    rw [hrank]
    exact ⟨hnext, hlt.le, fun _ => hlt⟩
  | test hplace =>
    -- The flag was cleared, so the loop ends here.
    obtain hended | ⟨hproceed, _⟩ := hclosed
    · rw [hplace] at hended
      cases hended
    · have hlt : 0 < m.rank := by rw [Machine.rank, hplace]; exact Nat.one_pos
      simp only [hproceed, Bool.false_eq_true, if_false]
      exact ⟨Or.inl rfl, hlt.le, fun _ => hlt⟩
  | clear =>
    refine ⟨?_, le_rfl, by rintro ⟨⟩⟩
    exact hclosed.imp_right fun h => ⟨rfl, h.2⟩
  | disposeSignal hclearing =>
    refine ⟨?_, le_rfl, by rintro ⟨⟩⟩
    exact hclosed.imp_right fun h => ⟨h.1, Or.inl rfl⟩
  | disposeNotify hnotifying =>
    exact ⟨hclosed.notify, (Place.rank_notify _ _).le, by rintro ⟨⟩⟩

/-- A thread that takes a task again is at the head of the loop. -/
theorem Machine.Step.closed_extract (hstep : m.Step move m') (hclosed : Closed m) :
    Closed m' ∧ m'.rank / 5 ≤ m.rank / 5 ∧ (move.isExtract = true → m'.rank / 5 < m.rank / 5) := by
  obtain ⟨hnext, hle, hlower⟩ := hstep.closed hclosed
  refine ⟨hnext, Nat.div_le_div_right hle, fun hextract => ?_⟩
  cases hstep.transition with
  | extract hplace _ =>
    have hhead : m.rank = 5 := by rw [Machine.rank, hplace]; rfl
    have hlt := hlower rfl
    omega
  | refuse | insert | signal | release | call | requeue | measure | enter | wake | expire | test
  | clear | disposeSignal | disposeNotify => cases hextract

/-- A thread that has ended takes no further steps. -/
theorem Machine.Step.ended (hstep : m.Step move m') (hended : m.place = .ended) :
    m'.place = .ended ∧ move.isOwn = false := by
  cases hstep.transition with
  | refuse | insert | signal | clear | disposeSignal => exact ⟨hended, rfl⟩
  | release hlock => exact ⟨by simp [hended], rfl⟩
  | disposeNotify hnotifying => exact ⟨by simp [hended], rfl⟩
  | extract hplace | call hplace | requeue hplace | measure hplace | enter hplace | wake hplace
  | expire hplace | test hplace =>
    rw [hended] at hplace
    cases hplace

/-- A flag that was cleared stays cleared until the loop ends. -/
theorem Machine.Step.closing (hstep : m.Step move m') (hclosing : Closing m) : Closing m' := by
  cases hstep.transition with
  | refuse | insert | signal | disposeSignal => exact hclosing
  | clear => exact Or.inr rfl
  | release hlock =>
    refine hclosing.imp_left fun hplace => ?_
    simp [hplace]
  | disposeNotify hnotifying =>
    refine hclosing.imp_left fun hplace => ?_
    simp [hplace]
  | extract hplace _ | call hplace _ _ | requeue hplace _ _ | measure hplace _ =>
    refine Or.inr (hclosing.resolve_left ?_)
    simp [hplace]
  | enter hplace _ | wake hplace | expire hplace _ =>
    have hproceed := hclosing.resolve_left (by simp [hplace])
    unfold Machine.check
    split_ifs <;> exact Or.inr hproceed
  | test hplace =>
    have hproceed := hclosing.resolve_left (by simp [hplace])
    simp [Closing, hproceed]

/-- While a call of `dispose` is under way, the loop is about to end. -/
theorem Machine.Step.clearing (hstep : m.Step move m') (hpending : 0 < m.clearing → Closing m) :
    0 < m'.clearing → Closing m' := by
  intro hclearing
  by_cases hbefore : 0 < m.clearing
  · exact hstep.closing (hpending hbefore)
  · cases hstep.transition with
    | clear => exact Or.inr rfl
    | disposeSignal hpos => exact absurd hpos hbefore
    | refuse | insert | signal | release | extract | call | requeue | measure | test
    | disposeNotify => exact absurd hclearing hbefore
    | enter | wake | expire =>
      unfold Machine.check at hclearing
      split_ifs at hclearing <;> exact absurd hclearing hbefore

/-- Whatever the threads do once `dispose` has set the event, the thread takes at most five more
steps of its own and at most one of them takes a task; and when no other thread is on the way to
notify it, it does not sleep. -/
theorem ends_after_dispose {start : ℤ} {front back : List Move}
    (hrun : Run Machine.Step (.initial start) (front ++ .disposeSignal :: back) m) :
    back.countP Move.isOwn ≤ 5 ∧ back.countP Move.isExtract ≤ 1 ∧
      (m.lock = .free → m.notifying = 0 → ∀ w, m.place ≠ .asleep w false) := by
  obtain ⟨t, t', hfront, hsignal, hback⟩ := hrun.at_step
  have hclosed : Closed t' := by
    have hpending : 0 < t.clearing → Closing t := by
      refine hfront.invariant (I := fun _ m => 0 < m.clearing → Closing m) ?_ ?_
      · exact fun h => absurd h (Nat.lt_irrefl 0)
      · exact fun _ ih hlast => hlast.clearing ih
    cases hsignal.transition with
    | disposeSignal hclearing =>
      exact (hpending hclearing).imp_right fun hproceed => ⟨hproceed, Or.inl rfl⟩
  have hbound : t'.rank ≤ 5 := Place.rank_le t'.scheduler.hand t'.place
  obtain ⟨hend, hown⟩ := hback.countP_le (fun _ _ _ hstep h => hstep.closed h) hclosed
  obtain ⟨_, hextract⟩ := hback.countP_le (fun _ _ _ hstep h => hstep.closed_extract h) hclosed
  refine ⟨by omega, by omega, fun hlock hnotifying w hplace => ?_⟩
  -- A sleeping thread has no event to see, but the event of `dispose` is still set.
  have hunset := (alert_of_run hrun).signaled_eq_false hplace hlock hnotifying
  obtain hended | ⟨_, hset | htesting⟩ := hend
  · rw [hplace] at hended
    cases hended
  · rw [hunset] at hset
    cases hset
  · rw [hplace] at htesting
    cases htesting

/-- A task is running when `dispose` comes, and another is due: the thread ends before it. -/
theorem ends_after_dispose_running :
    ∃ m, Run Machine.Step (.initial 0)
        ([.request (.addDelayed 0 0 true), .signal, .release, .extract 1,
          .request (.addDelayed 2 0 true), .signal, .release, .clear] ++
          .disposeSignal :: [.call (.body true), .disposeNotify, .test]) m ∧
      m.place = .ended ∧ m.scheduler.tasks ≠ [] ∧
      [Move.call (.body true), .disposeNotify, .test].countP Move.isOwn ≤ 5 := by
  have hrun : Run Machine.Step (.initial 0)
      ([.request (.addDelayed 0 0 true), .signal, .release, .extract 1,
        .request (.addDelayed 2 0 true), .signal, .release, .clear] ++
        .disposeSignal :: [.call (.body true), .disposeNotify, .test]) _ :=
    Run.of_foldlM_some rfl
  exact ⟨_, hrun, rfl, by decide, (ends_after_dispose hrun).1⟩

end CppJam.Scheduler
