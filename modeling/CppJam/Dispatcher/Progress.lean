import Mathlib.Tactic.TFAE
import CppJam.Dispatcher.Quiescence
import CppJam.Scheduler.Progress

/-!
# When `dispose` can return

Once `dispose` has stopped a thread, this thread is never stuck, and a temporary handler that was
counted gets to the end of its function. So nothing holds up `dispose` for good, except a task that
has thrown on a temporary handler: it stays counted.
-/

namespace CppJam.Dispatcher

open Runs Slots Scheduler

variable {σ : Type} {k : Sizes} {s t : Threads σ} {turn : Turn σ} {trace : List (Turn σ)}

/-! ## Temporary handlers -/

/-- The handler has what the next step on its task needs. -/
def Temporary.Sound (h : Temporary) : Prop :=
  match h.phase with
  | .counted _ => h.scheduler.hand = .idle ∧ h.scheduler.tasks = []
  | .queued => (∃ t, h.scheduler.hand = .holding t) ∨
      h.scheduler.hand = .idle ∧ h.scheduler.tasks ≠ []
  | _ => True

/-- How many steps the handler needs to count its task off. -/
def Temporary.toEnd (h : Temporary) : ℕ :=
  match h.phase with
  | .counted _ => 5
  | .queued => if h.scheduler.hand = .idle then 4 else 3
  | .running => 2
  | .returning => 1
  | _ => 0

/-- The due time of a task that is not queued yet fits. -/
def Temporary.QueueFits (h : Temporary) : Prop :=
  ∀ timeout, h.phase = .counted timeout →
    Fits (1000 * timeout) ∧ Fits (h.scheduler.now + 1000 * timeout)

/-- Every step keeps a handler sound. -/
theorem Temporary.Sound.exec {isDisposed : Bool} {h h' : Temporary} {action : Action} {change : ℤ}
    (hh : h.Sound) (hexec : h.exec isDisposed action = some (h', change)) : h'.Sound := by
  obtain ⟨scheduler, phase⟩ := h
  cases action with
  | queue now =>
    cases phase <;> simp only [Temporary.exec, reduceCtorEq, Option.bind_eq_bind,
      Option.bind_eq_some_iff] at hexec
    obtain ⟨scheduler', haccept, hh'⟩ := hexec
    cases hh'
    obtain ⟨_, hadd⟩ := accept_eq_some haccept
    refine Or.inr ⟨(accept_hand haccept).trans hh.1, ?_⟩
    rw [add_eq_some hadd]
    exact List.ne_nil_of_mem (Containers.mem_enqueue.mpr (Or.inl rfl))
  | extract now =>
    simp only [Temporary.exec, Option.bind_eq_bind, Option.bind_eq_some_iff] at hexec
    obtain ⟨scheduler', hextract, hh'⟩ := hexec
    cases hh'
    obtain ⟨hidle, hextract⟩ := Scheduler.Step.of_extract hextract
    obtain ⟨_, ⟨_, rfl⟩ | ⟨first, rest, htasks, _, rfl⟩⟩ := extractExpired_cases hextract
    · cases phase with
      | counted timeout => exact hh
      | queued => exact hh
      | running | returning | countedOff | returned | thrown => trivial
    · cases phase with
      | counted timeout =>
        rw [hh.2] at htasks
        cases htasks
      | queued => exact Or.inl ⟨first, rfl⟩
      | running | returning | countedOff | returned | thrown => trivial
  | enter =>
    cases phase <;> simp only [Temporary.exec, reduceCtorEq] at hexec
    cases hhand : scheduler.hand <;> simp only [hhand, reduceCtorEq] at hexec
    cases isDisposed <;> cases hexec <;> trivial
  | ends returned =>
    have hphase := Temporary.exec_phase hexec
    obtain ⟨scheduler', phase'⟩ := h'
    cases hphase <;> trivial
  | countOff =>
    have hphase := Temporary.exec_phase hexec
    obtain ⟨scheduler', phase'⟩ := h'
    cases hphase
    trivial
  | leave =>
    have hphase := Temporary.exec_phase hexec
    obtain ⟨scheduler', phase'⟩ := h'
    cases hphase
    trivial

/-- A task whose due time fits can be queued. -/
theorem exists_addDelayed {scheduler : State} {timeout : ℤ}
    (hfits : Fits (1000 * timeout) ∧ Fits (scheduler.now + 1000 * timeout)) :
    ∃ scheduler', Scheduler.exec scheduler (.addDelayed scheduler.now timeout true) =
      some scheduler' := by
  have hread : scheduler.readClock scheduler.now =
      some { scheduler with now := scheduler.now } := if_pos le_rfl
  simp only [Scheduler.exec, State.accept, hread, Option.bind_eq_bind, Option.bind_some]
  exact ⟨_, if_pos hfits⟩

/-- When time passes, the first task of a queue is extracted. -/
theorem exists_extract_of_ne_nil {scheduler : State} (hidle : scheduler.hand = .idle)
    (htasks : scheduler.tasks ≠ []) :
    ∃ now scheduler', Scheduler.exec scheduler (.extract now) = some scheduler' ∧
      scheduler'.hand ≠ .idle := by
  obtain ⟨first, rest, htasks⟩ := List.exists_cons_of_ne_nil htasks
  have hread : scheduler.readClock (max scheduler.now first.due) =
      some { scheduler with now := max scheduler.now first.due } := if_pos (le_max_left _ _)
  refine ⟨max scheduler.now first.due, ?_⟩
  simp only [Scheduler.exec, hidle, State.extractExpired, hread, Option.bind_eq_bind,
    Option.bind_some, htasks]
  rw [if_pos (le_max_right _ _)]
  exact ⟨_, rfl, by simp⟩

/-- A handler of a disposed dispatcher whose task is not counted off can go on. -/
theorem Temporary.Sound.exists_step {h : Temporary} (hh : h.Sound) (hfits : h.QueueFits)
    (hunfinished : h.unfinished = true) :
    ∃ action h' change, h.exec true action = some (h', change) ∧ action ≠ .ends false ∧
      h'.QueueFits ∧ h'.toEnd < h.toEnd := by
  have hnext : ∀ {phase : Phase} (scheduler : State), (∀ timeout, phase ≠ .counted timeout) →
      Temporary.QueueFits ⟨scheduler, phase⟩ :=
    fun _ hne timeout hphase => absurd hphase (hne timeout)
  unfold Temporary.Sound at hh
  unfold Temporary.unfinished at hunfinished
  cases hphase : h.phase with
  | counted timeout =>
    obtain ⟨scheduler, hadd⟩ := exists_addDelayed (hfits timeout hphase)
    refine ⟨.queue h.scheduler.now, ⟨scheduler, .queued⟩, 0, ?_, by simp, hnext _ (by simp), ?_⟩
    · simp only [Temporary.exec, hphase, hadd, Option.bind_eq_bind, Option.bind_some]
      rfl
    · simp only [Temporary.toEnd, hphase]
      split_ifs <;> omega
  | queued =>
    rw [hphase] at hh
    rcases hh with ⟨t, ht⟩ | ⟨hidle, htasks⟩
    · refine ⟨.enter, ⟨h.scheduler, .returning⟩, 0, ?_, by simp, hnext _ (by simp), ?_⟩
      · simp [Temporary.exec, hphase, ht]
      · simp [Temporary.toEnd, hphase, ht]
    · obtain ⟨now, scheduler, hextract, hhand⟩ := exists_extract_of_ne_nil hidle htasks
      refine ⟨.extract now, ⟨scheduler, .queued⟩, 0, ?_, by simp, hnext _ (by simp), ?_⟩
      · simp only [Temporary.exec, hphase, hextract, Option.bind_eq_bind, Option.bind_some]
        rfl
      · simp [Temporary.toEnd, hphase, hidle, hhand]
  | running =>
    refine ⟨.ends true, ⟨h.scheduler, .returning⟩, 0, ?_, by simp, hnext _ (by simp), ?_⟩
    · simp [Temporary.exec, hphase]
    · simp [Temporary.toEnd, hphase]
  | returning =>
    refine ⟨.countOff, ⟨h.scheduler, .countedOff⟩, -1, ?_, by simp, hnext _ (by simp), ?_⟩
    · simp [Temporary.exec, hphase]
    · simp [Temporary.toEnd, hphase]
  | countedOff | returned | thrown =>
    rw [hphase] at hunfinished
    cases hunfinished

/-! ## The thread that is being stopped -/

/-- How far `dispose` is with the thread that it stops. -/
def Stops (workers : List Machine) : Stage → Prop
  | .clearing i => i < workers.length
  | .signaling i => ∃ m, workers[i]? = some m ∧ 0 < m.clearing ∧ Closing m
  | .notifying i => ∃ m, workers[i]? = some m ∧ 0 < m.notifying ∧ Closed m
  | .joining i => ∃ m, workers[i]? = some m ∧ Closed m
  | .idle | .waiting | .returned => True

/-- What is stopped next. -/
theorem Threads.stops_afterJoin (s : Threads σ) (i : ℕ) : Stops s.workers (s.afterJoin i) := by
  unfold Threads.afterJoin
  split_ifs with hi
  · exact hi
  · trivial

/-- A step of one thread, seen from a thread with a property that such steps keep. -/
theorem exists_of_set {P : Machine → Prop} {workers : List Machine} {i j : ℕ} {m m' : Machine}
    (hm : workers[j]? = some m) (hkept : P m → P m') (hi : ∃ n, workers[i]? = some n ∧ P n) :
    ∃ n, (workers.set j m')[i]? = some n ∧ P n := by
  obtain ⟨n, hn, hP⟩ := hi
  by_cases hij : j = i
  · subst hij
    cases hm.symm.trans hn
    exact ⟨m', List.getElem?_set_self (List.getElem?_eq_some_iff.mp hm).1, hkept hP⟩
  · exact ⟨n, by rw [List.getElem?_set_ne hij, hn], hP⟩

/-- The steps of other threads do not hold up `dispose`. -/
theorem Stops.set {workers : List Machine} {stage : Stage} (hstops : Stops workers stage) {j : ℕ}
    {m m' : Machine} {move : Move} (hm : workers[j]? = some m) (hstep : m.Step move m')
    (hmove : move.isInner = true ∨ ∃ label, move = .request label) :
    Stops (workers.set j m') stage := by
  obtain ⟨hclearing, hnotifying⟩ := hstep.dispose_kept hmove
  cases stage with
  | clearing i => exact hstops.trans_eq List.length_set.symm
  | signaling i =>
    exact exists_of_set hm (fun h => ⟨hclearing ▸ h.1, hstep.closing h.2⟩) hstops
  | notifying i =>
    exact exists_of_set hm (fun h => ⟨hnotifying ▸ h.1, (hstep.closed h.2).1⟩) hstops
  | joining i => exact exists_of_set hm (fun h => (hstep.closed h).1) hstops
  | idle | waiting | returned => trivial

/-- No thread is about to be notified by `dispose`, except in the step for it. -/
def Notifying (workers : List Machine) (stage : Stage) : Prop :=
  ∀ i m, workers[i]? = some m → m.notifying = if stage = .notifying i then 1 else 0

/-- A step on one thread, and perhaps the next stage. -/
theorem Notifying.set {workers : List Machine} {stage stage' : Stage}
    (hworkers : Notifying workers stage) {i : ℕ} {m' : Machine}
    (hself : m'.notifying = if stage' = .notifying i then 1 else 0)
    (hother : ∀ j, j ≠ i → (stage' = .notifying j ↔ stage = .notifying j)) :
    Notifying (workers.set i m') stage' := by
  intro j n hn
  by_cases hij : i = j
  · subst hij
    have hi : i < workers.length := by
      simpa using (List.getElem?_eq_some_iff.mp hn).1
    rw [List.getElem?_set_self hi] at hn
    cases hn
    exact hself
  · rw [List.getElem?_set_ne hij] at hn
    rw [hworkers j n hn]
    exact if_congr (hother j (Ne.symm hij)).symm rfl rfl

/-- A stage that is not for the notification of a thread. -/
theorem Notifying.of_ne {workers : List Machine} {stage stage' : Stage}
    (hworkers : Notifying workers stage) (hstage : ∀ i, stage ≠ .notifying i)
    (hstage' : ∀ i, stage' ≠ .notifying i) : Notifying workers stage' := by
  intro i m hm
  rw [hworkers i m hm, if_neg (hstage i), if_neg (hstage' i)]

/-- After a join no thread is notified next. -/
theorem Threads.afterJoin_ne_notifying (s : Threads σ) (i j : ℕ) :
    s.afterJoin i ≠ .notifying j := by
  unfold Threads.afterJoin
  split_ifs <;> simp

/-- What holds between two steps. -/
structure Orderly (s : Threads σ) : Prop where
  /-- Places and tasks of the threads fit together. -/
  coherent : ∀ m ∈ s.workers, Coherent m
  /-- No thread misses the event. -/
  alert : ∀ m ∈ s.workers, Alert m
  /-- Temporary handlers have what their next step needs. -/
  sound : ∀ h ∈ s.temporaries, h.Sound
  /-- The thread that is being stopped will see it. -/
  stops : Stops s.workers s.stage
  /-- No other thread is being notified. -/
  notifying : Notifying s.workers s.stage

/-- A step on a thread keeps the order, when it does so for the thread that is being stopped. -/
theorem Orderly.set (hs : Orderly s) (uploads : List Upload) {i : ℕ} {m m' : Machine} {move : Move}
    {stage : Stage} (hm : s.workers[i]? = some m) (hstep : m.Step move m')
    (hstops : Stops (s.workers.set i m') stage)
    (hnotifying : Notifying (s.workers.set i m') stage) :
    Orderly { s with workers := s.workers.set i m', uploads := uploads, stage := stage } :=
  have hmem := List.mem_of_getElem? hm
  ⟨forall_mem_set hs.coherent (hstep.coherent (hs.coherent m hmem)) i,
    forall_mem_set hs.alert (hstep.alert (hs.alert m hmem)) i, hs.sound, hstops, hnotifying⟩

/-- A step that is not one of `dispose` keeps the order. -/
theorem Orderly.move (hs : Orderly s) (uploads : List Upload) {i : ℕ} {m m' : Machine} {move : Move}
    (hm : s.workers[i]? = some m) (hstep : m.Step move m')
    (hmove : move.isInner = true ∨ ∃ label, move = .request label) :
    Orderly { s with workers := s.workers.set i m', uploads := uploads } := by
  refine hs.set uploads hm hstep (hs.stops.set hm hstep hmove) ?_
  refine hs.notifying.set ?_ fun _ _ => Iff.rfl
  rw [(hstep.dispose_kept hmove).2, hs.notifying i m hm]

/-- A step of `dispose` on a thread keeps the order. -/
theorem Orderly.stop (hs : Orderly s) {i : ℕ} {m m' : Machine} {move : Move} {stage : Stage}
    (hm : s.workers[i]? = some m) (hmove : m.Step move m')
    (hstage : s.stage = .clearing i ∧ move = .clear ∧ stage = .signaling i ∨
      s.stage = .signaling i ∧ move = .disposeSignal ∧ stage = .notifying i ∨
      s.stage = .notifying i ∧ move = .disposeNotify ∧ stage = .joining i) :
    Orderly { s with workers := s.workers.set i m', stage := stage } := by
  have hself := List.getElem?_set_self (a := m') (List.getElem?_eq_some_iff.mp hm).1
  have hstops := hs.stops
  have hnotifying := hs.notifying i m hm
  rcases hstage with ⟨hstage, rfl, rfl⟩ | ⟨hstage, rfl, rfl⟩ | ⟨hstage, rfl, rfl⟩
  · -- the flag is cleared, so the loop does not go on
    cases hmove.transition
    refine hs.set s.uploads hm hmove ⟨_, hself, Nat.succ_pos _, Or.inr rfl⟩ ?_
    refine hs.notifying.set ?_ (by simp [hstage])
    simpa [hstage] using hnotifying
  · -- the event is set, so the thread does not fall asleep any more
    rw [hstage] at hstops
    obtain ⟨_, hn, _, hclosing⟩ := hstops
    cases hm.symm.trans hn
    cases hmove.transition
    refine hs.set s.uploads hm hmove
      ⟨_, hself, Nat.succ_pos _, hclosing.imp_right fun h => ⟨h, Or.inl rfl⟩⟩ ?_
    refine hs.notifying.set ?_ (fun j hj => by simp [hstage, hj.symm])
    simpa [hstage] using hnotifying
  · rw [hstage] at hstops
    obtain ⟨_, hn, _, hclosed⟩ := hstops
    cases hm.symm.trans hn
    refine hs.set s.uploads hm hmove ⟨_, hself, (hmove.closed hclosed).1⟩ ?_
    cases hmove.transition
    refine hs.notifying.set ?_ (fun j hj => by simp [hstage, hj.symm])
    simp [hnotifying, hstage]

/-- Every step keeps the order. -/
theorem Orderly.step (hs : Orderly s) (hstep : s.Step k turn t) : Orderly t := by
  cases hstep.effect with
  | submit | lookUp | bind | unbind | poll =>
    exact ⟨hs.coherent, hs.alert, hs.sound, hs.stops, hs.notifying⟩
  | request uploads hm hmove => exact hs.move uploads hm hmove (Or.inr ⟨_, rfl⟩)
  | worker hinner hm hmove => exact hs.move s.uploads hm hmove (Or.inl hinner)
  | start uploads =>
    refine ⟨hs.coherent, hs.alert, ?_, hs.stops, hs.notifying⟩
    intro h hh
    rcases List.mem_append.mp hh with hold | hnew
    · exact hs.sound h hold
    · rw [List.mem_singleton.mp hnew]
      exact ⟨rfl, rfl⟩
  | @temporary i action h h' change hh hexec =>
    refine ⟨hs.coherent, hs.alert, ?_, hs.stops, hs.notifying⟩
    exact forall_mem_set hs.sound ((hs.sound h (List.mem_of_getElem? hh)).exec hexec) i
  | flag hstage =>
    refine ⟨hs.coherent, hs.alert, hs.sound, s.stops_afterJoin 0, ?_⟩
    exact hs.notifying.of_ne (by simp [hstage]) (s.afterJoin_ne_notifying 0)
  | stop hm hmove hstage => exact hs.stop hm hmove hstage
  | @join i m hstage hm hended =>
    refine ⟨hs.coherent, hs.alert, hs.sound, s.stops_afterJoin (i + 1), ?_⟩
    exact hs.notifying.of_ne (by simp [hstage]) (s.afterJoin_ne_notifying (i + 1))
  | leave hstage hcounter =>
    refine ⟨hs.coherent, hs.alert, hs.sound, trivial, ?_⟩
    exact hs.notifying.of_ne (by simp [hstage]) (by simp)

/-- The order is kept along every run. -/
theorem orderly_of_run {now : ℤ} (hrun : Run (Threads.Step k) (.new k now) trace s) :
    Orderly s := by
  refine hrun.invariant (I := fun _ s => Orderly s) ?_ fun _ hs hstep => hs.step hstep
  refine ⟨?_, ?_, fun h hh => absurd hh List.not_mem_nil, trivial, ?_⟩
  · intro m hm
    rw [List.eq_of_mem_replicate hm]
    exact .initial now
  · intro m hm
    rw [List.eq_of_mem_replicate hm]
    exact alert_of_run .nil
  · intro i m hm
    rw [List.eq_of_mem_replicate (List.mem_of_getElem? hm)]
    rfl

/-! ## The way to the end of `dispose` -/

/-- No due time leaves the 64 bits. -/
structure Threads.TimesFit (s : Threads σ) : Prop where
  /-- Those of tasks that are about to be put back. -/
  workers : ∀ m ∈ s.workers, RequeueFits m
  /-- Those of tasks that are about to be queued on their temporary handlers. -/
  temporaries : ∀ h ∈ s.temporaries, h.QueueFits

/-- A step of `dispose`, or of a thread that it waits for. No thread wakes up for no reason, and no
task throws on a temporary handler. -/
inductive Threads.EndingStep (k : Sizes) (s : Threads σ) : Turn σ → Threads σ → Prop
  | worker {i : ℕ} {m : Machine} {move : Move} {t : Threads σ} (hm : s.workers[i]? = some m)
      (hprompted : m.Prompted move) (hstep : s.Step k (.worker i move) t) :
      EndingStep k s (.worker i move) t
  | temporary {i : ℕ} {action : Action} {t : Threads σ} (hends : action ≠ .ends false)
      (hstep : s.Step k (.temporary i action) t) : EndingStep k s (.temporary i action) t
  | dispose {t : Threads σ} (hstep : s.Step k .dispose t) : EndingStep k s .dispose t

/-- It is a step of the system. -/
theorem Threads.EndingStep.step (hstep : s.EndingStep k turn t) : s.Step k turn t := by
  cases hstep with
  | worker _ _ hstep => exact hstep
  | temporary _ hstep => exact hstep
  | dispose hstep => exact hstep

/-- How far it is to the end of `dispose`, without the temporary handlers. A thread takes at most
seventeen steps. -/
def Threads.stageRank (s : Threads σ) : ℕ :=
  match s.stage with
  | .idle => 22 * s.workers.length + 2
  | .clearing i => 22 * (s.workers.length - i) + 1
  | .signaling i => 22 * (s.workers.length - i)
  | .notifying i => 22 * (s.workers.length - i) - 1
  | .joining i => 22 * (s.workers.length - i) - 20 + s.workers[i]?.elim 0 Machine.toEnd
  | .waiting => 1
  | .returned => 0

/-- How far it is to the end of `dispose`. -/
def Threads.rank (s : Threads σ) : ℕ := (s.temporaries.map Temporary.toEnd).sum + s.stageRank

/-- A step of a machine is a step on a handler or worker. -/
theorem Threads.onWorker_of_step {i : ℕ} {m m' : Machine} {move : Move}
    (hm : s.workers[i]? = some m) (hstep : m.Step move m') :
    s.onWorker i move = some { s with workers := s.workers.set i m' } := by
  have hexec : m.exec move = some m' := hstep
  simp only [Threads.onWorker, hm, hexec, Option.bind_eq_bind, Option.bind_some]
  rfl

/-- A step of one thread keeps due times in their range, when it does so for this thread. -/
theorem Threads.TimesFit.set (hs : s.TimesFit) {i : ℕ} {m' : Machine} (hm' : RequeueFits m')
    (stage : Stage) : Threads.TimesFit { s with workers := s.workers.set i m', stage := stage } :=
  ⟨forall_mem_set hs.workers hm' i, hs.temporaries⟩

/-- The next stage is nearer to the end. -/
theorem Threads.stageRank_afterJoin_lt (s : Threads σ) {i : ℕ} (hi : i < s.workers.length) :
    Threads.stageRank { s with stage := s.afterJoin (i + 1) } <
      22 * (s.workers.length - i) - 20 + s.workers[i]?.elim 0 Machine.toEnd := by
  unfold Threads.afterJoin
  split_ifs with hnext <;> simp only [Threads.stageRank] <;> omega

/-- A thread that is being stopped can go on, or was stopped. -/
theorem Threads.exists_join (hs : Orderly s) (hfits : s.TimesFit) {i : ℕ}
    (hstage : s.stage = .joining i) :
    ∃ turn t, s.EndingStep k turn t ∧ t.TimesFit ∧ t.rank < s.rank := by
  have hstops := hs.stops
  rw [hstage] at hstops
  obtain ⟨m, hm, hclosed⟩ := hstops
  have hi := (List.getElem?_eq_some_iff.mp hm).1
  have hmem := List.mem_of_getElem? hm
  have hrank : s.stageRank =
      22 * (s.workers.length - i) - 20 + s.workers[i]?.elim 0 Machine.toEnd := by
    simp only [Threads.stageRank, hstage]
  by_cases hended : m.place = .ended
  · refine ⟨.dispose, { s with stage := s.afterJoin (i + 1) }, .dispose ?_,
      ⟨hfits.workers, hfits.temporaries⟩, ?_⟩
    · simp [Threads.Step, Threads.exec, Threads.dispose, hstage, hm, hended]
    · have hlt := s.stageRank_afterJoin_lt hi
      simp only [Threads.rank]
      omega
  · have hnotifying : m.notifying = 0 := by simpa [hstage] using hs.notifying i m hm
    obtain ⟨move, m', hinner, hprompted, hstep, hm', hlt⟩ := hclosed.exists_step
      (hs.coherent m hmem) (hs.alert m hmem) hnotifying (hfits.workers m hmem) hended
    refine ⟨.worker i move, { s with workers := s.workers.set i m' }, .worker hm hprompted ?_,
      hfits.set hm' _, ?_⟩
    · rw [Threads.Step, Threads.exec, if_pos hinner, Threads.onWorker_of_step hm hstep]
    · simp only [Threads.rank, hrank]
      simp only [Threads.stageRank, hstage, List.length_set, List.getElem?_set_self hi, hm,
        Option.elim_some]
      omega

/-- The steps of `dispose` on a thread do not change its task, and lead to the next stage. -/
theorem Threads.exists_stop (hfits : s.TimesFit) {i : ℕ} {m m' : Machine} (move : Move)
    (stage : Stage) (hm : s.workers[i]? = some m) (hstep : m.Step move m')
    (hscheduler : m'.scheduler = m.scheduler)
    (hdispose : s.dispose = (s.onWorker i move).map fun t => { t with stage := stage })
    (hrank : Threads.stageRank { s with workers := s.workers.set i m', stage := stage } <
      s.stageRank) :
    ∃ turn t, s.EndingStep k turn t ∧ t.TimesFit ∧ t.rank < s.rank := by
  have hm' : RequeueFits m' := by
    have h := hfits.workers m (List.mem_of_getElem? hm)
    rwa [RequeueFits, hscheduler]
  refine ⟨.dispose, { s with workers := s.workers.set i m', stage := stage }, .dispose ?_,
    hfits.set hm' stage, Nat.add_lt_add_left hrank _⟩
  rw [Threads.Step, Threads.exec, hdispose, Threads.onWorker_of_step hm hstep]
  rfl

/-- A handler whose task is not counted off can go on. -/
theorem Threads.exists_temporary (hs : Orderly s) (hfits : s.TimesFit)
    (hdisposed : s.dispatcher.isDisposed = true) {h : Temporary} (hh : h ∈ s.temporaries)
    (hunfinished : h.unfinished = true) :
    ∃ turn t, s.EndingStep k turn t ∧ t.TimesFit ∧ t.rank < s.rank := by
  obtain ⟨i, hi⟩ := List.mem_iff_getElem?.mp hh
  obtain ⟨action, h', change, hexec, hends, hfits', hlt⟩ :=
    (hs.sound h hh).exists_step (hfits.temporaries h hh) hunfinished
  refine ⟨.temporary i action, { s with
    dispatcher := { s.dispatcher with
      temporaryHandlersTasksCounter := s.dispatcher.temporaryHandlersTasksCounter + change }
    temporaries := s.temporaries.set i h' }, .temporary hends ?_,
    ⟨hfits.workers, forall_mem_set hfits.temporaries hfits' i⟩, ?_⟩
  · simp only [Threads.Step, Threads.exec, hi, hdisposed, hexec, Option.bind_eq_bind,
      Option.bind_some]
    rfl
  · have hsum := sum_map_set (f := Temporary.toEnd) hi h'
    have hstage : ∀ d : AsyncDispatcher σ, ∀ l : List Temporary,
        Threads.stageRank { s with dispatcher := d, temporaries := l } = s.stageRank :=
      fun _ _ => rfl
    simp only [Threads.rank, hstage]
    omega

/-- Until it has returned, `dispose` or a thread that it waits for can take a step towards its end,
unless a task has thrown on a temporary handler. -/
theorem Threads.exists_progress (hs : Orderly s) (hd : Disposing trace s)
    (hthrows : ∀ turn ∈ trace, turn.throws = false) (hfits : s.TimesFit)
    (hreturned : s.stage ≠ .returned) :
    ∃ turn t, s.EndingStep k turn t ∧ t.TimesFit ∧ t.rank < s.rank := by
  have hstops := hs.stops
  cases hstage : s.stage with
  | idle =>
    refine ⟨.dispose, { s with
      dispatcher := { s.dispatcher with isDisposed := true }
      stage := s.afterJoin 0 }, .dispose ?_, ⟨hfits.workers, hfits.temporaries⟩, ?_⟩
    · simp only [Threads.Step, Threads.exec, Threads.dispose, hstage]
    · refine Nat.add_lt_add_left ?_ _
      unfold Threads.afterJoin
      split_ifs with hpos <;> simp only [Threads.stageRank, hstage] <;> omega
  | clearing i =>
    rw [hstage] at hstops
    have hm := List.getElem?_eq_getElem hstops
    have hlt : i < s.workers.length := hstops
    refine Threads.exists_stop hfits .clear (.signaling i) hm rfl rfl
      (by simp [Threads.dispose, hstage]) ?_
    simp only [Threads.stageRank, hstage, List.length_set]
    omega
  | signaling i =>
    rw [hstage] at hstops
    obtain ⟨m, hm, hclearing, _⟩ := hstops
    have hlt := (List.getElem?_eq_some_iff.mp hm).1
    refine Threads.exists_stop hfits .disposeSignal (.notifying i) hm (if_pos hclearing) rfl
      (by simp [Threads.dispose, hstage]) ?_
    simp only [Threads.stageRank, hstage, List.length_set]
    omega
  | notifying i =>
    rw [hstage] at hstops
    obtain ⟨m, hm, hnotifying, _⟩ := hstops
    have hlt := (List.getElem?_eq_some_iff.mp hm).1
    refine Threads.exists_stop hfits .disposeNotify (.joining i) hm (if_pos hnotifying) rfl
      (by simp [Threads.dispose, hstage]) ?_
    have hle := Machine.toEnd_le
      { m with notifying := m.notifying - 1, place := m.place.notify }
    simp only [Threads.stageRank, hstage, List.length_set, List.getElem?_set_self hlt,
      Option.elim_some]
    omega
  | joining i => exact Threads.exists_join hs hfits hstage
  | waiting =>
    have hthrown : s.temporaries.countP Temporary.thrown = 0 := by
      rw [hd.thrown_eq, List.countP_eq_zero]
      simpa using hthrows
    by_cases hcounter : s.dispatcher.temporaryHandlersTasksCounter = 0
    · refine ⟨.dispose, { s with stage := .returned }, .dispose ?_,
        ⟨hfits.workers, hfits.temporaries⟩, ?_⟩
      · simp only [Threads.Step, Threads.exec, Threads.dispose, hstage, if_pos hcounter]
      · refine Nat.add_lt_add_left ?_ _
        simp only [Threads.stageRank, hstage]
        exact Nat.one_pos
    · -- the counter is the number of handlers whose task is not counted off
      have hpos : 0 < s.temporaries.countP Temporary.unfinished := by
        have hcount := hd.counter_eq
        omega
      obtain ⟨h, hh, hunfinished⟩ := List.countP_pos_iff.mp hpos
      exact Threads.exists_temporary hs hfits (hd.isDisposed (by simp [hstage])) hh hunfinished
  | returned => exact absurd hstage hreturned

/-- In a step towards the end no task throws. -/
theorem Threads.EndingStep.throws (hstep : s.EndingStep k turn t) : turn.throws = false := by
  cases hstep with
  | worker | dispose => rfl
  | @temporary i action _ hends =>
    cases action with
    | ends returned =>
      cases returned with
      | true => rfl
      | false => exact absurd rfl hends
    | queue | extract | enter | countOff | leave => rfl

/-- When no task has thrown, `dispose` can return. -/
theorem exists_returned {now : ℤ} (hrun : Run (Threads.Step k) (.new k now) trace s)
    (hthrows : ∀ turn ∈ trace, turn.throws = false) (hfits : s.TimesFit) :
    ∃ later t, Run (Threads.EndingStep k) s later t ∧ t.stage = .returned := by
  refine exists_run_of_progress Threads.rank
    (I := fun s => ∃ trace, Run (Threads.Step k) (.new k now) trace s ∧
      (∀ turn ∈ trace, turn.throws = false) ∧ s.TimesFit) ?_ ⟨trace, hrun, hthrows, hfits⟩
  rintro s ⟨trace, hrun, hthrows, hfits⟩ hreturned
  obtain ⟨turn, t, hstep, ht, hlt⟩ := Threads.exists_progress (k := k) (orderly_of_run hrun)
    (disposing_of_run hrun) hthrows hfits hreturned
  refine ⟨turn, t, hstep, ⟨trace ++ [turn], hrun.snoc hstep.step, ?_, ht⟩, hlt⟩
  exact List.forall_mem_append.mpr ⟨hthrows, List.forall_mem_singleton.mpr hstep.throws⟩

/-- **`dispose` is held up by a task that has thrown, and by nothing else.** At every point of every
run, when the due times fit into 64 bits: `dispose` can return exactly when no task has thrown on a
temporary handler. Then the steps of the disposing thread and of the threads that it waits for are
enough, and none of these threads has to wake up for no reason. -/
theorem dispose_returns_tfae {now : ℤ} (hrun : Run (Threads.Step k) (.new k now) trace s)
    (hfits : s.TimesFit) :
    List.TFAE [∀ turn ∈ trace, turn.throws = false,
      ∃ later t, Run (Threads.EndingStep k) s later t ∧ t.stage = .returned,
      ∃ later t, Run (Threads.Step k) s later t ∧ t.stage = .returned] := by
  tfae_have 1 → 2 := fun hthrows => exists_returned hrun hthrows hfits
  tfae_have 2 → 3 := by
    rintro ⟨later, t, hlater, hreturned⟩
    exact ⟨later, t, hlater.mono fun _ _ _ hstep => hstep.step, hreturned⟩
  tfae_have 3 → 1 := by
    rintro ⟨later, t, hlater, hreturned⟩ turn hturn
    have ht := disposing_of_run (hrun.append hlater)
    exact ht.throws_eq_false hreturned turn (List.mem_append_left later hturn)
  tfae_finish

namespace Scenario

/-- A temporary handler of a dispatcher with one handler is in its task. -/
def inTask : List (Turn ℕ) :=
  [.submit kExecuteInPool 0 false, .upload 0 0, .upload 0 0, .temporary 0 (.queue 1),
    .temporary 0 (.extract 2), .temporary 0 .enter]

/-- The task throws. -/
def taskThrows : List (Turn ℕ) := inTask ++ [.temporary 0 (.ends false)]

end Scenario

/-- While the task goes on, `dispose` can return; after the task has thrown, it cannot. -/
theorem dispose_returns_inTask :
    ∃ s t : Threads ℕ, Run (Threads.Step ⟨1, 0⟩) (.new ⟨1, 0⟩ 0) Scenario.inTask s ∧
      Run (Threads.Step ⟨1, 0⟩) (.new ⟨1, 0⟩ 0) Scenario.taskThrows t ∧
      (∃ later u, Run (Threads.Step ⟨1, 0⟩) s later u ∧ u.stage = .returned) ∧
      ¬∃ later u, Run (Threads.Step ⟨1, 0⟩) t later u ∧ u.stage = .returned := by
  have hrun : Run (Threads.Step ⟨1, 0⟩) (.new ⟨1, 0⟩ 0) Scenario.inTask _ :=
    Run.of_foldlM_some rfl
  have hthrow : Run (Threads.Step ⟨1, 0⟩) (.new ⟨1, 0⟩ 0) Scenario.taskThrows _ :=
    Run.of_foldlM_some rfl
  refine ⟨_, _, hrun, hthrow, ?_, ?_⟩
  · refine ((dispose_returns_tfae hrun ⟨?_, ?_⟩).out 0 2).mp (by decide)
    · exact List.forall_mem_singleton.mpr fun _ hhand => by cases hhand
    · exact List.forall_mem_singleton.mpr fun _ hphase => by cases hphase
  · refine (((dispose_returns_tfae hthrow ⟨?_, ?_⟩).out 0 2).not).mp (by decide)
    · exact List.forall_mem_singleton.mpr fun _ hhand => by cases hhand
    · exact List.forall_mem_singleton.mpr fun _ hphase => by cases hphase

end CppJam.Dispatcher
