import CppJam.App.Watchdog

/-!
# The entries of the watchdog

How the entry of a thread that is there after a step came about, and what is known of the
watchdog after any run: the counters of the entries are different, and the entry of a
thread is there with its counter as long as the thread holds a handle.
-/

namespace CppJam.App

variable {τ ι : Type} [DecidableEq ι] [AddCommGroup τ] [LinearOrder τ]
  {timeout now : τ} {s t : Watchdog τ ι} {e : Event τ ι} {id : ι} {thread : Thread τ} {p q : Ping ι}

/-- How an entry that is there after a step came about: it was made, its counter was found changed,
or it is the same as before. -/
inductive Entry (s : Watchdog τ ι) (e : Event τ ι) (t : Watchdog τ ι) (id : ι)
    (thread : Thread τ) : Prop
  | made {p : Ping ι} : s.check = none → s.threads id = none → e.label = .add p → p.owner = id →
      p.call = thread.count → p.count = thread.count → thread.count = s.calls →
      thread.lastTime = e.time → t.counts thread.count = thread.lastCount →
      t.calls = s.calls + 1 → Entry s e t id thread
  | noted {old : Thread τ} {rest : List ι} : s.check = some ⟨thread.lastTime, id :: rest⟩ →
      s.threads id = some old → e.label = .visit id thread.count thread.lastTime →
      old.count = thread.count → old.lastCount ≠ s.counts thread.count →
      t.counts thread.count = thread.lastCount → Entry s e t id thread
  | kept : s.threads id = some thread →
      t.counts thread.count = s.counts thread.count + (if e.pings thread.count then 1 else 0) →
      (e.visits thread.count = true → thread.lastCount = s.counts thread.count) →
      Entry s e t id thread

omit [DecidableEq ι] [AddCommGroup τ] [LinearOrder τ] in
/-- The counter of an entry is new, or was the counter of the entry before. -/
theorem Entry.before (hentry : Entry s e t id thread) :
    (thread.count = s.calls ∧ ∃ p, e.label = .add p ∧ p.owner = id) ∨
      ∃ old, s.threads id = some old ∧ old.count = thread.count := by
  cases hentry with
  | made _ _ hlabel howner _ _ hcount => exact .inl ⟨hcount, _, hlabel, howner⟩
  | noted _ hold _ hcount => exact .inr ⟨_, hold, hcount⟩
  | kept hthread => exact .inr ⟨_, hthread, rfl⟩

/-- What is known of the state after any run. -/
structure Sound (s : Watchdog τ ι) : Prop where
  /-- Counters are made by calls of `add`. -/
  named : ∀ {id thread}, s.threads id = some thread → thread.count < s.calls
  /-- No two entries share a counter. -/
  distinct : ∀ {id id' thread thread'}, s.threads id = some thread → s.threads id' = some thread' →
    thread.count = thread'.count → id = id'
  /-- The entry of the owner of a handle is there, with the counter of the handle. -/
  held : ∀ {p}, p ∈ s.pings → ∃ thread, s.threads p.owner = some thread ∧ thread.count = p.count
  /-- The times of the entries are past. -/
  stamped : ∀ {id thread}, s.threads id = some thread → thread.lastTime ≤ s.time
  /-- A check read the clock after the times of the entries. -/
  clocked : ∀ {check}, s.check = some check → check.now ≤ s.time ∧
    ∀ {id thread}, s.threads id = some thread → thread.lastTime ≤ check.now

omit [DecidableEq ι] [AddCommGroup τ] in
/-- Handles of one thread that are held together are on the same counter. -/
theorem Sound.count_eq (hs : Sound s) (hp : p ∈ s.pings) (hq : q ∈ s.pings)
    (howner : q.owner = p.owner) : q.count = p.count := by
  obtain ⟨thread, hthread, hcount⟩ := hs.held hp
  obtain ⟨thread', hthread', hcount'⟩ := hs.held hq
  rw [howner, hthread, Option.some_inj] at hthread'
  subst hthread'
  exact hcount'.symm.trans hcount

omit [DecidableEq ι] [AddCommGroup τ] in
/-- A new watchdog is sound. -/
theorem sound_new (time : τ) : Sound (Watchdog.new time : Watchdog τ ι) where
  named := nofun
  distinct := nofun
  held := nofun
  stamped := nofun
  clocked := nofun

/-- An entry after a visit: its counter was found changed, or it is the same as before. -/
theorem threads_of_visit {id' : ι} {old : Thread τ} (hold : s.threads id' = some old)
    (hthread : (s.visit timeout now id' old).threads id = some thread) :
    (id = id' ∧ old.lastCount ≠ s.counts old.count ∧
      thread = { old with lastCount := s.counts old.count, lastTime := now }) ∨
    (s.threads id = some thread ∧ (id = id' → thread.lastCount = s.counts thread.count)) := by
  by_cases hid : id = id'
  · subst hid
    obtain ⟨_, hvisit⟩ | ⟨_, hcount, hvisit⟩ | ⟨_, hcount, _, hvisit⟩ | ⟨hcount, hvisit⟩ :=
      visit_cases timeout now s id old
    · simp [hvisit] at hthread
    · simp only [hvisit, Function.update_self, Option.some_inj] at hthread
      exact .inl ⟨rfl, hcount, hthread.symm⟩
    all_goals
      simp only [hvisit, hold, Option.some_inj] at hthread
      subst hthread
      exact .inr ⟨hold, fun _ => hcount⟩
  · refine .inr ⟨?_, fun h => absurd h hid⟩
    obtain ⟨_, hvisit⟩ | ⟨_, _, hvisit⟩ | ⟨_, _, _, hvisit⟩ | ⟨_, hvisit⟩ :=
      visit_cases timeout now s id' old <;> simpa [hvisit, hid] using hthread

/-- Where an entry comes from. -/
theorem entry_of_step (hs : Sound s) (hstep : Step timeout s e t)
    (hthread : t.threads id = some thread) : Entry s e t id thread := by
  obtain ⟨time, _, _, heffect⟩ := hstep
  cases heffect with
  | add id' hfree =>
    cases hold : s.threads id' with
    | some old =>
      simp only [Watchdog.add, hold] at hthread ⊢
      exact .kept hthread (by simp [Event.pings]) (by simp [Event.visits])
    | none =>
      simp only [Watchdog.add, hold] at hthread ⊢
      by_cases hid : id = id'
      · subst hid
        rw [Function.update_self, Option.some_inj] at hthread
        subst hthread
        exact .made hfree hold rfl rfl rfl rfl rfl rfl (Function.update_self ..) rfl
      · rw [Function.update_of_ne hid] at hthread
        have hne : thread.count ≠ s.calls := (hs.named hthread).ne
        exact .kept hthread (by simp [Event.pings, hne]) (by simp [Event.visits])
  | ping q hp =>
    refine .kept hthread ?_ (by simp [Event.visits])
    by_cases hq : q.count = thread.count
    · simp [Event.pings, Watchdog.ping, hq]
    · simp [Event.pings, Watchdog.ping, hq, Ne.symm hq]
  | drop q hp => exact .kept hthread (by simp [Event.pings, Watchdog.drop]) (by simp [Event.visits])
  | ended id' hnone => exact .kept hthread (by simp [Event.pings]) (by simp [Event.visits])
  | checkBegin order hfree hnodup hkeys =>
    exact .kept hthread (by simp [Event.pings]) (by simp [Event.visits])
  | @visit id' old now rest hcheck hold =>
    obtain ⟨rfl, hcount, rfl⟩ | ⟨hthread, hcount⟩ := threads_of_visit hold hthread
    · exact .noted hcheck hold rfl rfl hcount (by simp)
    · refine .kept hthread (by simp [Event.pings]) fun hvisits => hcount ?_
      exact hs.distinct hthread hold (of_decide_eq_true hvisits).symm
  | checkEnd hcheck => exact .kept hthread (by simp [Event.pings]) (by simp [Event.visits])

/-- A check after a step has just read the clock, or was in progress before. -/
theorem check_of_step {check : Check τ ι} (hstep : Step timeout s e t)
    (hcheck : t.check = some check) :
    check.now = e.time ∨ ∃ before, s.check = some before ∧ before.now = check.now := by
  obtain ⟨time, _, _, heffect⟩ := hstep
  cases heffect with
  | add id hfree => simp [hfree] at hcheck
  | checkBegin order hfree hnodup hkeys =>
    cases hcheck
    exact .inl rfl
  | visit hbefore hthread =>
    cases hcheck
    exact .inr ⟨_, hbefore, rfl⟩
  | checkEnd hbefore => simp at hcheck
  | _ => exact .inr ⟨_, hcheck, rfl⟩

/-- The entry of the owner of a handle stays, with its counter. -/
theorem Sound.held_of_step (hs : Sound s) (hstep : Step timeout s e t) (hp : p ∈ t.pings) :
    ∃ thread, t.threads p.owner = some thread ∧ thread.count = p.count := by
  have hmem := (mem_pings_of_step hstep).mp hp
  obtain ⟨time, _, _, heffect⟩ := hstep
  cases heffect with
  | add id hfree =>
    cases hold : s.threads id with
    | some old =>
      simp only [Watchdog.add, hold] at hmem ⊢
      obtain hp | ⟨hp, _⟩ := hmem
      · cases hp
        exact ⟨old, hold, rfl⟩
      · exact hs.held hp
    | none =>
      simp only [Watchdog.add, hold] at hmem ⊢
      obtain hp | ⟨hp, _⟩ := hmem
      · cases hp
        exact ⟨_, Function.update_self .., rfl⟩
      · obtain ⟨thread, hthread, hcount⟩ := hs.held hp
        have hid : p.owner ≠ id := by
          rintro rfl
          simp [hold] at hthread
        exact ⟨thread, by rwa [Function.update_of_ne hid], hcount⟩
  | @visit id old now rest hcheck hold =>
    obtain ⟨thread, hthread, hcount⟩ := hs.held (hmem.resolve_left nofun).1
    have hp : p ∈ s.pings := (hmem.resolve_left nofun).1
    by_cases hid : p.owner = id
    · rw [hid, hold, Option.some_inj] at hthread
      subst hthread
      obtain ⟨huse, _⟩ | ⟨_, _, hvisit⟩ | ⟨_, _, _, hvisit⟩ | ⟨_, hvisit⟩ :=
        visit_cases timeout now s id old
      · exact absurd hcount.symm (useCount_eq_one.mp huse p hp)
      all_goals simp [hvisit, hid, hold, hcount]
    · obtain ⟨_, hvisit⟩ | ⟨_, _, hvisit⟩ | ⟨_, _, _, hvisit⟩ | ⟨_, hvisit⟩ :=
        visit_cases timeout now s id old <;> simp [hvisit, hid, hthread, hcount]
  | _ => exact hs.held (hmem.resolve_left nofun).1

/-- Every step keeps the watchdog sound. -/
theorem Sound.of_step (hs : Sound s) (hstep : Step timeout s e t) : Sound t := by
  have htime := time_of_step hstep
  have hstamped : ∀ {id thread}, t.threads id = some thread → thread.lastTime ≤ t.time := by
    intro id thread hthread
    rw [htime.2]
    cases entry_of_step hs hstep hthread with
    | made _ _ _ _ _ _ _ htime' => exact htime'.le
    | noted hcheck => exact (hs.clocked hcheck).1.trans htime.1
    | kept hthread => exact (hs.stamped hthread).trans htime.1
  refine ⟨?_, ?_, hs.held_of_step hstep, hstamped, ?_⟩
  · intro id thread hthread
    cases entry_of_step hs hstep hthread with
    | made _ _ _ _ _ _ hcount _ _ hcalls => omega
    | noted _ hold _ hcount =>
      rw [← hcount]
      exact (hs.named hold).trans_le (calls_le_of_step hstep)
    | kept hthread => exact (hs.named hthread).trans_le (calls_le_of_step hstep)
  · intro id id' thread thread' hthread hthread' hsame
    obtain ⟨hcount, p, hp, rfl⟩ | ⟨old, hold, hcount⟩ := (entry_of_step hs hstep hthread).before
    · obtain ⟨_, q, hq, rfl⟩ | ⟨old', hold', hcount'⟩ := (entry_of_step hs hstep hthread').before
      · rw [hp] at hq
        cases hq
        rfl
      · have := hs.named hold'
        omega
    · obtain ⟨hcount', _⟩ | ⟨old', hold', hcount'⟩ := (entry_of_step hs hstep hthread').before
      · have := hs.named hold
        omega
      · exact hs.distinct hold hold' (by omega)
  · intro check hcheck
    obtain hnow | ⟨before, hbefore, hnow⟩ := check_of_step hstep hcheck
    · rw [hnow, ← htime.2]
      exact ⟨le_rfl, hstamped⟩
    · rw [← hnow, htime.2]
      refine ⟨(hs.clocked hbefore).1.trans htime.1, ?_⟩
      intro id thread hthread
      cases entry_of_step hs hstep hthread with
      | made hfree => simp [hfree] at hbefore
      | noted hcheck' =>
        rw [hcheck', Option.some_inj] at hbefore
        rw [← hbefore]
      | kept hthread => exact (hs.clocked hbefore).2 hthread

/-- The watchdog is sound after any run. -/
theorem sound_of_run {start : τ} {trace : List (Event τ ι)}
    (hrun : Runs.Run (Step timeout) (Watchdog.new start) trace s) : Sound s := by
  refine hrun.invariant (I := fun _ s => Sound s) (sound_new start) ?_
  exact fun _ hs hstep => hs.of_step hstep

end CppJam.App
