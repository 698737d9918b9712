import CppJam.Histories
import Mathlib.Algebra.Order.Group.Defs

/-!
# The watchdog

`watchdog.hpp`: a thread that calls `add` gets a handle with which it increments a shared
counter, and the watchdog keeps the counter under the id of the thread. `check` reads the
clock, then visits the entries one by one: an entry without handles is dropped, a counter
that has changed is noted with the time of the check, and one that has not changed for
longer than the timeout aborts the program.

Only `add` and `check` take the lock. Handles are used and dropped while a check is in
progress, so a counter may be read later than the clock.
-/

namespace CppJam.App

/-- `Thread`. The shared counter goes by the number of the call of `add` that made it; the
platform id and the name are only logged. -/
structure Thread (τ : Type) where
  lastTime : τ
  lastCount : UInt32
  count : ℕ

/-- `Ping`: what the call of `add` with the given number returned to a thread. -/
structure Ping (ι : Type) where
  call : ℕ
  owner : ι
  count : ℕ
  deriving DecidableEq

/-- A `check` in progress: what it read from the clock, and the entries still to visit. -/
structure Check (τ ι : Type) where
  now : τ
  todo : List ι

/-- `Watchdog`, together with the counters and handles that it shares with the threads. -/
structure Watchdog (τ ι : Type) where
  /-- `threads_`. -/
  threads : ι → Option (Thread τ)
  /-- The values of the counters. -/
  counts : ℕ → UInt32
  /-- The handles that are held. -/
  pings : List (Ping ι)
  /-- The number of calls of `add`. -/
  calls : ℕ
  /-- The check that holds the lock. -/
  check : Option (Check τ ι)
  /-- The time of the last event. -/
  time : τ
  /-- The program was aborted. -/
  aborted : Bool

/-- What happens to the watchdog. -/
inductive Label (τ ι : Type) where
  /-- `add` returns a handle to its owner. -/
  | add (ping : Ping ι)
  /-- A handle is called. -/
  | ping (ping : Ping ι)
  /-- A handle is dropped. -/
  | drop (ping : Ping ι)
  /-- A thread ends; its id can be used again. -/
  | ended (id : ι)
  /-- `check` takes the lock and reads the clock; the order of the entries is that of the map. -/
  | checkBegin (order : List ι)
  /-- The check that read `now` visits the entry of an id, with a counter. -/
  | visit (id : ι) (count : ℕ) (now : τ)
  /-- `check` returns. -/
  | checkEnd

/-- Something happens at some time. -/
structure Event (τ ι : Type) where
  time : τ
  label : Label τ ι

variable {τ ι : Type}

namespace Event

/-- A handle on the counter is called. -/
def pings (count : ℕ) (e : Event τ ι) : Bool :=
  match e.label with
  | .ping ping => ping.count = count
  | _ => false

/-- The entry with the counter is visited. -/
def visits (count : ℕ) (e : Event τ ι) : Bool :=
  match e.label with
  | .visit _ count' _ => count' = count
  | _ => false

/-- A visit calls no handle. -/
theorem pings_of_visits {count : ℕ} {e : Event τ ι} (hvisits : e.visits count = true) (count' : ℕ) :
    e.pings count' = false := by
  obtain ⟨time, label⟩ := e
  cases label with
  | ping p => simp [visits] at hvisits
  | _ => rfl

end Event

variable [DecidableEq ι]

namespace Watchdog

/-- A new watchdog. -/
def new (time : τ) : Watchdog τ ι where
  threads := fun _ => none
  counts := fun _ => 0
  pings := []
  calls := 0
  check := none
  time := time
  aborted := false

/-- `use_count` of the counter of an entry: the entry shares it with the handles. -/
def useCount (s : Watchdog τ ι) (count : ℕ) : ℕ := 1 + s.pings.countP (·.count = count)

/-- `add`, called by a thread. An entry that the id has already is used as it is. -/
def add (s : Watchdog τ ι) (now : τ) (id : ι) : Ping ι × Watchdog τ ι :=
  match s.threads id with
  | some thread =>
    let ping : Ping ι := ⟨s.calls, id, thread.count⟩
    (ping, { s with pings := ping :: s.pings, calls := s.calls + 1 })
  | none =>
    let ping : Ping ι := ⟨s.calls, id, s.calls⟩
    (ping, { s with
      threads := Function.update s.threads id (some ⟨now, 0, s.calls⟩)
      counts := Function.update s.counts s.calls 0
      pings := ping :: s.pings
      calls := s.calls + 1 })

/-- `Ping::operator()`. -/
def ping (s : Watchdog τ ι) (ping : Ping ι) : Watchdog τ ι :=
  { s with counts := Function.update s.counts ping.count (s.counts ping.count + 1) }

/-- A handle is dropped. -/
def drop (s : Watchdog τ ι) (ping : Ping ι) : Watchdog τ ι :=
  { s with pings := s.pings.filter (· ≠ ping) }

variable [AddCommGroup τ] [LinearOrder τ]

/-- The body of the loop of `check`, for one entry. -/
def visit (timeout now : τ) (s : Watchdog τ ι) (id : ι) (thread : Thread τ) : Watchdog τ ι :=
  if s.useCount thread.count = 1 then { s with threads := Function.update s.threads id none }
  else
    let count := s.counts thread.count
    if thread.lastCount ≠ count then
      { s with
        threads := Function.update s.threads id
          (some { thread with lastCount := count, lastTime := now }) }
    else if now - thread.lastTime > timeout then { s with aborted := true }
    else s

end Watchdog

variable [AddCommGroup τ] [LinearOrder τ]

/-- What an event does, and when it can happen. -/
inductive Effect (timeout : τ) (s : Watchdog τ ι) (time : τ) : Label τ ι → Watchdog τ ι → Prop
  | add (id : ι) : s.check = none → Effect timeout s time (.add (s.add time id).1) (s.add time id).2
  | ping (p : Ping ι) : p ∈ s.pings → Effect timeout s time (.ping p) (s.ping p)
  | drop (p : Ping ι) : p ∈ s.pings → Effect timeout s time (.drop p) (s.drop p)
  | ended (id : ι) : (∀ p ∈ s.pings, p.owner ≠ id) → Effect timeout s time (.ended id) s
  | checkBegin (order : List ι) : s.check = none → order.Nodup →
      (∀ id, id ∈ order ↔ (s.threads id).isSome) →
      Effect timeout s time (.checkBegin order) { s with check := some ⟨time, order⟩ }
  | visit {id : ι} {thread : Thread τ} {now : τ} {rest : List ι} :
      s.check = some ⟨now, id :: rest⟩ → s.threads id = some thread →
      Effect timeout s time (.visit id thread.count now)
        { s.visit timeout now id thread with check := some ⟨now, rest⟩ }
  | checkEnd {now : τ} : s.check = some ⟨now, []⟩ →
      Effect timeout s time .checkEnd { s with check := none }

/-- An event happens, no earlier than the last one, to a program that was not aborted. -/
inductive Step (timeout : τ) (s : Watchdog τ ι) : Event τ ι → Watchdog τ ι → Prop
  | happens {label : Label τ ι} {u : Watchdog τ ι} (time : τ) : s.aborted = false →
      s.time ≤ time → Effect timeout s time label u →
      Step timeout s ⟨time, label⟩ { u with time := time }

/-! ## What a step does -/

variable {timeout : τ} {s t : Watchdog τ ι} {e : Event τ ι} {p : Ping ι} {count : ℕ}

omit [DecidableEq ι] [AddCommGroup τ] [LinearOrder τ] in
/-- The counter of an entry is not shared when no handle has it. -/
theorem useCount_eq_one : s.useCount count = 1 ↔ ∀ p ∈ s.pings, p.count ≠ count := by
  simp [Watchdog.useCount]

/-- The branches of the loop body. -/
theorem visit_cases (timeout now : τ) (s : Watchdog τ ι) (id : ι) (thread : Thread τ) :
    (s.useCount thread.count = 1 ∧
      s.visit timeout now id thread = { s with threads := Function.update s.threads id none }) ∨
    (s.useCount thread.count ≠ 1 ∧ thread.lastCount ≠ s.counts thread.count ∧
      s.visit timeout now id thread = { s with
        threads := Function.update s.threads id
          (some { thread with lastCount := s.counts thread.count, lastTime := now }) }) ∨
    (s.useCount thread.count ≠ 1 ∧ thread.lastCount = s.counts thread.count ∧
      timeout < now - thread.lastTime ∧
      s.visit timeout now id thread = { s with aborted := true }) ∨
    (thread.lastCount = s.counts thread.count ∧ s.visit timeout now id thread = s) := by
  unfold Watchdog.visit
  by_cases huse : s.useCount thread.count = 1
  · exact .inl ⟨huse, if_pos huse⟩
  by_cases hcount : thread.lastCount = s.counts thread.count
  · by_cases hlag : timeout < now - thread.lastTime
    · exact .inr (.inr (.inl ⟨huse, hcount, hlag, by simp [huse, hcount, hlag]⟩))
    · exact .inr (.inr (.inr ⟨hcount, by simp [huse, hcount, hlag]⟩))
  · exact .inr (.inl ⟨huse, hcount, by simp [huse, hcount]⟩)

section Fields

variable (timeout now : τ) (s : Watchdog τ ι) (id : ι) (thread : Thread τ)

/-- A visit changes the entries, or aborts. -/
theorem visit_frame : s.visit timeout now id thread =
    { s with
      threads := (s.visit timeout now id thread).threads
      aborted := (s.visit timeout now id thread).aborted } := by
  obtain ⟨_, hvisit⟩ | ⟨_, _, hvisit⟩ | ⟨_, _, _, hvisit⟩ | ⟨_, hvisit⟩ :=
    visit_cases timeout now s id thread <;> rw [hvisit]

/-- A visit leaves the counters alone. -/
@[simp] theorem visit_counts : (s.visit timeout now id thread).counts = s.counts := by
  rw [visit_frame]

/-- A visit leaves the handles alone. -/
@[simp] theorem visit_pings : (s.visit timeout now id thread).pings = s.pings := by
  rw [visit_frame]

/-- A visit calls no `add`. -/
@[simp] theorem visit_calls : (s.visit timeout now id thread).calls = s.calls := by
  rw [visit_frame]

/-- A visit aborts when the counter of an entry that is held has not changed for longer than the
timeout. -/
theorem visit_aborted_iff : (s.visit timeout now id thread).aborted = true ↔
    s.aborted = true ∨ (s.useCount thread.count ≠ 1 ∧ thread.lastCount = s.counts thread.count ∧
      timeout < now - thread.lastTime) := by
  unfold Watchdog.visit
  by_cases huse : s.useCount thread.count = 1
  · simp [huse]
  by_cases hcount : thread.lastCount = s.counts thread.count
  · by_cases hlag : timeout < now - thread.lastTime <;> simp [huse, hcount, hlag]
  · simp [huse, hcount]

omit [AddCommGroup τ] [LinearOrder τ] in
/-- `add` does not abort. -/
@[simp] theorem add_aborted : (s.add now id).2.aborted = s.aborted := by
  unfold Watchdog.add
  split <;> rfl

omit [AddCommGroup τ] [LinearOrder τ] in
/-- `add` adds the handle that it returns. -/
@[simp] theorem add_pings : (s.add now id).2.pings = (s.add now id).1 :: s.pings := by
  unfold Watchdog.add
  split <;> rfl

omit [AddCommGroup τ] [LinearOrder τ] in
/-- `add` is counted. -/
@[simp] theorem add_calls : (s.add now id).2.calls = s.calls + 1 := by
  unfold Watchdog.add
  split <;> rfl

omit [AddCommGroup τ] [LinearOrder τ] in
/-- `add` leaves the lock as it was. -/
@[simp] theorem add_check : (s.add now id).2.check = s.check := by
  unfold Watchdog.add
  split <;> rfl

end Fields

/-- A step sets the time, which does not go back. -/
theorem time_of_step (hstep : Step timeout s e t) : s.time ≤ e.time ∧ t.time = e.time := by
  obtain ⟨time, _, htime, _⟩ := hstep
  exact ⟨htime, rfl⟩

/-- The handles after a step. -/
theorem mem_pings_of_step (hstep : Step timeout s e t) :
    p ∈ t.pings ↔ e.label = .add p ∨ (p ∈ s.pings ∧ e.label ≠ .drop p) := by
  obtain ⟨time, _, _, heffect⟩ := hstep
  cases heffect with
  | add id hfree => simp [@eq_comm _ p]
  | ping q hp => simp [Watchdog.ping]
  | drop q hp => simp [Watchdog.drop, @eq_comm _ p]
  | ended id hnone => simp
  | checkBegin order hfree hnodup hkeys => simp
  | visit hcheck hthread => simp
  | checkEnd hcheck => simp

/-- The calls of `add` are counted up. -/
theorem calls_le_of_step (hstep : Step timeout s e t) : s.calls ≤ t.calls := by
  obtain ⟨time, _, _, heffect⟩ := hstep
  cases heffect with
  | add id hfree => simp
  | visit hcheck hthread => simp
  | _ => exact le_rfl

/-- A handle that is called is held. -/
theorem mem_pings_of_ping (hstep : Step timeout s e t) (hlabel : e.label = .ping p) :
    p ∈ s.pings := by
  obtain ⟨time, _, _, heffect⟩ := hstep
  dsimp only at hlabel
  subst hlabel
  cases heffect with
  | ping p hp => exact hp

/-- A step that visits an entry. -/
theorem visit_of_step {id : ι} {now : τ} (hstep : Step timeout s e t)
    (hlabel : e.label = .visit id count now) :
    ∃ thread rest, s.check = some ⟨now, id :: rest⟩ ∧ s.threads id = some thread ∧
      thread.count = count ∧ t.aborted = (s.visit timeout now id thread).aborted := by
  obtain ⟨time, _, _, heffect⟩ := hstep
  dsimp only at hlabel
  subst hlabel
  cases heffect with
  | visit hcheck hthread => exact ⟨_, _, hcheck, hthread, rfl, rfl⟩

/-- A step that aborts is a visit. -/
theorem aborted_of_step (hstep : Step timeout s e t) (habort : t.aborted = true) :
    ∃ id thread now rest, s.check = some ⟨now, id :: rest⟩ ∧ s.threads id = some thread ∧
      e.label = .visit id thread.count now ∧ s.useCount thread.count ≠ 1 ∧
      thread.lastCount = s.counts thread.count ∧ timeout < now - thread.lastTime := by
  obtain ⟨time, hrunning, _, heffect⟩ := hstep
  cases heffect with
  | add id hfree => simp [hrunning] at habort
  | @visit id thread now rest hcheck hthread =>
    have hvisit := (visit_aborted_iff timeout now s id thread).mp habort
    rw [hrunning] at hvisit
    exact ⟨id, thread, now, rest, hcheck, hthread, rfl, hvisit.resolve_left nofun⟩
  | _ => exact absurd habort (by simp [Watchdog.ping, Watchdog.drop, hrunning])

end CppJam.App
