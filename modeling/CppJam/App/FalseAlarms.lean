import CppJam.App.Samples
import Mathlib.Algebra.Order.Field.Basic
import Mathlib.Algebra.Order.Ring.Rat
import Mathlib.Tactic.Linarith
import Mathlib.Tactic.NormNum

/-!
# False alarms of the watchdog

A thread that pings at least once within every timeout should not be reported. The
watchdog takes the clock reading of the last sample of a counter for the time since which
the counter is unchanged. This is right when a handle was held since the sample, and the
counter was not read later than the clock. It is wrong when `add` finds an entry that a
thread with the same id left behind: the entry keeps its old time, and the new thread is
reported at once. It can also be wrong when a ping comes between the two readings of a
check.
-/

namespace CppJam.App

open Histories Runs

variable {τ ι : Type} [DecidableEq ι] [AddCommGroup τ] [LinearOrder τ]

/-- In every interval of the length of the timeout that starts no earlier than a call of `add` and
ends before its handle is dropped, the thread pings. -/
def Regular (timeout : τ) (trace : List (Event τ ι)) : Prop :=
  ∀ front added p mid e back, trace = front ++ ⟨added, .add p⟩ :: (mid ++ e :: back) →
    (∀ f ∈ mid, f.label ≠ .drop p) → ∀ t, added ≤ t → t + timeout < e.time →
    ∃ f ∈ trace, ∃ q : Ping ι, f.label = .ping q ∧ q.owner = p.owner ∧
      t ≤ f.time ∧ f.time ≤ t + timeout

/-- An entry that is held is visited by a check that read `now`, more than the timeout after the
clock reading of an earlier sample. -/
structure Overdue (timeout : τ) (front : List (Event τ ι)) (sample : Event τ ι)
    (mid : List (Event τ ι)) (visit : Event τ ι) (count : ℕ) (now : τ) : Prop where
  sampled : ∃ clock, Samples count clock sample ∧ timeout < now - clock
  visited : ∃ id, visit.label = .visit id count now
  held : ∃ p : Ping ι, p.count = count ∧ Holds (front ++ sample :: mid) p

/-- The threads had no reason to ping between the sample and the check: no handle was held all the
time, or the counter was sampled no more than the timeout before the check. -/
def Excused (timeout : τ) (front : List (Event τ ι)) (sample : Event τ ι)
    (mid : List (Event τ ι)) (count : ℕ) (now : τ) : Prop :=
  (∀ p : Ping ι, p.count = count → Holds (front ++ [sample]) p → ∃ e ∈ mid, e.label = .drop p) ∨
    now ≤ sample.time + timeout

/-- A counter is incremented between a sample and an overdue visit also when the threads had no
reason to ping. -/
def PingedWhenExcused (timeout : τ) (trace : List (Event τ ι)) : Prop :=
  ∀ front sample mid visit back count now,
    trace = front ++ sample :: (mid ++ visit :: back) →
    Overdue timeout front sample mid visit count now →
    Excused timeout front sample mid count now → ∃ e ∈ mid, e.pings count = true

/-! ## Overdue visits -/

variable {timeout start now : τ} {s : Watchdog τ ι} {trace : List (Event τ ι)} {id : ι} {count : ℕ}

/-- A program that is aborted saw no ping before an overdue visit. -/
theorem exists_overdue (hrun : Run (Step timeout) (.new start) trace s)
    (hsparse : SparsePings trace) (habort : s.aborted = true) :
    ∃ front sample mid visit count now, trace = front ++ sample :: (mid ++ [visit]) ∧
      Overdue timeout front sample mid visit count now ∧ ∀ e ∈ mid, e.pings count = false := by
  cases hrun with
  | nil => simp [Watchdog.new] at habort
  | @snoc trace visit s t hrun hstep =>
    obtain ⟨id, thread, now, rest, _, hthread, hlabel, huse, hcount, hlag⟩ :=
      aborted_of_step hstep habort
    have hbefore : SparsePings trace := fun count => (hsparse count).of_append
    obtain ⟨k, hunseen, hk⟩ := accounted_of_run hrun hbefore hthread
    have hvisits : visit.visits thread.count = true := by simp [Event.visits, hlabel]
    obtain rfl := eq_zero_of_wrapped (hcount.trans hk) (hunseen.lt (hsparse _) hvisits)
    obtain ⟨front, sample, mid, rfl, hsample, hquiet⟩ := hunseen.exists_quiet
    refine ⟨front, sample, mid, visit, thread.count, now, by simp, ?_, hquiet⟩
    have hheld : ∃ p ∈ s.pings, p.count = thread.count := by
      by_contra hnone
      exact huse (useCount_eq_one.mpr fun p hp hcount => hnone ⟨p, hp, hcount⟩)
    obtain ⟨p, hp, hpcount⟩ := hheld
    exact ⟨⟨_, hsample, hlag⟩, ⟨id, hlabel⟩, p, hpcount, (mem_pings_iff hrun).mp hp⟩

variable [IsOrderedAddMonoid τ]

/-- A program that is not aborted saw a ping before every overdue visit. -/
theorem pinged_of_running (hrun : Run (Step timeout) (.new start) trace s)
    (hs : s.aborted = false) {front mid back : List (Event τ ι)} {sample visit : Event τ ι}
    (hsplit : trace = front ++ sample :: (mid ++ visit :: back))
    (hoverdue : Overdue timeout front sample mid visit count now) :
    ∃ e ∈ mid, e.pings count = true := by
  by_contra hquiet
  obtain ⟨⟨clock, hsamples, hlag⟩, ⟨id', hlabel⟩, p, hcount, hholds⟩ := hoverdue
  have hsplit' : trace = (front ++ sample :: mid) ++ visit :: back := by simp [hsplit]
  rw [hsplit'] at hrun
  obtain ⟨s₃, s₄, hrun₃, hvisit, hback⟩ := hrun.at_step
  obtain ⟨s₁, s₂, hrun₁, hsample, hmid⟩ := hrun₃.at_step
  obtain ⟨id, thread, rfl, hclock, hsettled⟩ :=
    settled_of_samples (sound_of_run hrun₁) hsample hsamples
  -- nothing happens to the entry on the way to the visit
  have hmid' : Sound s₃ ∧ Settled id thread s₃ := by
    refine Run.of_steps (I := fun s => Sound s ∧ Settled id thread s)
      (C := fun _ e => e.pings thread.count = false) ?_
      ⟨sound_of_run (hrun₁.snoc hsample), hsettled⟩ hmid ?_
    · rintro t e u hstep hquiet ⟨ht, hsettled⟩
      exact ⟨ht.of_step hstep, hsettled.of_step ht hstep hquiet⟩
    · rintro front' e back' u rfl _
      exact eq_false_of_ne_true fun he => hquiet ⟨e, by simp, he⟩
  have habort : s₄.aborted = true := aborted_of_settled hmid'.1 hvisit hmid'.2 hclock hlabel
    ((mem_pings_iff hrun₃).mpr hholds) hcount hlag
  rw [aborted_of_run hback habort] at hs
  exact absurd hs nofun

/-! ## Threads that ping -/

variable [DenselyOrdered τ]

/-- Between a sample and a check that read the clock more than the timeout later, a thread that
pings regularly and holds a handle all the time pings. -/
theorem exists_ping_between (hrun : Run (Step timeout) (.new start) trace s)
    (hregular : Regular timeout trace) {front mid back : List (Event τ ι)}
    {sample visit : Event τ ι} (hsplit : trace = front ++ sample :: (mid ++ visit :: back))
    (hlabel : visit.label = .visit id count now) {p : Ping ι} (hholds : Holds (front ++ [sample]) p)
    (hkept : ∀ e ∈ mid, e.label ≠ .drop p) (hlate : sample.time + timeout < now) :
    ∃ f ∈ mid, ∃ q : Ping ι, f.label = .ping q ∧ q.owner = p.owner := by
  have hsplit' : trace = (front ++ sample :: mid) ++ visit :: back := by simp [hsplit]
  obtain ⟨u, u', hrun', hvisit, _⟩ := (hsplit' ▸ hrun).at_step
  subst hsplit
  obtain ⟨_, _, hcheck, _⟩ := visit_of_step hvisit hlabel
  have hnow : now ≤ visit.time :=
    ((sound_of_run hrun').clocked hcheck).1.trans (time_of_step hvisit).1
  have htimes := times_of_run hrun
  simp only [List.pairwise_append, List.pairwise_cons] at htimes
  have hupto : ∀ f ∈ front ++ [sample], f.time ≤ sample.time := by
    intro f hf
    rcases List.mem_append.mp hf with hf | hf
    · exact htimes.2.2 f hf sample (List.mem_cons_self ..)
    · rw [List.mem_singleton.mp hf]
  obtain ⟨before, ⟨added, _⟩, after, hfront, rfl, hafter⟩ := hholds
  have hadded : added ≤ sample.time := hupto ⟨added, .add p⟩ (by simp [hfront])
  -- an interval that lies strictly between the sample and the reading of the clock
  obtain ⟨t, hsample, hcheckt⟩ := exists_between (lt_sub_iff_add_lt.mpr hlate)
  have hends : t + timeout < now := lt_sub_iff_add_lt.mp hcheckt
  have hsplit : front ++ sample :: (mid ++ visit :: back) =
      before ++ ⟨added, .add p⟩ :: ((after ++ mid) ++ visit :: back) := by
    rw [List.append_cons, hfront]
    simp
  have hundropped : ∀ e ∈ after ++ mid, e.label ≠ .drop p := by
    intro e he
    rcases List.mem_append.mp he with he | he
    · exact hafter e he
    · exact hkept e he
  obtain ⟨f, hf, q, hq, howner, hfrom, hto⟩ := hregular before added p (after ++ mid) visit back
    hsplit hundropped t (hadded.trans hsample.le) (hends.trans_le hnow)
  refine ⟨f, ?_, q, hq, howner⟩
  rw [List.append_cons] at hf
  rcases List.mem_append.mp hf with hf | hf
  · exact absurd (hfrom.trans (hupto f hf)) hsample.not_ge
  rcases List.mem_append.mp hf with hf | hf
  · exact hf
  rcases List.mem_cons.mp hf with rfl | hf
  · simp [hlabel] at hq
  · have hlater : visit.time ≤ f.time := htimes.2.1.2.2.1.1 f hf
    exact absurd (hnow.trans (hlater.trans hto)) hends.not_ge

/-- A thread that pings regularly has pinged before an overdue visit when it had reason to. -/
theorem pinged_of_regular (hrun : Run (Step timeout) (.new start) trace s)
    (hregular : Regular timeout trace) {front mid back : List (Event τ ι)}
    {sample visit : Event τ ι} (hsplit : trace = front ++ sample :: (mid ++ visit :: back))
    (hoverdue : Overdue timeout front sample mid visit count now)
    (hexcused : ¬Excused timeout front sample mid count now) :
    ∃ e ∈ mid, e.pings count = true := by
  obtain ⟨_, ⟨id, hlabel⟩, _⟩ := hoverdue
  simp only [Excused, not_or, not_forall, not_exists, not_and, not_le] at hexcused
  obtain ⟨⟨p, rfl, hholds, hkept⟩, hlate⟩ := hexcused
  obtain ⟨f, hf, q, hq, howner⟩ :=
    exists_ping_between hrun hregular hsplit hlabel hholds hkept hlate
  refine ⟨f, hf, ?_⟩
  -- both handles are held when the thread pings, so they are on the same counter
  obtain ⟨mid₁, mid₂, rfl⟩ := List.append_of_mem hf
  have hsplit' : trace = (front ++ [sample] ++ mid₁) ++ f :: (mid₂ ++ visit :: back) := by
    simp [hsplit]
  rw [hsplit'] at hrun
  obtain ⟨u, u', hrun', hstep, _⟩ := hrun.at_step
  have hp : p ∈ u.pings := (mem_pings_iff hrun').mpr
    (hholds.append fun e he => hkept e (List.mem_append_left _ he))
  have hcount := (sound_of_run hrun').count_eq hp (mem_pings_of_ping hstep hq) howner
  simp [Event.pings, hq, hcount]

/-- **False alarms.** In a run in which every thread that holds a handle pings within every timeout
and no counter goes round between two visits, the watchdog does not abort exactly when the counters
are also incremented when the threads had no reason to ping: before an overdue visit of an
entry whose last sample was taken before the handles, or later than the clock was read. -/
theorem aborted_eq_false_iff (hrun : Run (Step timeout) (.new start) trace s)
    (hregular : Regular timeout trace) (hsparse : SparsePings trace) :
    s.aborted = false ↔ PingedWhenExcused timeout trace := by
  constructor
  · intro hs front sample mid visit back count now hsplit hoverdue _
    exact pinged_of_running hrun hs hsplit hoverdue
  · intro hpinged
    refine eq_false_of_ne_true fun habort => ?_
    obtain ⟨front, sample, mid, visit, count, now, hsplit, hoverdue, hquiet⟩ :=
      exists_overdue hrun hsparse habort
    have hping : ∃ e ∈ mid, e.pings count = true := by
      by_cases hexcused : Excused timeout front sample mid count now
      · exact hpinged front sample mid visit [] count now hsplit hoverdue hexcused
      · exact pinged_of_regular hrun hregular hsplit hoverdue hexcused
    obtain ⟨e, he, hping⟩ := hping
    simp [hquiet e he] at hping

namespace Scenario

/-- A thread registers and pings, and the entries are checked later than the timeout. -/
def pinged : List (Event ℚ ℕ) :=
  [⟨0, .add ⟨0, 7, 0⟩⟩, ⟨5, .ping ⟨0, 7, 0⟩⟩, ⟨12, .checkBegin [7]⟩, ⟨12, .visit 7 0 12⟩]

end Scenario

/-- The thread is not reported. -/
theorem aborted_eq_false_iff_pinged : ∃ s : Watchdog ℚ ℕ,
    Run (Step 10) (.new 0) Scenario.pinged s ∧ s.aborted = false ∧
      (s.aborted = false ↔ PingedWhenExcused 10 Scenario.pinged) := by
  have hrun : Run (Step (10 : ℚ)) (Watchdog.new 0) _ _ :=
    Run.nil.snoc (.happens 0 rfl le_rfl (.add 7 rfl))
  have hrun := hrun.snoc (.happens 5 rfl (by norm_num) (.ping ⟨0, 7, 0⟩ (by decide)))
  have hrun := hrun.snoc (.happens 12 rfl (by norm_num) (.checkBegin [7] rfl (by decide) (by
    intro id
    by_cases hid : id = 7 <;> simp [Watchdog.add, Watchdog.ping, Watchdog.new, hid])))
  have hrun := hrun.snoc (.happens 12 rfl (by norm_num) (.visit rfl rfl))
  have hregular : Regular 10 Scenario.pinged := by
    intro front added p mid e back hsplit _ t hadded hends
    have hmem : ⟨added, .add p⟩ ∈ Scenario.pinged := by simp [hsplit]
    obtain ⟨rfl, rfl⟩ : added = 0 ∧ p = ⟨0, 7, 0⟩ := by simpa [Scenario.pinged] using hmem
    have hlast : ∀ f ∈ Scenario.pinged, f.time ≤ 12 := by
      norm_num [Scenario.pinged]
    have he : e.time ≤ 12 := hlast e (by simp [hsplit])
    refine ⟨⟨5, .ping ⟨0, 7, 0⟩⟩, by simp [Scenario.pinged], _, rfl, rfl, ?_, ?_⟩
    · dsimp only
      linarith
    · dsimp only
      linarith
  refine ⟨_, hrun, ?_, aborted_eq_false_iff hrun hregular ?_⟩
  · rfl
  · exact fun _ => sparse_of_length_lt (by decide)

/-! ## A thread id that is used again -/

namespace Scenario

/-- A thread registers and ends; a new one with the same id registers, and one second later the
entries are checked. -/
def reusedId : List (Event ℚ ℕ) :=
  [⟨0, .add ⟨0, 7, 0⟩⟩, ⟨1, .drop ⟨0, 7, 0⟩⟩, ⟨1, .ended 7⟩, ⟨10, .add ⟨1, 7, 0⟩⟩,
    ⟨11, .checkBegin [7]⟩, ⟨11, .visit 7 0 11⟩]

end Scenario

/-- The new thread is reported. -/
theorem aborted_reusedId : ∃ s : Watchdog ℚ ℕ, Run (Step 10) (.new 0) Scenario.reusedId s ∧
    Regular 10 Scenario.reusedId ∧ SparsePings Scenario.reusedId ∧ s.aborted = true := by
  have hrun : Run (Step (10 : ℚ)) (Watchdog.new 0) _ _ :=
    Run.nil.snoc (.happens 0 rfl le_rfl (.add 7 rfl))
  have hrun := hrun.snoc (.happens 1 rfl (by norm_num) (.drop ⟨0, 7, 0⟩ (by decide)))
  have hrun := hrun.snoc (.happens 1 rfl (by norm_num) (.ended 7 (by decide)))
  have hrun := hrun.snoc (.happens 10 rfl (by norm_num) (.add 7 rfl))
  have hrun := hrun.snoc (.happens 11 rfl (by norm_num) (.checkBegin [7] rfl (by decide) (by
    intro id
    by_cases hid : id = 7 <;> simp [Watchdog.add, Watchdog.drop, Watchdog.new, hid])))
  have hrun := hrun.snoc (.happens 11 rfl (by norm_num) (.visit rfl rfl))
  refine ⟨_, hrun, ?_, fun _ => sparse_of_length_lt (by decide), ?_⟩
  · -- no handle is held as long as the timeout
    intro front added p mid e back hsplit hkept t hadded hends
    exfalso
    have hlast : ∀ f ∈ Scenario.reusedId, f.time ≤ 11 := by
      norm_num [Scenario.reusedId]
    have he : e.time ≤ 11 := hlast e (by simp [hsplit])
    cases front with
    | nil =>
      injection hsplit with hfirst hrest
      cases hfirst
      cases mid with
      | nil =>
        injection hrest with he
        subst he
        dsimp only at hends
        linarith
      | cons m mid =>
        injection hrest with hm
        exact hkept m (List.mem_cons_self ..) (by rw [← hm])
    | cons first front =>
      injection hsplit with _ hrest
      have hmem : ⟨added, .add p⟩ ∈ Scenario.reusedId.tail := by
        rw [Scenario.reusedId, List.tail_cons, hrest]
        simp
      obtain ⟨rfl, _⟩ : added = 10 ∧ p = ⟨1, 7, 0⟩ := by simpa [Scenario.reusedId] using hmem
      linarith
  · norm_num [Watchdog.add, Watchdog.drop, Watchdog.new, Watchdog.visit, Watchdog.useCount]

end CppJam.App
