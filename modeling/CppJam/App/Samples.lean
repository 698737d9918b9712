import CppJam.App.Entries

/-!
# Samples of a counter

A counter is sampled when `add` makes its entry and when a check visits it. The time and
the count of an entry are those of a sample, and every increment since the last visit is
unseen. An entry whose counter nobody increments is left as it is by all visits until one
of them aborts.
-/

namespace CppJam.App

open Histories Runs

variable {τ ι : Type} [DecidableEq ι] [AddCommGroup τ] [LinearOrder τ]

/-- The handle was returned by `add`, and not dropped since. -/
def Holds (trace : List (Event τ ι)) (p : Ping ι) : Prop :=
  Since (fun e => e.label = .add p) (fun e => e.label = .drop p) trace

/-- A counter is incremented fewer than `2 ^ 32` times from one visit of its entry to the next. -/
def SparsePings (trace : List (Event τ ι)) : Prop :=
  ∀ count, Sparse (Event.pings count) (Event.visits count) UInt32.size trace

/-- A sample of a counter: a check that read `clock` visits the entry, or `add` makes it at that
time. -/
def Samples (count : ℕ) (clock : τ) (e : Event τ ι) : Prop :=
  (∃ id, e.label = .visit id count clock) ∨
    ∃ p : Ping ι, e.label = .add p ∧ p.call = count ∧ p.count = count ∧ e.time = clock

variable {timeout start now clock : τ} {s t : Watchdog τ ι} {trace : List (Event τ ι)}
  {e : Event τ ι} {id : ι} {thread : Thread τ} {count : ℕ}

/-- The handles that are held. -/
theorem mem_pings_iff (hrun : Run (Step timeout) (.new start) trace s) {p : Ping ι} :
    p ∈ s.pings ↔ Holds trace p := by
  refine hrun.invariant (I := fun trace s => p ∈ s.pings ↔ Holds trace p) ?_ ?_
  · exact iff_of_false nofun not_since_nil
  · intro trace e t u _ ih hstep
    rw [mem_pings_of_step hstep, ih, Holds, Holds, since_append_singleton]

/-- An aborted program does nothing more. -/
theorem aborted_of_run (hrun : Run (Step timeout) s trace t) (hs : s.aborted = true) :
    t.aborted = true := by
  refine hrun.invariant (I := fun _ t => t.aborted = true) hs ?_
  rintro trace e t u _ ht ⟨_, hrunning, _, _⟩
  simp [hrunning] at ht

/-- The times of the events are in order. -/
theorem times_of_run (hrun : Run (Step timeout) s trace t) :
    trace.Pairwise (fun e f => e.time ≤ f.time) := by
  exact (times_ordered Watchdog.time Event.time (fun _ _ _ => time_of_step) hrun).2

/-! ## The last sample of a counter -/

/-- A counter that is back at a sample was not incremented, when it cannot have gone round. -/
theorem eq_zero_of_wrapped {a : UInt32} {k : ℕ} (hsame : a = a + UInt32.ofNat k)
    (hk : k < UInt32.size) : k = 0 := by
  have hzero : UInt32.ofNat k = 0 := by simpa using hsame.symm
  have hnat := congrArg UInt32.toNat hzero
  rwa [UInt32.toNat_ofNat_of_lt' hk] at hnat

/-- The time and the count of every entry are those of a sample; its counter was incremented since
the last visit only, by what it differs. -/
def Accounted (trace : List (Event τ ι)) (s : Watchdog τ ι) : Prop :=
  ∀ {id thread}, s.threads id = some thread →
    ∃ k, Unseen (Samples thread.count thread.lastTime) (Event.pings thread.count)
        (Event.visits thread.count) k trace ∧
      s.counts thread.count = thread.lastCount + UInt32.ofNat k

/-- The entries are accounted for in every run with sparse pings. -/
theorem accounted_of_run (hrun : Run (Step timeout) (.new start) trace s) :
    SparsePings trace → Accounted trace s := by
  refine hrun.invariant (I := fun trace s => SparsePings trace → Accounted trace s) ?_ ?_
  · exact fun _ => nofun
  · intro trace e s t hrun ih hstep hsparse id thread hthread
    have hbefore : SparsePings trace := fun count => (hsparse count).of_append
    cases entry_of_step (sound_of_run hrun) hstep hthread with
    | made _ _ hlabel _ hcall hcount _ htime hcounts =>
      exact ⟨0, unseen_of_anchor (.inr ⟨_, hlabel, hcall, hcount, htime.symm⟩), by simp [hcounts]⟩
    | noted _ _ hlabel _ _ hcounts =>
      exact ⟨0, unseen_of_anchor (.inl ⟨id, hlabel⟩), by simp [hcounts]⟩
    | kept hold hcounts hseen =>
      obtain ⟨k, hunseen, hk⟩ := ih hbefore hold
      cases hvisits : e.visits thread.count with
      | true =>
        have hzero : k = 0 :=
          eq_zero_of_wrapped ((hseen hvisits).trans hk) (hunseen.lt (hsparse _) hvisits)
        subst hzero
        have htick := Event.pings_of_visits hvisits thread.count
        exact ⟨0, hunseen.sampled htick, by rw [hcounts, hk, htick]; simp⟩
      | false =>
        refine ⟨_, hunseen.concat hvisits, ?_⟩
        rw [hcounts, hk]
        split
        · rw [UInt32.ofNat_add, UInt32.add_assoc]
          rfl
        · simp

/-! ## A counter that nobody increments -/

/-- No entry has the counter, and none will. -/
def Gone (count : ℕ) (s : Watchdog τ ι) : Prop :=
  count < s.calls ∧ ∀ id thread, s.threads id = some thread → thread.count ≠ count

/-- The entry is as it was, with its counter at the last sample, or gone. -/
def Settled (id : ι) (thread : Thread τ) (s : Watchdog τ ι) : Prop :=
  (s.threads id = some thread ∧ s.counts thread.count = thread.lastCount) ∨ Gone thread.count s

/-- A counter without an entry stays so. -/
theorem Gone.of_step (hs : Sound s) (hstep : Step timeout s e t) (hgone : Gone count s) :
    Gone count t := by
  refine ⟨hgone.1.trans_le (calls_le_of_step hstep), ?_⟩
  rintro id thread hthread rfl
  obtain ⟨hcount, _⟩ | ⟨old, hold, hcount⟩ := (entry_of_step hs hstep hthread).before
  · exact absurd hcount hgone.1.ne
  · exact hgone.2 id old hold hcount

/-- The counter of an entry that is dropped is gone. -/
theorem gone_of_dropped (hs : Sound s) (hstep : Step timeout s e t)
    (hthread : s.threads id = some thread) (hdropped : t.threads id = none) :
    Gone thread.count t := by
  refine ⟨(hs.named hthread).trans_le (calls_le_of_step hstep), ?_⟩
  intro id' thread' hthread' hsame
  obtain ⟨hcount, _⟩ | ⟨old, hold, hcount⟩ := (entry_of_step hs hstep hthread').before
  · exact absurd (hsame.symm.trans hcount) (hs.named hthread).ne
  · obtain rfl := hs.distinct hold hthread (hcount.trans hsame)
    simp [hdropped] at hthread'

/-- Without pings an entry is left as it is. -/
theorem Settled.of_step (hs : Sound s) (hstep : Step timeout s e t) (hsettled : Settled id thread s)
    (hquiet : e.pings thread.count = false) : Settled id thread t := by
  obtain ⟨hthread, hcount⟩ | hgone := hsettled
  · cases hafter : t.threads id with
    | none => exact .inr (gone_of_dropped hs hstep hthread hafter)
    | some thread' =>
      cases entry_of_step hs hstep hafter with
      | made _ hnone => simp [hthread] at hnone
      | noted _ hold _ hsame hchanged =>
        rw [hthread, Option.some_inj] at hold
        subst hold
        exact absurd (by rw [← hsame, hcount]) hchanged
      | kept hold hcount' _ =>
        rw [hthread, Option.some_inj] at hold
        subst hold
        refine .inl ⟨hafter, ?_⟩
        rw [hcount', hquiet, hcount]
        simp
  · exact .inr (hgone.of_step hs hstep)

/-- A sample settles the entry, with a time that is no later than its clock reading. -/
theorem settled_of_samples (hs : Sound s) (hstep : Step timeout s e t)
    (hsamples : Samples count clock e) :
    ∃ id thread, thread.count = count ∧ thread.lastTime ≤ clock ∧ Settled id thread t := by
  obtain ⟨id, hlabel⟩ | ⟨p, hlabel, hcall, hcount, htime⟩ := hsamples
  · obtain ⟨old, rest, hcheck, hold, hcount, _⟩ := visit_of_step hstep hlabel
    have hstamp : old.lastTime ≤ clock := (hs.clocked hcheck).2 hold
    cases hafter : t.threads id with
    | none => exact ⟨id, old, hcount, hstamp, .inr (gone_of_dropped hs hstep hold hafter)⟩
    | some thread =>
      cases entry_of_step hs hstep hafter with
      | made _ hnone => simp [hold] at hnone
      | noted _ _ hlabel' _ _ hcounts =>
        rw [hlabel] at hlabel'
        injection hlabel' with _ hcount' hclock
        exact ⟨id, thread, hcount'.symm, hclock.ge, .inl ⟨hafter, hcounts⟩⟩
      | kept hold' hcounts hseen =>
        rw [hold, Option.some_inj] at hold'
        subst hold'
        refine ⟨id, old, hcount, hstamp, .inl ⟨hafter, ?_⟩⟩
        rw [hcounts, hseen (by simp [Event.visits, hlabel, hcount])]
        simp [Event.pings, hlabel]
  · -- an entry that was there would have an older counter
    obtain ⟨time, _, _, heffect⟩ := hstep
    dsimp only at hlabel htime
    subst hlabel
    cases heffect with
    | add id hfree =>
      cases hold : s.threads id with
      | some old =>
        have hlt := hs.named hold
        simp only [Watchdog.add, hold] at hcall hcount
        omega
      | none =>
        simp only [Watchdog.add, hold] at hcall ⊢
        refine ⟨id, ⟨time, 0, s.calls⟩, hcall, htime.le, .inl ⟨?_, ?_⟩⟩
        · exact Function.update_self ..
        · exact Function.update_self ..

variable [IsOrderedAddMonoid τ]

/-- A visit of a settled entry that is held aborts when it is overdue. -/
theorem aborted_of_settled (hs : Sound s) (hstep : Step timeout s e t)
    (hsettled : Settled id thread s) (hclock : thread.lastTime ≤ clock) {id' : ι}
    (hlabel : e.label = .visit id' thread.count now) {p : Ping ι} (hp : p ∈ s.pings)
    (hcount : p.count = thread.count) (hlag : timeout < now - clock) : t.aborted = true := by
  obtain ⟨thread', rest, _, hthread', hcount', haborted⟩ := visit_of_step hstep hlabel
  obtain ⟨hthread, hcounts⟩ | hgone := hsettled
  · obtain rfl := hs.distinct hthread hthread' hcount'.symm
    rw [hthread, Option.some_inj] at hthread'
    subst hthread'
    rw [haborted, visit_aborted_iff]
    refine .inr ⟨?_, hcounts.symm, hlag.trans_le (sub_le_sub_left hclock now)⟩
    exact fun huse => useCount_eq_one.mp huse p hp hcount
  · exact absurd hcount' (hgone.2 id' thread' hthread')

end CppJam.App
