import CppJam.Scheduler.Process

/-!
# The invariant of the task queue

What holds between two steps of any threads: the queue is in order, the task that the
scheduler thread works on is due and not queued, and a task without predicate is gone
for good once it was extracted.
-/

namespace CppJam.Scheduler

open Containers

variable {s s' : State} {label : Label}

/-- What holds in every state. -/
structure Invariant (s : State) : Prop where
  sorted : s.tasks.Pairwise Before
  /-- Queued tasks were inserted before. -/
  stamps : ∀ t ∈ s.tasks, t.stamp < s.insertions
  /-- Queued and extracted tasks come from accepted calls. -/
  ids : ∀ t ∈ s.tasks ++ s.extracted, t.id < s.accepted
  /-- No call has two tasks in the queue. -/
  distinct : (s.tasks.map TimedTask.id).Nodup
  /-- The tasks of a call all have a predicate or all have none. -/
  same : ∀ a ∈ s.tasks ++ s.extracted, ∀ b ∈ s.tasks ++ s.extracted,
    a.id = b.id → a.predic = b.predic
  /-- The task at hand was extracted, is due, and is not in the queue. -/
  hand : ∀ t, s.hand.task? = some t →
    t ∈ s.extracted ∧ t.due ≤ s.now ∧ t.id ∉ s.tasks.map TimedTask.id
  /-- Only a task with a predicate is about to be put back. -/
  repeats : ∀ t, s.hand = .confirmed t ∨ s.hand = .finished t → t.predic = true
  /-- A task without predicate that was extracted is not in the queue. -/
  gone : ∀ e ∈ s.extracted, e.predic = false → e.id ∉ s.tasks.map TimedTask.id
  once : s.extracted.Pairwise (fun a b => a.id = b.id → a.predic = true)

/-- A new scheduler satisfies the invariant. -/
theorem invariant_initial (start : ℤ) : Invariant (State.initial start) := by
  constructor <;> simp [State.initial, Hand.task?]

/-- A later clock, another busy flag and work on the same task keep the invariant. -/
theorem Invariant.proceed (hinv : Invariant s) {busy : Bool} {hand : Hand} {now : ℤ}
    (hnow : s.now ≤ now) (hhand : ∀ t, hand.task? = some t → s.hand.task? = some t)
    (hrepeats : ∀ t, hand = .confirmed t ∨ hand = .finished t → t.predic = true) :
    Invariant { s with isBusy := busy, hand := hand, now := now } :=
  { hinv with
    hand := by
      intro t ht
      obtain ⟨hmem, hdue, hnot⟩ := hinv.hand t (hhand t ht)
      exact ⟨hmem, hdue.trans hnow, hnot⟩
    repeats := hrepeats }

/-- The calls with a task in the queue after an insertion. -/
theorem mem_ids_enqueue {t : TimedTask} {tasks : List TimedTask} {i : ℕ} :
    i ∈ (enqueue TimedTask.due t tasks).map TimedTask.id ↔
      i = t.id ∨ i ∈ tasks.map TimedTask.id := by
  rw [((enqueue_perm t tasks).map TimedTask.id).mem_iff, List.map_cons, List.mem_cons]

/-- Inserting a task that is not in the queue keeps the invariant. -/
theorem Invariant.insert (hinv : Invariant s) {t : TimedTask} {busy : Bool} {hand : Hand}
    {now : ℤ} {accepted : ℕ} (hstamp : t.stamp = s.insertions) (haccepted : s.accepted ≤ accepted)
    (hid : t.id < accepted) (hnot : t.id ∉ s.tasks.map TimedTask.id)
    (hsame : ∀ a ∈ s.tasks ++ s.extracted, a.id = t.id → a.predic = t.predic)
    (hgone : ∀ e ∈ s.extracted, e.predic = false → e.id ≠ t.id) (hnow : s.now ≤ now)
    (hhand : ∀ x, hand.task? = some x → s.hand.task? = some x ∧ x.id ≠ t.id)
    (hrepeats : ∀ x, hand = .confirmed x ∨ hand = .finished x → x.predic = true) :
    Invariant ⟨enqueue TimedTask.due t s.tasks, busy, hand, now, accepted, s.insertions + 1,
      s.extracted⟩ := by
  have hmem : ∀ {x}, x ∈ enqueue TimedTask.due t s.tasks ++ s.extracted →
      x = t ∨ x ∈ s.tasks ++ s.extracted := by
    intro x hx
    simpa [or_assoc] using hx
  refine ⟨?_, ?_, ?_, ?_, ?_, ?_, hrepeats, ?_, hinv.once⟩
  · exact pairwise_enqueue hinv.sorted fun b hb => hstamp ▸ hinv.stamps b hb
  · intro x hx
    rcases mem_enqueue.mp hx with rfl | hx
    · simp [hstamp]
    · exact Nat.lt_succ_of_lt (hinv.stamps x hx)
  · intro x hx
    rcases hmem hx with rfl | hx
    · exact hid
    · exact (hinv.ids x hx).trans_le haccepted
  · rw [((enqueue_perm t s.tasks).map TimedTask.id).nodup_iff, List.map_cons, List.nodup_cons]
    exact ⟨hnot, hinv.distinct⟩
  · intro a ha b hb hab
    rcases hmem ha with hat | ha' <;> rcases hmem hb with hbt | hb'
    · rw [hat, hbt]
    · rw [hat, hsame b hb' (by rw [← hab, hat])]
    · rw [hbt, hsame a ha' (by rw [hab, hbt])]
    · exact hinv.same a ha' b hb' hab
  · intro x hx
    obtain ⟨hx, hne⟩ := hhand x hx
    obtain ⟨hextracted, hdue, hqueued⟩ := hinv.hand x hx
    refine ⟨hextracted, hdue.trans hnow, fun hmap => ?_⟩
    exact (mem_ids_enqueue.mp hmap).elim hne hqueued
  · intro e he hpredic hmap
    exact (mem_ids_enqueue.mp hmap).elim (hgone e he hpredic) (hinv.gone e he hpredic)

/-- Queueing a task of a new call keeps the invariant. -/
theorem Invariant.accept (hinv : Invariant s) {now timeout : ℤ} {predic task : Bool}
    (haccept : s.accept now timeout predic task = some s') : Invariant s' := by
  obtain ⟨hnow, hadd⟩ := accept_eq_some haccept
  obtain rfl := add_eq_some hadd
  have hfresh : ∀ a ∈ s.tasks ++ s.extracted, a.id ≠ s.accepted :=
    fun a ha => (hinv.ids a ha).ne
  refine hinv.insert rfl (Nat.le_succ _) (Nat.lt_succ_self _) ?_ ?_ ?_ hnow ?_ hinv.repeats
  · intro hmap
    obtain ⟨a, ha, hid⟩ := List.mem_map.mp hmap
    exact hfresh a (List.mem_append_left _ ha) hid
  · exact fun a ha hid => absurd hid (hfresh a ha)
  · exact fun e he _ => hfresh e (List.mem_append_right _ he)
  · exact fun x hx => ⟨hx, hfresh x (List.mem_append_right _ (hinv.hand x hx).1)⟩

/-- Putting a finished task back keeps the invariant. -/
theorem Invariant.requeue (hinv : Invariant s) {t : TimedTask} {now : ℤ} (hnow : s.now ≤ now)
    (hhand : s.hand = .finished t)
    (hadd : State.add { t with created := now } { s with now := now, hand := .idle } = some s') :
    Invariant s' := by
  obtain rfl := add_eq_some hadd
  have htask : s.hand.task? = some t := by rw [hhand]; rfl
  obtain ⟨hextracted, _, hqueued⟩ := hinv.hand t htask
  have hpredic := hinv.repeats t (Or.inr hhand)
  have hmem : t ∈ s.tasks ++ s.extracted := List.mem_append_right _ hextracted
  refine hinv.insert rfl le_rfl (hinv.ids t hmem) hqueued ?_ ?_ hnow ?_ ?_
  · exact fun a ha hid => hinv.same a ha t hmem hid
  · intro e he hnone hid
    have hsame := hinv.same e (List.mem_append_right _ he) t hmem hid
    rw [hnone, hpredic] at hsame
    cases hsame
  · exact fun x hx => nomatch hx
  · rintro x (hx | hx) <;> cases hx

/-- Extraction keeps the invariant. -/
theorem Invariant.extract (hinv : Invariant s) {now : ℤ}
    (hextract : s.extractExpired now = some s') : Invariant s' := by
  obtain ⟨hnow, ⟨_, rfl⟩ | ⟨first, rest, htasks, hdue, rfl⟩⟩ := extractExpired_cases hextract
  · exact hinv.proceed hnow (fun t ht => ht) hinv.repeats
  · have hmem : ∀ {x}, x ∈ rest ++ (s.extracted ++ [first]) ↔ x ∈ s.tasks ++ s.extracted := by
      intro x
      simp only [htasks, List.mem_append, List.mem_cons, List.not_mem_nil, or_false]
      tauto
    have hfirst : first ∈ s.tasks := htasks ▸ List.mem_cons_self
    have hrest : ∀ {i}, i ∈ rest.map TimedTask.id → i ∈ s.tasks.map TimedTask.id := by
      intro i hi
      rw [htasks, List.map_cons]
      exact List.mem_cons_of_mem _ hi
    have hsorted := hinv.sorted
    have hdistinct := hinv.distinct
    rw [htasks, List.pairwise_cons] at hsorted
    rw [htasks, List.map_cons, List.nodup_cons] at hdistinct
    refine ⟨hsorted.2, ?_, ?_, hdistinct.2, ?_, ?_, ?_, ?_, ?_⟩
    · exact fun t ht => hinv.stamps t (htasks ▸ List.mem_cons_of_mem _ ht)
    · exact fun t ht => hinv.ids t (hmem.mp ht)
    · exact fun a ha b hb => hinv.same a (hmem.mp ha) b (hmem.mp hb)
    · rintro t ⟨⟩
      exact ⟨List.mem_append_right _ (List.mem_singleton_self _), hdue, hdistinct.1⟩
    · rintro t (ht | ht) <;> cases ht
    · intro e he hpredic
      rcases List.mem_append.mp he with he | he
      · exact fun hmap => hinv.gone e he hpredic (hrest hmap)
      · rw [List.mem_singleton.mp he]
        exact hdistinct.1
    · rw [List.pairwise_append]
      refine ⟨hinv.once, List.pairwise_singleton _ _, ?_⟩
      intro e he b hb hid
      rw [List.mem_singleton.mp hb] at hid
      by_contra hpredic
      refine hinv.gone e he (by simpa using hpredic) ?_
      exact hid ▸ List.mem_map_of_mem hfirst

/-- The calls of predicate and body keep the invariant. -/
theorem Invariant.call (hinv : Invariant s) {hand : Hand} (hmove : HandStep s.hand label hand)
    (hcall : label.IsCall) : Invariant { s with hand := hand } := by
  generalize hfrom : s.hand = place at hmove
  refine hinv.proceed le_rfl ?_ ?_
  · intro t ht
    rw [hfrom]
    cases hmove with
    | confirm | finish => exact ht
    | skip | decline | runOnce | throw => cases ht
    | addDelayed | uploadIfFree | repeats | extractNone | extractFirst | requeue =>
      exact hcall.elim
  · rintro t (rfl | rfl)
    · cases hmove with
      | confirm _ hpredic => exact hpredic
      | addDelayed | uploadIfFree | repeats => exact hcall.elim
    · cases hmove with
      | finish _ => exact hinv.repeats t (Or.inl hfrom)
      | addDelayed | uploadIfFree | repeats => exact hcall.elim

/-- Every step keeps the invariant. -/
theorem Step.invariant (hstep : Step s label s') (hinv : Invariant s) : Invariant s' := by
  obtain ⟨_, _, _, _, haccept⟩ | rfl | ⟨_, _, hextract⟩ | hcall | ⟨_, _, hhand, hnow, hadd⟩ :=
    hstep.cases
  · exact hinv.accept haccept
  · exact hinv
  · exact hinv.extract hextract
  · exact hstep.eq_of_isCall hcall ▸ hinv.call hstep.handStep hcall
  · exact hinv.requeue hnow hhand hadd

end CppJam.Scheduler
