import CppJam.Scheduler.Ordering

/-!
# Tasks without timeout

The subscription engines notify without timeout. A scheduler that is given such tasks only, and
none that repeats, is a queue: along every interleaving the extracted tasks and after them the
queued ones are all accepted calls, in the order in which they came.
-/

namespace CppJam.Scheduler

open Containers Runs

variable {start : ℤ} {s s' : State} {label : Label} {trace : List Label}

/-- The step queues nothing, or a task without timeout and predicate. -/
def Label.Untimed : Label → Prop
  | .addDelayed _ timeout _ => timeout = 0
  | .uploadIfFree _ timeout _ => timeout = 0
  | .repeats _ timeout _ pred => timeout = 0 ∧ pred = false
  | .extract _ | .skip | .ask _ | .body _ | .requeue _ => True

/-- The tasks are the accepted calls in order, none repeats, and all are due. -/
structure InTurn (s : State) : Prop where
  ids : (s.extracted ++ s.tasks).map TimedTask.id = List.range s.accepted
  plain : ∀ t ∈ s.extracted ++ s.tasks, t.predic = false
  due : ∀ t ∈ s.tasks, t.due ≤ s.now

/-- A new scheduler has its tasks in turn. -/
theorem inTurn_initial (start : ℤ) : InTurn (State.initial start) := by
  constructor <;> simp [State.initial]

/-- The tasks have the numbers of accepted calls. -/
theorem InTurn.id_lt (hturn : InTurn s) {t : TimedTask} (ht : t ∈ s.extracted ++ s.tasks) :
    t.id < s.accepted := by
  have hid := List.mem_map_of_mem (f := TimedTask.id) ht
  rw [hturn.ids] at hid
  exact List.mem_range.mp hid

/-- A new call without timeout is the last. -/
theorem InTurn.accept_eq (hturn : InTurn s) {now : ℤ} {task : Bool}
    (haccept : s.accept now 0 false task = some s') :
    s.now ≤ now ∧ s' = { s with
      tasks := s.tasks ++ [⟨s.accepted, s.insertions, now, 0, false, task⟩]
      isBusy := true
      now := now
      accepted := s.accepted + 1
      insertions := s.insertions + 1 } := by
  obtain ⟨hnow, hadd⟩ := accept_eq_some haccept
  refine ⟨hnow, (add_eq_some hadd).trans ?_⟩
  have hlast : ∀ b ∈ s.tasks,
      b.due ≤ (⟨s.accepted, s.insertions, now, 0, false, task⟩ : TimedTask).due := by
    intro b hb
    simpa [TimedTask.due] using (hturn.due b hb).trans hnow
  simp only [enqueue_of_forall_le hlast, BEq.rfl, Bool.or_true]

/-- A new call without timeout keeps the turn. -/
theorem InTurn.accept (hturn : InTurn s) {now : ℤ} {task : Bool}
    (haccept : s.accept now 0 false task = some s') : InTurn s' := by
  obtain ⟨hnow, rfl⟩ := hturn.accept_eq haccept
  refine ⟨?_, ?_, ?_⟩
  · rw [← List.append_assoc, List.map_append, hturn.ids, List.range_succ]
    rfl
  · intro t ht
    rw [← List.append_assoc] at ht
    rcases List.mem_append.mp ht with ht | ht
    · exact hturn.plain t ht
    · rw [List.mem_singleton.mp ht]
  · intro t ht
    rcases List.mem_append.mp ht with ht | ht
    · exact (hturn.due t ht).trans hnow
    · rw [List.mem_singleton.mp ht]
      simp [TimedTask.due]

/-- Extraction takes the first task of the turn. -/
theorem InTurn.extract (hturn : InTurn s) {now : ℤ} (hextract : s.extractExpired now = some s') :
    InTurn s' := by
  obtain ⟨hnow, ⟨_, rfl⟩ | ⟨first, rest, htasks, _, rfl⟩⟩ := extractExpired_cases hextract
  · exact ⟨hturn.ids, hturn.plain, fun t ht => (hturn.due t ht).trans hnow⟩
  · have hall : s.extracted ++ [first] ++ rest = s.extracted ++ s.tasks := by
      rw [htasks, List.append_assoc, List.singleton_append]
    refine ⟨?_, ?_, fun t ht => ?_⟩
    · exact hall ▸ hturn.ids
    · exact hall ▸ hturn.plain
    · exact (hturn.due t (htasks ▸ List.mem_cons_of_mem first ht)).trans hnow

/-- Steps without timeouts keep the tasks in turn. -/
theorem Step.inTurn (hstep : Step s label s') (hinv : Invariant s) (huntimed : label.Untimed)
    (hturn : InTurn s) : InTurn s' := by
  cases label with
  | addDelayed now timeout task =>
    obtain rfl : timeout = 0 := huntimed
    exact hturn.accept hstep
  | uploadIfFree now timeout task =>
    obtain rfl : timeout = 0 := huntimed
    obtain rfl | haccept := hstep.of_uploadIfFree
    · exact hturn
    · exact hturn.accept haccept
  | repeats now timeout task pred =>
    obtain ⟨rfl, rfl⟩ : timeout = 0 ∧ pred = false := huntimed
    exact hturn.accept hstep
  | extract now => exact hturn.extract hstep.of_extract.2
  | skip | ask | body =>
    rw [hstep.eq_of_isCall trivial]
    exact ⟨hturn.ids, hturn.plain, hturn.due⟩
  | requeue now =>
    -- The task at hand would have a predicate, but no extracted task has one.
    obtain ⟨t, hhand, _, _⟩ := hstep.of_requeue
    have hextracted := (hinv.hand t (by rw [hhand]; rfl)).1
    have hplain := hturn.plain t (List.mem_append_left _ hextracted)
    exact absurd (hinv.repeats t (Or.inr hhand)) (by simp [hplain])

/-- When no task has a timeout or a predicate, the extracted tasks and after them the queued ones
are, along every interleaving, all accepted calls in the order in which they came. -/
theorem inTurn_of_untimed (hrun : Run Step (State.initial start) trace s)
    (huntimed : ∀ label ∈ trace, label.Untimed) :
    s.extracted.map TimedTask.id ++ s.tasks.map TimedTask.id = List.range s.accepted := by
  have hturn : Invariant s ∧ ((∀ label ∈ trace, label.Untimed) → InTurn s) := by
    refine hrun.invariant (I := fun trace s =>
      Invariant s ∧ ((∀ label ∈ trace, label.Untimed) → InTurn s))
      ⟨invariant_initial start, fun _ => inTurn_initial start⟩ ?_
    rintro trace label t u _ ⟨hinv, hturn⟩ hstep
    refine ⟨hstep.invariant hinv, fun hall => ?_⟩
    obtain ⟨hfront, hlast⟩ := List.forall_mem_append.mp hall
    exact hstep.inTurn hinv (hlast label (List.mem_singleton_self label)) (hturn hfront)
  rw [← List.map_append]
  exact (hturn.2 huntimed).ids

/-- The first of two tasks is extracted. -/
theorem inTurn_of_untimed_two : ∃ s,
    Run Step (State.initial 0) [.addDelayed 3 0 true, .addDelayed 3 0 true, .extract 5] s ∧
      s.extracted.map TimedTask.id = [0] ∧
      s.extracted.map TimedTask.id ++ s.tasks.map TimedTask.id = List.range s.accepted := by
  have hrun : Run Step (State.initial 0)
      [.addDelayed 3 0 true, .addDelayed 3 0 true, .extract 5] _ := Run.of_foldlM_some rfl
  refine ⟨_, hrun, rfl, inTurn_of_untimed hrun fun label hlabel => ?_⟩
  simp only [List.mem_cons, List.not_mem_nil, or_false] at hlabel
  rcases hlabel with rfl | rfl | rfl
  · rfl
  · rfl
  · trivial

end CppJam.Scheduler
