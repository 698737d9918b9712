import CppJam.Dispatcher.Upload

/-!
# Routing of submitted tasks

Every submitted task should be placed on one scheduler with its own timeout and
predicate, on the scheduler that its thread number names if there is one, and a number
that is in use should not be bound again. A task with a predicate for a number without
destination loses the predicate on its way to the pool, and after as many bindings as
there are 32-bit numbers the next number is one of the fixed handlers. The law holds
exactly for sequences of calls without these two.
-/

namespace CppJam.Dispatcher

open Checks Runs

variable {σ τ π : Type}

/-- A call before `dispose`. A submission comes with what the workers of the pool would answer
at that time. -/
inductive Call (σ τ π : Type) where
  | bind (scheduler : Option σ)
  | unbind (tid : Tid)
  | add (busy : ℕ → Bool) (tid : Tid) (task : τ)
  | addDelayed (busy : ℕ → Bool) (tid : Tid) (timeout : ℤ) (task : τ)
  | repeats (busy : ℕ → Bool) (tid : Tid) (timeout : ℤ) (task : τ) (pred : Option π)

/-- The dispatcher after a call. -/
def AsyncDispatcher.exec (k : Sizes) (d : AsyncDispatcher σ) :
    Call σ τ π → Except Abort (AsyncDispatcher σ)
  | .bind scheduler => Prod.fst <$> d.bind k scheduler
  | .unbind tid => .ok (d.unbind tid).1
  | .add busy tid task =>
    Prod.fst <$> (d.add k busy tid task : Except Abort (_ × List (Placement σ τ π)))
  | .addDelayed busy tid timeout task =>
    Prod.fst <$> (d.addDelayed k busy tid timeout task : Except Abort (_ × List (Placement σ τ π)))
  | .repeats busy tid timeout task pred => Prod.fst <$> d.repeats k busy tid timeout task pred

/-- A call is a step when it returns. -/
abbrev Step (k : Sizes) (d : AsyncDispatcher σ) (call : Call σ τ π) (d' : AsyncDispatcher σ) :
    Prop :=
  d.exec k call = .ok d'

/-- The number names a fixed handler or a bound scheduler. -/
def InUse (k : Sizes) (d : AsyncDispatcher σ) (tid : Tid) : Prop :=
  tid < k.kHandlersCount ∨ d.bound.contexts tid ≠ none

/-- A submission was placed on exactly one scheduler with its own timeout and predicate, and on
the one that its number names. -/
def Routed (k : Sizes) (d : AsyncDispatcher σ) (tid : Tid) (timeout : ℤ) (task : τ)
    (pred : Option π) (placed : List (Placement σ τ π)) : Prop :=
  ∃ destination, placed = [⟨destination, timeout, task, pred⟩] ∧
    (tid < k.kHandlersCount → destination = .handler tid) ∧
    (¬tid < k.kHandlersCount → ∀ scheduler, d.bound.contexts tid = some scheduler →
      destination = .bound scheduler)

/-- What every call must do. -/
def Call.Obeys (k : Sizes) (d : AsyncDispatcher σ) : Call σ τ π → Prop
  | .bind none => True
  | .bind (some scheduler) => ∃ d' tid, d.bind k (some scheduler) = .ok (d', some tid) ∧
      ¬InUse k d tid ∧ d'.bound.contexts tid = some scheduler
  | .unbind _ => True
  | .add busy tid task => ∃ d' placed, d.add k busy tid task = .ok (d', placed) ∧
      Routed k d tid 0 task (none : Option π) placed
  | .addDelayed busy tid timeout task => ∃ d' placed,
      d.addDelayed k busy tid timeout task = .ok (d', placed) ∧
      Routed k d tid timeout task (none : Option π) placed
  | .repeats busy tid timeout task pred => ∃ d' placed,
      d.repeats k busy tid timeout task pred = .ok (d', placed) ∧
      Routed k d tid timeout task pred placed

/-- The calls in question: a repeating task is not submitted for the pool. -/
def Call.Admissible : Call σ τ π → Prop
  | .repeats _ tid _ _ _ => tid ≠ kExecuteInPool
  | _ => True

/-- Every call of a sequence obeys. -/
def RoutingLaw (k : Sizes) (calls : List (Call σ τ π)) : Prop :=
  ∀ front call back d, calls = front ++ call :: back → Run (Step k) .new front d →
    call.Obeys k d

/-- When a call obeys: a number is left to bind and not bound, and a task with a predicate is
submitted for a number in use. -/
def Call.Suits (k : Sizes) (d : AsyncDispatcher σ) : Call σ τ π → Prop
  | .bind (some _) => k.kHandlersCount.toNat + d.bound.nextTidOffset.toNat < 2 ^ 32 ∧
      d.bound.contexts (k.kHandlersCount + d.bound.nextTidOffset) = none
  | .repeats _ tid _ _ pred => pred = none ∨ InUse k d tid
  | _ => True

variable {k : Sizes} {d : AsyncDispatcher σ}

/-- A submission is routed exactly when it has no predicate or its number is in use. -/
theorem routed_iff {busy : ℕ → Bool} {tid : Tid} {timeout : ℤ} {task : τ} {pred : Option π}
    (hdisposed : d.isDisposed = false) (hassert : ¬(tid = kExecuteInPool ∧ pred.isSome)) :
    (∃ d' placed, d.uploadToHandler k busy tid timeout task pred = .ok (d', placed) ∧
      Routed k d tid timeout task pred placed) ↔ pred = none ∨ InUse k d tid := by
  by_cases htid : tid < k.kHandlersCount
  · refine iff_of_true ⟨_, _, upload_fixed hassert hdisposed htid, _, rfl, ?_, ?_⟩
      (Or.inr (Or.inl htid))
    · exact fun _ => rfl
    · exact fun hnot => absurd htid hnot
  · cases hbound : d.bound.contexts tid with
    | some scheduler =>
      refine iff_of_true ⟨_, _, upload_bound hassert hdisposed htid hbound, _, rfl, ?_, ?_⟩
        (Or.inr (Or.inr (by simp [hbound])))
      · exact fun hlt => absurd hlt htid
      · intro _ scheduler' hbound'
        rw [hbound, Option.some.injEq] at hbound'
        rw [hbound']
    | none =>
      -- the pool is given the task without its predicate
      obtain ⟨d', destination, hpool⟩ := uploadToPool_spec (π := π) k d busy timeout task
      have hupload := upload_unbound busy timeout task hassert hdisposed htid hbound
      rw [hpool] at hupload
      have hunused : ¬InUse k d tid := by simp [InUse, htid, hbound]
      simp only [hunused, or_false]
      constructor
      · rintro ⟨_, _, hplaced, _, rfl, _⟩
        rw [hupload] at hplaced
        simp only [Except.ok.injEq, Prod.mk.injEq, List.cons.injEq, Placement.mk.injEq] at hplaced
        exact hplaced.2.1.2.2.2.symm
      · rintro rfl
        refine ⟨_, _, hupload, _, rfl, fun hlt => absurd hlt htid, ?_⟩
        intro _ scheduler hscheduler
        rw [hbound] at hscheduler
        cases hscheduler

/-- The next number to bind is not in use exactly when the sum does not wrap around and the
number is not bound. -/
theorem not_inUse_next_iff :
    ¬InUse k d (k.kHandlersCount + d.bound.nextTidOffset) ↔
      k.kHandlersCount.toNat + d.bound.nextTidOffset.toNat < 2 ^ 32 ∧
        d.bound.contexts (k.kHandlersCount + d.bound.nextTidOffset) = none := by
  have hlt := d.bound.nextTidOffset.toNat_lt
  rw [InUse, not_or, not_not, UInt32.lt_iff_toNat_lt, UInt32.toNat_add]
  refine and_congr_left fun _ => ?_
  have hcount := k.kHandlersCount.toNat_lt
  by_cases hsum : k.kHandlersCount.toNat + d.bound.nextTidOffset.toNat < 2 ^ 32
  · rw [Nat.mod_eq_of_lt hsum]
    omega
  · rw [Nat.mod_eq_sub_mod (by omega), Nat.mod_eq_of_lt (by omega)]
    omega

/-- A scheduler is bound to a number that is not in use exactly when there is one left. -/
theorem bind_obeys_iff {scheduler : σ} :
    (Call.bind (some scheduler) : Call σ τ π).Obeys k d ↔
      (Call.bind (some scheduler) : Call σ τ π).Suits k d := by
  simp only [Call.Obeys, Call.Suits, ← not_inUse_next_iff, bind_eq_ok_iff]
  constructor
  · rintro ⟨_, _, ⟨_, _, htid⟩, hunused, _⟩
    rwa [Option.some.inj htid] at hunused
  · intro hunused
    exact ⟨_, _, ⟨(not_inUse_next_iff.mp hunused).2, rfl, rfl⟩, hunused, by simp⟩

/-- A call obeys exactly when it suits. -/
theorem obeys_iff (hdisposed : d.isDisposed = false) {call : Call σ τ π}
    (hcall : call.Admissible) : call.Obeys k d ↔ call.Suits k d := by
  match call, hcall with
  | .bind none, _ => exact Iff.rfl
  | .bind (some scheduler), _ => exact bind_obeys_iff
  | .unbind tid, _ => exact Iff.rfl
  | .add busy tid task, _ => exact (routed_iff hdisposed (by simp)).trans (by simp [Call.Suits])
  | .addDelayed busy tid timeout task, _ =>
    exact (routed_iff hdisposed (by simp)).trans (by simp [Call.Suits])
  | .repeats busy tid timeout task pred, hcall =>
    exact routed_iff hdisposed fun hpool => hcall hpool.1

/-- What a call does to the dispatcher: it binds the next number, unbinds one, or leaves the
bound numbers as they are. -/
theorem step_cases {d' : AsyncDispatcher σ} {call : Call σ τ π} (hstep : Step k d call d') :
    d'.isDisposed = d.isDisposed ∧
    ((∃ scheduler, call = .bind (some scheduler) ∧ d'.bound = ⟨d.bound.nextTidOffset + 1, fun tid =>
        if tid = k.kHandlersCount + d.bound.nextTidOffset then some scheduler
        else d.bound.contexts tid⟩) ∨
      (∃ tid, call = .unbind tid ∧ d'.bound = (d.unbind tid).1.bound) ∨
      (∀ scheduler, call ≠ .bind (some scheduler)) ∧ d'.bound = d.bound) := by
  have hupload : ∀ {busy tid timeout} {task : τ} {pred : Option π},
      Prod.fst <$> d.uploadToHandler k busy tid timeout task pred = .ok d' →
      d'.isDisposed = d.isDisposed ∧ d'.bound = d.bound := by
    intro busy tid timeout task pred hmap
    obtain ⟨⟨_, placed⟩, hupload, rfl⟩ := map_eq_ok.mp hmap
    exact (upload_kept hupload).symm
  match call, hstep with
  | .bind none, hstep =>
    cases hstep
    exact ⟨rfl, Or.inr (Or.inr ⟨by simp, rfl⟩)⟩
  | .bind (some scheduler), hstep =>
    obtain ⟨⟨_, _⟩, hbind, rfl⟩ := map_eq_ok.mp hstep
    obtain ⟨_, rfl, _⟩ := bind_eq_ok_iff.mp hbind
    exact ⟨rfl, Or.inl ⟨scheduler, rfl, rfl⟩⟩
  | .unbind tid, hstep =>
    cases hstep
    exact ⟨rfl, Or.inr (Or.inl ⟨tid, rfl, rfl⟩)⟩
  | .add busy tid task, hstep =>
    obtain ⟨hdisposed, hbound⟩ := hupload hstep
    exact ⟨hdisposed, Or.inr (Or.inr ⟨by simp, hbound⟩)⟩
  | .addDelayed busy tid timeout task, hstep =>
    obtain ⟨hdisposed, hbound⟩ := hupload hstep
    exact ⟨hdisposed, Or.inr (Or.inr ⟨by simp, hbound⟩)⟩
  | .repeats busy tid timeout task pred, hstep =>
    obtain ⟨hdisposed, hbound⟩ := hupload hstep
    exact ⟨hdisposed, Or.inr (Or.inr ⟨by simp, hbound⟩)⟩

/-- No call before `dispose` disposes the dispatcher. -/
theorem not_disposed_of_run {calls : List (Call σ τ π)} (hrun : Run (Step k) .new calls d) :
    d.isDisposed = false := by
  refine hrun.invariant (I := fun _ d => d.isDisposed = false) rfl ?_
  intro calls call d d' _ hd hstep
  exact (step_cases hstep).1.trans hd

/-- **Routing.** Every call of a sequence obeys exactly when every call suits the dispatcher at
its time. -/
theorem routingLaw_iff (k : Sizes) (calls : List (Call σ τ π))
    (hcalls : ∀ call ∈ calls, call.Admissible) :
    RoutingLaw k calls ↔ ∀ front call back d, calls = front ++ call :: back →
      Run (Step k) .new front d → call.Suits k d := by
  refine forall₄_congr fun front call back d => ?_
  refine forall₂_congr fun hsplit hrun => ?_
  exact obeys_iff (not_disposed_of_run hrun) (hcalls call (by simp [hsplit]))

namespace Scenario

/-- A dispatcher with one fixed handler and three workers. -/
def sizes : Sizes := ⟨1, 3⟩

/-- Schedulers, tasks and predicates are numbers; all workers are free. A scheduler is bound and
gets a repeating task, tasks are submitted for the fixed handler, for the pool and for a
number that is bound no more. -/
def calls : List (Call ℕ ℕ ℕ) :=
  [.bind (some 8), .repeats (fun _ => false) 1 5 1 (some 4),
    .repeats (fun _ => false) 0 5 2 (some 4), .add (fun _ => false) kExecuteInPool 3, .unbind 1,
    .addDelayed (fun _ => false) 1 7 4]

end Scenario

/-- All calls of the scenario obey. -/
theorem routingLaw_calls : RoutingLaw Scenario.sizes Scenario.calls := by
  refine (routingLaw_iff _ _ ?_).mpr ?_
  · simp [Scenario.calls, Call.Admissible, kExecuteInPool]
  · refine forall_steps_cons ⟨by decide, rfl⟩ ?_
    rintro _ ⟨⟩
    refine forall_steps_cons (Or.inr (Or.inr (by decide))) ?_
    rintro _ ⟨⟩
    refine forall_steps_cons (Or.inr (Or.inl (by decide))) ?_
    rintro _ ⟨⟩
    refine forall_steps_cons trivial ?_
    rintro _ ⟨⟩
    refine forall_steps_cons trivial ?_
    rintro _ ⟨⟩
    refine forall_steps_cons trivial ?_
    simp

/-- A repeating task for a number that was never bound. -/
def Scenario.unbound : List (Call ℕ ℕ ℕ) := [.repeats (fun _ => false) 7 5 1 (some 4)]

/-- A repeating task for a number that was never bound goes to a worker, which is not told that
it repeats. -/
theorem not_routingLaw_unbound :
    (∀ call ∈ Scenario.unbound, call.Admissible) ∧ ¬RoutingLaw Scenario.sizes Scenario.unbound := by
  refine ⟨by simp [Scenario.unbound, Call.Admissible, kExecuteInPool], ?_⟩
  intro hlaw
  obtain ⟨d', placed, hplaced, destination, rfl, _⟩ := hlaw [] _ [] .new rfl .nil
  cases hplaced

/-! ## How long the numbers last -/

/-- The call binds a scheduler. -/
def Call.binds : Call σ τ π → Bool
  | .bind (some _) => true
  | _ => false

/-- The next offset counts the bindings, and only numbers that were handed out are bound. -/
structure Counted (k : Sizes) (n : ℕ) (d : AsyncDispatcher σ) : Prop where
  offset : d.bound.nextTidOffset = UInt32.ofNat n
  earlier : ∀ tid, d.bound.contexts tid ≠ none → ∃ i < n, tid = k.kHandlersCount + UInt32.ofNat i

/-- The offset counts along every run. -/
theorem counted_of_run {calls : List (Call σ τ π)} (hrun : Run (Step k) .new calls d) :
    Counted k (calls.countP Call.binds) d := by
  refine hrun.invariant (I := fun calls d => Counted k (calls.countP Call.binds) d) ?_ ?_
  · exact ⟨rfl, by simp [AsyncDispatcher.new]⟩
  · intro calls call d d' _ hd hstep
    rw [List.countP_append, List.countP_singleton]
    rcases (step_cases hstep).2 with
      ⟨scheduler, rfl, hbound⟩ | ⟨tid, rfl, hbound⟩ | ⟨hother, hbound⟩
    · refine ⟨?_, fun tid htid => ?_⟩
      · rw [hbound, hd.offset]
        exact (UInt32.ofNat_add _ _).symm
      · simp only [hbound] at htid
        split_ifs at htid with hnext
        · exact ⟨_, Nat.lt_succ_self _, by rw [hnext, hd.offset]⟩
        · obtain ⟨i, hi, rfl⟩ := hd.earlier tid htid
          exact ⟨i, Nat.lt_succ_of_lt hi, rfl⟩
    · refine ⟨hbound ▸ hd.offset, fun tid' htid' => hd.earlier tid' ?_⟩
      simp only [hbound, AsyncDispatcher.unbind] at htid'
      split_ifs at htid'
      · exact absurd rfl htid'
      · exact htid'
    · have hbinds : call.binds = false := by
        match call, hother with
        | .bind (some scheduler), hother => exact absurd rfl (hother scheduler)
        | .bind none, _ | .unbind _, _ | .add .., _ | .addDelayed .., _ | .repeats .., _ => rfl
      rw [hbinds]
      exact ⟨hbound ▸ hd.offset, hbound ▸ hd.earlier⟩

/-- As long as fewer schedulers were bound than there are numbers left by the fixed handlers, the
next one gets a number that is not in use. -/
theorem suits_of_count {calls : List (Call σ τ π)} (hrun : Run (Step k) .new calls d)
    (hcount : k.kHandlersCount.toNat + calls.countP Call.binds < 2 ^ 32) (scheduler : σ) :
    (Call.bind (some scheduler) : Call σ τ π).Suits k d := by
  obtain ⟨hoffset, hearlier⟩ := counted_of_run hrun
  have hsmall : ∀ i ≤ calls.countP Call.binds, (UInt32.ofNat i).toNat = i := by
    intro i hi
    exact UInt32.toNat_ofNat_of_lt' (show i < 2 ^ 32 by omega)
  have htoNat : d.bound.nextTidOffset.toNat = calls.countP Call.binds := by
    rw [hoffset, hsmall _ le_rfl]
  refine ⟨by omega, ?_⟩
  by_contra hbound
  obtain ⟨i, hi, heq⟩ := hearlier _ hbound
  have hsame := congrArg UInt32.toNat heq
  rw [UInt32.toNat_add, UInt32.toNat_add, htoNat, hsmall i hi.le] at hsame
  omega

end CppJam.Dispatcher
