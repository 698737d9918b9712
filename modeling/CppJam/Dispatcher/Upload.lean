import CppJam.Checks
import CppJam.Runs
import CppJam.Types
import Mathlib.Algebra.Group.Nat.Defs

/-!
# The dispatcher of the subscription engine

`async_dispatcher_impl.hpp`: tasks are submitted for a thread number. Numbers below the
number of fixed handlers and numbers that were bound to a scheduler name their
destination; a task for any other number goes to a worker of the pool that is free, or
else to a thread of its own. What a scheduler is given is recorded as a placement.
-/

namespace CppJam.Dispatcher

open Checks

/-- `Tid`. -/
abbrev Tid := UInt32

/-- `kExecuteInPool`. -/
def kExecuteInPool : Tid := 4294967295

/-- The template parameters of `AsyncDispatcher`. -/
structure Sizes where
  /-- `kHandlersCount`. -/
  kHandlersCount : UInt32
  /-- `kPoolThreadsCount`. -/
  kPoolThreadsCount : UInt32
  deriving DecidableEq

/-- The schedulers that a task can be placed on. -/
inductive Destination (σ : Type) where
  /-- `handlers_[i]`. -/
  | handler (i : Tid)
  /-- A scheduler that was bound. -/
  | bound (scheduler : σ)
  /-- `pool_[i]`. -/
  | pool (i : ℕ)
  /-- A new `ThreadHandler`. -/
  | temporary
  deriving DecidableEq

/-- What a scheduler is given: a repeating task when a predicate is set. -/
structure Placement (σ τ π : Type) where
  destination : Destination σ
  timeout : ℤ
  task : τ
  pred : Option π
  deriving DecidableEq

/-- `BoundContexts`. -/
structure BoundContexts (σ : Type) where
  /-- `next_tid_offset`. -/
  nextTidOffset : Tid
  /-- `contexts`. -/
  contexts : Tid → Option σ

/-- `AsyncDispatcher`, without the schedulers it owns. -/
structure AsyncDispatcher (σ : Type) where
  /-- `temporary_handlers_tasks_counter_`. -/
  temporaryHandlersTasksCounter : ℤ
  /-- `is_disposed_`. -/
  isDisposed : Bool
  /-- `bound_`. -/
  bound : BoundContexts σ

variable {σ τ π : Type}

/-- A new dispatcher. -/
def AsyncDispatcher.new : AsyncDispatcher σ := ⟨0, false, ⟨0, fun _ => none⟩⟩

/-- The end of `uploadToHandler`, for a task without a destination of its own. The workers of
the pool are asked in turn, and `busy` says which of them give the task back. Workers and
new threads are not given a predicate. -/
def AsyncDispatcher.uploadToPool (k : Sizes) (d : AsyncDispatcher σ) (busy : ℕ → Bool)
    (timeout : ℤ) (task : τ) : AsyncDispatcher σ × List (Placement σ τ π) :=
  match (List.range k.kPoolThreadsCount.toNat).find? (fun i => !busy i) with
  | some i => (d, [⟨.pool i, timeout, task, none⟩])
  | none =>
    ({ d with temporaryHandlersTasksCounter := d.temporaryHandlersTasksCounter + 1 },
      [⟨.temporary, timeout, task, none⟩])

/-- `uploadToHandler`. -/
def AsyncDispatcher.uploadToHandler (k : Sizes) (d : AsyncDispatcher σ) (busy : ℕ → Bool)
    (tid : Tid) (timeout : ℤ) (task : τ) (pred : Option π) :
    Except Abort (AsyncDispatcher σ × List (Placement σ τ π)) := do
  failIf (tid = kExecuteInPool ∧ pred.isSome) .assertion
  if d.isDisposed then return (d, [])
  else if tid < k.kHandlersCount then return (d, [⟨.handler tid, timeout, task, pred⟩])
  else match d.bound.contexts tid with
    | some scheduler => return (d, [⟨.bound scheduler, timeout, task, pred⟩])
    | none => return d.uploadToPool k busy timeout task

/-- `add`. -/
def AsyncDispatcher.add (k : Sizes) (d : AsyncDispatcher σ) (busy : ℕ → Bool) (tid : Tid)
    (task : τ) : Except Abort (AsyncDispatcher σ × List (Placement σ τ π)) :=
  d.uploadToHandler k busy tid 0 task none

/-- `addDelayed`. -/
def AsyncDispatcher.addDelayed (k : Sizes) (d : AsyncDispatcher σ) (busy : ℕ → Bool) (tid : Tid)
    (timeout : ℤ) (task : τ) : Except Abort (AsyncDispatcher σ × List (Placement σ τ π)) :=
  d.uploadToHandler k busy tid timeout task none

/-- `repeat`. -/
def AsyncDispatcher.repeats (k : Sizes) (d : AsyncDispatcher σ) (busy : ℕ → Bool) (tid : Tid)
    (timeout : ℤ) (task : τ) (pred : Option π) :
    Except Abort (AsyncDispatcher σ × List (Placement σ τ π)) :=
  d.uploadToHandler k busy tid timeout task pred

/-- `bind`. The sum of the two 32-bit numbers wraps around. -/
def AsyncDispatcher.bind (k : Sizes) (d : AsyncDispatcher σ) (scheduler : Option σ) :
    Except Abort (AsyncDispatcher σ × Option Tid) :=
  match scheduler with
  | none => .ok (d, none)
  | some scheduler => do
      let executionTid := k.kHandlersCount + d.bound.nextTidOffset
      failIf (d.bound.contexts executionTid).isSome .assertion
      return ({ d with bound := ⟨d.bound.nextTidOffset + 1,
        fun tid => if tid = executionTid then some scheduler else d.bound.contexts tid⟩ },
        some executionTid)

/-- `unbind`. -/
def AsyncDispatcher.unbind (d : AsyncDispatcher σ) (tid : Tid) : AsyncDispatcher σ × Bool :=
  ({ d with bound := ⟨d.bound.nextTidOffset,
      fun tid' => if tid' = tid then none else d.bound.contexts tid'⟩ },
    (d.bound.contexts tid).isSome)

/-! ## Where a task goes -/

variable {k : Sizes} {d : AsyncDispatcher σ} {busy : ℕ → Bool} {tid : Tid} {timeout : ℤ} {task : τ}
  {pred : Option π} {scheduler : σ}

/-- A task without a destination of its own is placed once, without a predicate. -/
theorem uploadToPool_spec (k : Sizes) (d : AsyncDispatcher σ) (busy : ℕ → Bool) (timeout : ℤ)
    (task : τ) :
    ∃ d' destination, d.uploadToPool k busy timeout task =
      (d', [(⟨destination, timeout, task, none⟩ : Placement σ τ π)]) := by
  unfold AsyncDispatcher.uploadToPool
  cases (List.range k.kPoolThreadsCount.toNat).find? (fun i => !busy i) with
  | some i => exact ⟨d, .pool i, rfl⟩
  | none => exact ⟨_, .temporary, rfl⟩

/-- A task for a fixed handler goes there. -/
theorem upload_fixed (hassert : ¬(tid = kExecuteInPool ∧ pred.isSome))
    (hdisposed : d.isDisposed = false) (htid : tid < k.kHandlersCount) :
    d.uploadToHandler k busy tid timeout task pred =
      .ok (d, [⟨.handler tid, timeout, task, pred⟩]) := by
  simp [AsyncDispatcher.uploadToHandler, failIf, hassert, hdisposed, htid]

/-- A task for a bound number goes to its scheduler. -/
theorem upload_bound (hassert : ¬(tid = kExecuteInPool ∧ pred.isSome))
    (hdisposed : d.isDisposed = false) (htid : ¬tid < k.kHandlersCount)
    (hbound : d.bound.contexts tid = some scheduler) :
    d.uploadToHandler k busy tid timeout task pred =
      .ok (d, [⟨.bound scheduler, timeout, task, pred⟩]) := by
  simp [AsyncDispatcher.uploadToHandler, failIf, hassert, hdisposed, htid, hbound]

/-- A task for any other number goes to the pool. -/
theorem upload_unbound (busy : ℕ → Bool) (timeout : ℤ) (task : τ)
    (hassert : ¬(tid = kExecuteInPool ∧ pred.isSome))
    (hdisposed : d.isDisposed = false) (htid : ¬tid < k.kHandlersCount)
    (hbound : d.bound.contexts tid = none) :
    d.uploadToHandler k busy tid timeout task pred = .ok (d.uploadToPool k busy timeout task) := by
  simp [AsyncDispatcher.uploadToHandler, failIf, hassert, hdisposed, htid, hbound]

/-- A submission starts no thread and leaves the dispatcher as it is, or starts and counts one. -/
theorem upload_cases {d' : AsyncDispatcher σ} {placed : List (Placement σ τ π)}
    (hupload : d.uploadToHandler k busy tid timeout task pred = .ok (d', placed)) :
    (d' = d ∧ ∀ p ∈ placed, p.destination ≠ .temporary) ∨
    (d' = { d with temporaryHandlersTasksCounter := d.temporaryHandlersTasksCounter + 1 } ∧
      placed = [⟨.temporary, timeout, task, none⟩]) := by
  simp only [AsyncDispatcher.uploadToHandler, bind_eq_ok] at hupload
  obtain ⟨_, _, hrest⟩ := hupload
  split_ifs at hrest
  · cases hrest
    exact .inl ⟨rfl, by simp⟩
  · cases hrest
    exact .inl ⟨rfl, by simp⟩
  · cases hbound : d.bound.contexts tid with
    | some scheduler =>
      rw [hbound] at hrest
      cases hrest
      exact .inl ⟨rfl, by simp⟩
    | none =>
      simp only [hbound, AsyncDispatcher.uploadToPool, pure_eq_ok] at hrest
      cases hfree : (List.range k.kPoolThreadsCount.toNat).find? (fun i => !busy i) with
      | some i =>
        rw [hfree] at hrest
        cases hrest
        exact .inl ⟨rfl, by simp⟩
      | none =>
        rw [hfree] at hrest
        cases hrest
        exact .inr ⟨rfl, rfl⟩

/-- A submission leaves the bound numbers as they are, and disposes nothing. -/
theorem upload_kept {d' : AsyncDispatcher σ} {placed : List (Placement σ τ π)}
    (hupload : d.uploadToHandler k busy tid timeout task pred = .ok (d', placed)) :
    d'.bound = d.bound ∧ d'.isDisposed = d.isDisposed := by
  obtain ⟨rfl, _⟩ | ⟨rfl, _⟩ := upload_cases hupload
  · exact ⟨rfl, rfl⟩
  · exact ⟨rfl, rfl⟩

/-- A scheduler is bound to the next number, if this number is not bound. -/
theorem bind_eq_ok_iff {d' : AsyncDispatcher σ} {result : Option Tid} :
    d.bind k (some scheduler) = .ok (d', result) ↔
      d.bound.contexts (k.kHandlersCount + d.bound.nextTidOffset) = none ∧
      d' = { d with bound := ⟨d.bound.nextTidOffset + 1, fun tid =>
        if tid = k.kHandlersCount + d.bound.nextTidOffset then some scheduler
        else d.bound.contexts tid⟩ } ∧
      result = some (k.kHandlersCount + d.bound.nextTidOffset) := by
  simp only [AsyncDispatcher.bind, bind_eq_ok, failIf_eq_ok, pure_eq_ok, Prod.mk.injEq,
    Option.not_isSome_iff_eq_none]
  constructor
  · rintro ⟨_, hnone, rfl, rfl⟩
    exact ⟨hnone, rfl, rfl⟩
  · rintro ⟨hnone, rfl, rfl⟩
    exact ⟨(), hnone, rfl, rfl⟩

end CppJam.Dispatcher
