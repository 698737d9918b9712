import CppJam.Containers.Selections
import Mathlib.Data.List.Induction

/-!
# Registration of collectables

`handler_impl.cpp`: the handler keeps weak pointers to the collectables that were
registered, and a collection visits those that are still alive. A removal keeps what its
predicate says, and its predicate holds of the pointers to be removed, so it drops all
others instead. What is visited is right exactly when after every registration of a
collectable that is still alive nothing was removed at all, or both this collectable and
another one.
-/

namespace CppJam.Metrics

open Containers

/-- A weak pointer, by the object that it refers to; an empty one refers to none. -/
abbrev WeakPtr (ω : Type) := Option ω

/-- `retain_if` on a vector: the elements of which the predicate holds stay. -/
def retainIf {α : Type} (v : List α) (predicate : α → Bool) : List α := v.filter predicate

/-- `PrometheusHandler`, and which objects were destroyed. -/
structure PrometheusHandler (ω : Type) where
  /-- `collectables_`. -/
  collectables : List (WeakPtr ω)
  /-- The object was destroyed. -/
  gone : ω → Bool

/-- What happens to the handler and the collectables. -/
inductive Op (ω : Type) where
  | register (collectable : WeakPtr ω)
  | remove (collectable : WeakPtr ω)
  /-- The object is destroyed. -/
  | expire (object : ω)
  deriving DecidableEq

/-- The pointer that an operation registers. -/
def Op.registered {ω : Type} : Op ω → Option (WeakPtr ω)
  | .register collectable => some collectable
  | _ => none

variable {ω : Type} [DecidableEq ω]

namespace PrometheusHandler

/-- `expired`. -/
def expired (s : PrometheusHandler ω) : WeakPtr ω → Bool
  | none => true
  | some object => s.gone object

/-- `cleanupStalePointers`. -/
def cleanupStalePointers (s : PrometheusHandler ω) (collectables : List (WeakPtr ω)) :
    List (WeakPtr ω) :=
  retainIf collectables (fun candidate => !s.expired candidate)

/-- `registerCollectable`. -/
def registerCollectable (s : PrometheusHandler ω) (collectable : WeakPtr ω) :
    PrometheusHandler ω :=
  { s with collectables := s.cleanupStalePointers s.collectables ++ [collectable] }

/-- `removeCollectable`. Neither of two pointers comes before the other by owner when they refer
to the same object. -/
def removeCollectable (s : PrometheusHandler ω) (collectable : WeakPtr ω) :
    PrometheusHandler ω :=
  { s with collectables := retainIf s.collectables (fun candidate => candidate = collectable) }

/-- `CollectMetrics`: the collectables that are visited, in order. -/
def collectMetrics (s : PrometheusHandler ω) : List (WeakPtr ω) :=
  s.collectables.filter (fun collectable => !s.expired collectable)

/-- One operation. -/
def exec (s : PrometheusHandler ω) : Op ω → PrometheusHandler ω
  | .register collectable => s.registerCollectable collectable
  | .remove collectable => s.removeCollectable collectable
  | .expire object => { s with gone := Function.update s.gone object true }

/-- The handler after a sequence of operations, from a new one. -/
def after (ops : List (Op ω)) : PrometheusHandler ω := ops.foldl exec ⟨[], fun _ => false⟩

end PrometheusHandler

/-- The pointer refers to an object that is alive after the operations. -/
def live (ops : List (Op ω)) (p : WeakPtr ω) : Bool := !(PrometheusHandler.after ops).expired p

/-- The pointers that should be visited: registered, alive, and not removed afterwards. -/
def effective (ops : List (Op ω)) : List (WeakPtr ω) :=
  selected Op.registered (fun p rest => live ops p && rest.all (fun op => op ≠ .remove p)) ops

/-- A collection visits the effective registrations, in order. -/
def CollectionLaw (ops : List (Op ω)) : Prop :=
  (PrometheusHandler.after ops).collectMetrics = effective ops

instance (ops : List (Op ω)) : Decidable (CollectionLaw ops) :=
  inferInstanceAs (Decidable (_ = _))

/-- After every registration of a collectable that is alive, nothing was removed, or both this
collectable and another one. -/
def RemovalsCancel (ops : List (Op ω)) : Prop :=
  ∀ front p rest, ops = front ++ .register p :: rest → live ops p = true →
    (∀ q, .remove q ∉ rest) ∨ (.remove p ∈ rest ∧ ∃ q, q ≠ p ∧ .remove q ∈ rest)

/-! ## What is visited -/

variable {ops rest : List (Op ω)} {p : WeakPtr ω}

/-- One more operation. -/
theorem after_append_singleton (ops : List (Op ω)) (op : Op ω) :
    PrometheusHandler.after (ops ++ [op]) = (PrometheusHandler.after ops).exec op := by
  simp [PrometheusHandler.after]

/-- What is alive after one more operation was alive before. -/
theorem live_of_live_append {op : Op ω} (hp : live (ops ++ [op]) p = true) :
    live ops p = true := by
  cases p with
  | none => exact hp
  | some object =>
    rw [live, after_append_singleton] at hp
    cases op with
    | register collectable => exact hp
    | remove collectable => exact hp
    | expire object' =>
      by_cases hsame : object = object'
      · simp [PrometheusHandler.exec, PrometheusHandler.expired, hsame] at hp
      · simpa [PrometheusHandler.exec, PrometheusHandler.expired, hsame, live] using hp

/-- Nothing but the pointer is removed. -/
def removesOnly (p : WeakPtr ω) (rest : List (Op ω)) : Bool :=
  rest.all fun op => match op with
    | .remove q => q = p
    | _ => true

/-- Of the pointers that are alive at some later time, as `L` says, the handler keeps those after
which nothing else was removed. -/
theorem filter_collectables (L : WeakPtr ω → Bool) (ops : List (Op ω))
    (hL : ∀ p, L p = true → live ops p = true) :
    (PrometheusHandler.after ops).collectables.filter L =
      selected Op.registered (fun p rest => L p && removesOnly p rest) ops := by
  induction ops using List.reverseRecOn with
  | nil => rfl
  | append_singleton ops op ih =>
    have hbefore : ∀ p, L p = true → live ops p = true :=
      fun p hp => live_of_live_append (hL p hp)
    have hstep : ∀ p rest, removesOnly p (rest ++ [op]) =
        (removesOnly p rest && removesOnly p [op]) := fun p rest => List.all_append
    rw [after_append_singleton, selected_append_singleton]
    simp only [hstep, ← Bool.and_assoc]
    rw [selected_and (C := fun p rest => L p && removesOnly p rest), ← ih hbefore]
    cases op with
    | register c =>
      -- what is dropped as stale is not alive later either
      have hclean : ((PrometheusHandler.after ops).cleanupStalePointers
          (PrometheusHandler.after ops).collectables).filter L =
          (PrometheusHandler.after ops).collectables.filter L := by
        rw [PrometheusHandler.cleanupStalePointers, retainIf, List.filter_filter]
        refine List.filter_congr fun p _ => ?_
        cases hp : L p with
        | false => rfl
        | true => exact hbefore p hp
      have hall : ∀ l : List (WeakPtr ω), l.filter (fun p => removesOnly p [.register c]) = l :=
        fun l => List.filter_eq_self.mpr fun _ _ => rfl
      rw [PrometheusHandler.exec, PrometheusHandler.registerCollectable, List.filter_append, hclean,
        hall]
      simp [selected, Op.registered, removesOnly]
    | remove c =>
      rw [PrometheusHandler.exec, PrometheusHandler.removeCollectable, retainIf, List.filter_filter,
        List.filter_filter]
      simp [selected, Op.registered, removesOnly, eq_comm, Bool.and_comm]
    | expire object =>
      simp [PrometheusHandler.exec, selected, Op.registered, removesOnly]

/-- A collection visits the registrations after which nothing but the pointer was removed. -/
theorem collectMetrics_eq (ops : List (Op ω)) :
    (PrometheusHandler.after ops).collectMetrics =
      selected Op.registered (fun p rest => live ops p && removesOnly p rest) ops :=
  filter_collectables (live ops) ops fun _ hp => hp

/-! ## When it is right -/

/-- Nothing but the pointer is removed, in terms of the operations. -/
theorem removesOnly_iff : removesOnly p rest = true ↔ ∀ q, .remove q ∈ rest → q = p := by
  rw [removesOnly, List.all_eq_true]
  constructor
  · intro hall q hq
    simpa using hall _ hq
  · intro hall op hop
    cases op with
    | register q => rfl
    | remove q => simpa using hall q hop
    | expire object => rfl

/-- The pointer is not removed, in terms of the operations. -/
theorem not_removed_iff : rest.all (fun op => op ≠ .remove p) = true ↔ .remove p ∉ rest := by
  rw [List.all_eq_true]
  constructor
  · intro hall hp
    simpa using hall _ hp
  · intro hp op hop
    rw [decide_eq_true_iff]
    rintro rfl
    exact hp hop

/-- The handler and the law decide alike about a pointer when nothing was removed, or both the
pointer and another one. -/
theorem removesOnly_eq_iff :
    removesOnly p rest = rest.all (fun op => op ≠ .remove p) ↔
      (∀ q, .remove q ∉ rest) ∨ (.remove p ∈ rest ∧ ∃ q, q ≠ p ∧ .remove q ∈ rest) := by
  rw [Bool.eq_iff_iff, removesOnly_iff, not_removed_iff]
  by_cases hp : .remove p ∈ rest
  · have hsome : ¬∀ q, .remove q ∉ rest := fun hnone => hnone p hp
    simp only [hp, hsome, not_true, iff_false, false_or, true_and, not_forall]
    exact exists_congr fun q => ⟨fun ⟨hq, hne⟩ => ⟨hne, hq⟩, fun ⟨hne, hq⟩ => ⟨hq, hne⟩⟩
  · simp only [hp, not_false_eq_true, iff_true, false_and, or_false]
    constructor
    · intro hall q hq
      exact hp (hall q hq ▸ hq)
    · exact fun hnone q hq => absurd hq (hnone q)

/-- **Registration of collectables.** A collection visits the effective registrations exactly when
after every registration of a collectable that is alive nothing was removed, or both this
collectable and another one. -/
theorem collectionLaw_iff (ops : List (Op ω)) : CollectionLaw ops ↔ RemovalsCancel ops := by
  have hdecide : ∀ p rest, (live ops p && removesOnly p rest) =
        (live ops p && rest.all (fun op => op ≠ .remove p)) ↔
      (live ops p = true →
        (∀ q, .remove q ∉ rest) ∨ (.remove p ∈ rest ∧ ∃ q, q ≠ p ∧ .remove q ∈ rest)) := by
    intro p rest
    cases live ops p with
    | false => simp
    | true => simpa only [Bool.true_and, forall_const] using removesOnly_eq_iff
  have hkept : Inherited Op.registered fun p rest => live ops p && removesOnly p rest :=
    inherited_of_all
  rw [CollectionLaw, collectMetrics_eq, effective, selected_eq_iff hkept inherited_of_all]
  constructor
  · intro hsame front p rest hsplit
    exact (hdecide p rest).mp (hsame front (.register p) rest p hsplit rfl)
  · intro hcancel front op rest p hsplit hop
    cases op with
    | register q =>
      cases hop
      exact (hdecide p rest).mpr (hcancel front p rest hsplit)
    | remove q => cases hop
    | expire object => cases hop

/-- Two collectables are registered and the first one is removed. -/
def Scenario.removeFirst : List (Op ℕ) :=
  [.register (some 1), .register (some 2), .remove (some 1)]

/-- The removed collectable is still visited, and the other one is not. -/
theorem not_collectionLaw_removeFirst :
    (PrometheusHandler.after Scenario.removeFirst).collectMetrics = [some 1] ∧
      effective Scenario.removeFirst = [some 2] ∧ ¬CollectionLaw Scenario.removeFirst := by
  decide

end CppJam.Metrics
