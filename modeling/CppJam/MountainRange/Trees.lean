import Mathlib.Data.List.Basic
import Mathlib.Algebra.Group.Nat.Defs

/-!
# Perfect binary trees and their roots

A perfect tree of height `h` has `2 ^ h` leaves in order, the older ones on the
left. Its root is computed from the leaves by a function that joins two roots of
the same height; for a hash tree that function hashes the concatenation. The
height is an index of the type, so a tree of another shape cannot be built.
-/

namespace MountainRange

variable {α : Type}

/-- A perfect binary tree of the given height. -/
inductive PerfectTree (α : Type) : ℕ → Type
  | leaf (a : α) : PerfectTree α 0
  | fork {h : ℕ} (older newer : PerfectTree α h) : PerfectTree α (h + 1)

namespace PerfectTree

/-- The leaves from left to right. -/
def leaves : {h : ℕ} → PerfectTree α h → List α
  | _, leaf a => [a]
  | _, fork older newer => older.leaves ++ newer.leaves

/-- The root, with `node` joining the roots of two subtrees. -/
def root (node : α → α → α) : {h : ℕ} → PerfectTree α h → α
  | _, leaf a => a
  | _, fork older newer => node (older.root node) (newer.root node)

/-- The pairs that `node` joins while the root is computed. -/
def joins (node : α → α → α) : {h : ℕ} → PerfectTree α h → List (α × α)
  | _, leaf _ => []
  | _, fork older newer =>
      (older.root node, newer.root node) :: (older.joins node ++ newer.joins node)

/-- The height determines the number of leaves. -/
theorem length_leaves {h : ℕ} (t : PerfectTree α h) : t.leaves.length = 2 ^ h := by
  induction t with
  | leaf a => rfl
  | fork older newer iholder ihnewer =>
    rw [leaves, List.length_append, iholder, ihnewer, pow_succ]
    omega

end PerfectTree

/-- Two different pairs, one from each list, that `node` joins to the same value. -/
def Collides (node : α → α → α) (xs ys : List (α × α)) : Prop :=
  ∃ x ∈ xs, ∃ y ∈ ys, x ≠ y ∧ node x.1 x.2 = node y.1 y.2

/-- A collision within parts of two lists is a collision within the lists. -/
theorem Collides.mono {node : α → α → α} {xs ys xs' ys' : List (α × α)}
    (h : Collides node xs ys) (hxs : xs ⊆ xs') (hys : ys ⊆ ys') : Collides node xs' ys' := by
  obtain ⟨x, hx, y, hy, hne, heq⟩ := h
  exact ⟨x, hxs hx, y, hys hy, hne, heq⟩

/-- Two perfect trees of one height with the same root are equal or their joins
collide. -/
theorem PerfectTree.eq_or_collides (node : α → α → α) {h : ℕ} (t t' : PerfectTree α h)
    (hroot : t.root node = t'.root node) :
    t = t' ∨ Collides node (t.joins node) (t'.joins node) := by
  induction t with
  | leaf a =>
    cases t' with
    | leaf b => exact .inl (congrArg leaf hroot)
  | fork older newer iholder ihnewer =>
    cases t' with
    | fork older' newer' =>
      by_cases hpair : (older.root node, newer.root node) = (older'.root node, newer'.root node)
      · obtain ⟨holder, hnewer⟩ := Prod.mk.inj hpair
        rcases iholder older' holder with rfl | hcollides
        · rcases ihnewer newer' hnewer with rfl | hcollides
          · exact .inl rfl
          · refine .inr (hcollides.mono ?_ ?_) <;>
              exact fun x hx => List.mem_cons_of_mem _ (List.mem_append_right _ hx)
        · refine .inr (hcollides.mono ?_ ?_) <;>
            exact fun x hx => List.mem_cons_of_mem _ (List.mem_append_left _ hx)
      · exact .inr ⟨_, List.mem_cons_self, _, List.mem_cons_self, hpair, hroot⟩

end MountainRange
