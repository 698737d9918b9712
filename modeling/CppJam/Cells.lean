import Mathlib.Data.List.FinRange
import Mathlib.Data.List.ProdSigma

/-!
# Loops of independent writes

A loop that visits every cell of a store at most once, and gives it a new value that depends on
its old value only, changes the cells independently: the order of the visits does not matter.
-/

namespace Cells

variable {ι κ σ τ ν : Type}

/-- Nested loops are one loop over pairs. -/
theorem foldl_foldl_eq_product (l : List ι) (m : List τ) (body : σ → ι × τ → σ) (s : σ) :
    l.foldl (fun s i => m.foldl (fun s j => body s (i, j)) s) s = (l ×ˢ m).foldl body s := by
  induction l generalizing s with
  | nil => rfl
  | cons i l ih =>
    rw [List.foldl_cons, ih, List.product_cons, List.foldl_append, List.foldl_map]

/-- A store with cells in `κ` that hold values in `ν`. -/
structure Store (σ κ ν : Type) [DecidableEq κ] where
  /-- The value of a cell. -/
  get : σ → κ → ν
  /-- Write a cell. -/
  set : σ → κ → ν → σ
  /-- A write changes one cell. -/
  get_set : ∀ s k v k', get (set s k v) k' = if k = k' then v else get s k'

namespace Store

variable [DecidableEq κ] (store : Store σ κ ν)

/-- A loop that changes the cell of every index. -/
def modifyAll (l : List ι) (key : ι → κ) (f : ι → ν → ν) (s : σ) : σ :=
  l.foldl (fun s i => store.set s (key i) (f i (store.get s (key i)))) s

/-- Cells that are not visited keep their values. -/
theorem get_modifyAll_of_not_mem {l : List ι} {key : ι → κ} (f : ι → ν → ν) {k : κ}
    (hk : k ∉ l.map key) (s : σ) : store.get (store.modifyAll l key f s) k = store.get s k := by
  unfold modifyAll
  induction l generalizing s with
  | nil => rfl
  | cons i l ih =>
    rw [List.map_cons, List.mem_cons, not_or] at hk
    rw [List.foldl_cons, ih hk.2, store.get_set, if_neg (Ne.symm hk.1)]

/-- A cell that is visited once has the value that its visit gives it. -/
theorem get_modifyAll {l : List ι} {key : ι → κ} (hl : (l.map key).Nodup) (f : ι → ν → ν) {i : ι}
    (hi : i ∈ l) (s : σ) :
    store.get (store.modifyAll l key f s) (key i) = f i (store.get s (key i)) := by
  induction l generalizing s with
  | nil => exact absurd hi List.not_mem_nil
  | cons j l ih =>
    obtain ⟨hj, hl⟩ := List.nodup_cons.mp hl
    have hstep : store.modifyAll (j :: l) key f s =
        store.modifyAll l key f (store.set s (key j) (f j (store.get s (key j)))) := rfl
    rw [hstep]
    by_cases hij : i = j
    · subst hij
      rw [store.get_modifyAll_of_not_mem f hj, store.get_set, if_pos rfl]
    · have hi : i ∈ l := (List.mem_cons.mp hi).resolve_left hij
      have hne : key j ≠ key i := fun heq => hj (heq ▸ List.mem_map_of_mem hi)
      rw [ih hl hi, store.get_set, if_neg hne]

end Store

end Cells
