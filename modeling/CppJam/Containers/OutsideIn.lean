import Mathlib.Data.Fintype.EquivFin
import Mathlib.Data.List.FinRange

/-!
# Outside-in order

The outside-in order of a sequence takes its elements alternately from the front and
from the back: the first, the last, the second, the one before the last, and so on to
the middle. It is a permutation of the sequence, whether its length is even or odd.
-/

namespace Containers

variable {α : Type} {n : ℕ}

/-- The position in a sequence of length `n` from which outside-in order takes its
element `k`. -/
def outsideInIndex (n k : ℕ) : ℕ := if k % 2 = 0 then k / 2 else n - 1 - k / 2

/-- Elements are taken from inside the sequence. -/
theorem outsideInIndex_lt {k : ℕ} (hk : k < n) : outsideInIndex n k < n := by
  unfold outsideInIndex
  split_ifs <;> omega

/-- No element is taken twice. -/
theorem outsideInIndex_inj {i j : ℕ} (hi : i < n) (hj : j < n)
    (heq : outsideInIndex n i = outsideInIndex n j) : i = j := by
  unfold outsideInIndex at heq
  split_ifs at heq <;> omega

/-- The sequence in outside-in order. -/
def outsideIn (s : List α) : List α :=
  List.ofFn (fun k : Fin s.length => s.get ⟨outsideInIndex s.length k, outsideInIndex_lt k.isLt⟩)

/-- Outside-in order keeps the length. -/
@[simp] theorem length_outsideIn (s : List α) : (outsideIn s).length = s.length :=
  List.length_ofFn

/-- The elements of the outside-in order. -/
theorem getElem?_outsideIn {s : List α} {k : ℕ} (hk : k < s.length) :
    (outsideIn s)[k]? = s[outsideInIndex s.length k]? := by
  have hindex := outsideInIndex_lt hk
  simp [outsideIn, hk, hindex]

/-- The positions in outside-in order, as a permutation. -/
noncomputable def outsideInPerm (n : ℕ) : Equiv.Perm (Fin n) :=
  Equiv.ofBijective (fun k => ⟨outsideInIndex n k, outsideInIndex_lt k.isLt⟩)
    (Finite.injective_iff_bijective.mp (fun i j heq =>
      Fin.ext (outsideInIndex_inj i.isLt j.isLt (congrArg Fin.val heq))))

/-- Outside-in order is a permutation. -/
theorem outsideIn_perm (s : List α) : (outsideIn s).Perm s := by
  have hperm := Equiv.Perm.ofFn_comp_perm (outsideInPerm s.length) s.get
  rw [List.ofFn_get] at hperm
  exact hperm

end Containers
