import CppJam.MountainRange.Ranges
import Mathlib.Data.Nat.Bitwise

/-!
# Which leaves a peak covers

The peaks of a range of `n` leaves are the binary digits of `n`: there is a peak at
height `i` exactly when bit `i` is set, and it covers the `2 ^ i` leaves that follow
the part of `n` above that bit. Read from the highest bit down, these segments
concatenate to all leaves.
-/

namespace MountainRange

variable {α : Type} {node : α → α → α}

/-- The leaves that correspond to a bit of their number. -/
def segment (l : List α) (i : ℕ) : List α :=
  (l.drop (l.length / 2 ^ (i + 1) * 2 ^ (i + 1))).take (2 ^ i)

namespace Range

/-- No leaf is missing: each height holds a tree of its size or none. -/
theorem length_leaves {h : ℕ} (r : Range α h) : r.leaves.length = 2 ^ h * r.count := by
  induction r with
  | nil => rfl
  | gap higher ih =>
    rw [leaves, ih, count, Nat.bit_val, pow_succ]
    simp [Nat.mul_assoc]
  | peak higher tree ih =>
    rw [leaves, List.length_append, ih, tree.length_leaves, count, Nat.bit_val, pow_succ]
    simp [Nat.mul_add, Nat.mul_assoc]

/-- The range of some leaves counts them. -/
theorem count_ofLeaves (l : List α) : (ofLeaves l).count = l.length := by
  have hlength := (ofLeaves l).length_leaves
  rw [leaves_ofLeaves, pow_zero, one_mul] at hlength
  exact hlength.symm

/-- The highest entry of a range is a tree. -/
def Topped : {h : ℕ} → Range α h → Prop
  | _, nil => True
  | _, gap higher => higher.count ≠ 0 ∧ higher.Topped
  | _, peak higher _ => higher.Topped

/-- Pushing keeps a tree on top. -/
theorem Topped.push {h : ℕ} {r : Range α h} (hr : r.Topped) (t : PerfectTree α h) :
    (r.push t).Topped := by
  induction r with
  | nil => trivial
  | gap higher _ => exact hr.2
  | peak higher older ih =>
    refine ⟨?_, ih hr _⟩
    rw [count_push]
    exact Nat.succ_ne_zero _

/-- The range of some leaves has a tree on top. -/
theorem topped_ofLeaves (l : List α) : (ofLeaves l).Topped := by
  suffices h : ∀ r : Range α 0, r.Topped →
      (l.foldl (fun r a => r.push (.leaf a)) r).Topped from h nil trivial
  induction l with
  | nil => exact fun r hr => hr
  | cons a l ih => exact fun r hr => ih _ (hr.push _)

/-- A range with a tree on top has as many entries as its count has binary digits. -/
theorem Topped.length_peaks {h : ℕ} {r : Range α h} (hr : r.Topped) :
    (r.peaks node).length = r.count.size := by
  induction r with
  | nil => rfl
  | gap higher ih =>
    rw [peaks, List.length_cons, ih hr.2, count, Nat.size_bit]
    exact Nat.bit_ne_zero_iff.mpr (fun h => absurd h hr.1)
  | peak higher tree ih =>
    rw [peaks, List.length_cons, ih hr, count, Nat.size_bit]
    exact Nat.bit_ne_zero_iff.mpr (fun _ => rfl)

/-- There is a peak exactly at the set bits of the count. -/
theorem exists_peak_iff {h : ℕ} (r : Range α h) (k : ℕ) :
    (∃ root, (r.peaks node)[k]? = some (some root)) ↔ r.count.testBit k = true := by
  induction r generalizing k with
  | nil => simp [peaks, count]
  | gap higher ih =>
    cases k with
    | zero => simp [peaks, count]
    | succ k =>
      rw [count, Nat.testBit_bit_succ]
      exact ih k
  | peak higher tree ih =>
    cases k with
    | zero => simp [peaks, count]
    | succ k =>
      rw [count, Nat.testBit_bit_succ]
      exact ih k

/-- A peak is the root of a perfect tree over the leaves behind the part of the count
above its bit. -/
theorem exists_tree_of_peak {h : ℕ} (r : Range α h) {k m : ℕ} (hm : m = h + k) {root : α}
    (hroot : (r.peaks node)[k]? = some (some root)) :
    ∃ (t : PerfectTree α m) (older newer : List α), t.root node = root ∧
      r.leaves = older ++ t.leaves ++ newer ∧
      older.length = 2 ^ (m + 1) * (r.count / 2 ^ (k + 1)) := by
  induction r generalizing k m with
  | nil => simp [peaks] at hroot
  | gap higher ih =>
    cases k with
    | zero => simp [peaks] at hroot
    | succ k =>
      obtain ⟨t, older, newer, ht, hleaves, holder⟩ := ih (m := m) (by omega) hroot
      refine ⟨t, older, newer, ht, hleaves, ?_⟩
      rw [holder, count, pow_succ' 2 (k + 1), ← Nat.div_div_eq_div_mul, Nat.bit_div_two]
  | peak higher tree ih =>
    cases k with
    | zero =>
      subst hm
      refine ⟨tree, higher.leaves, [], ?_, by simp [leaves], ?_⟩
      · simpa [peaks] using hroot
      · rw [length_leaves, count, zero_add, pow_one, Nat.bit_div_two]
    | succ k =>
      obtain ⟨t, older, newer, ht, hleaves, holder⟩ := ih (m := m) (by omega) hroot
      refine ⟨t, older, newer ++ tree.leaves, ht, by simp [leaves, hleaves], ?_⟩
      rw [holder, count, pow_succ' 2 (k + 1), ← Nat.div_div_eq_div_mul, Nat.bit_div_two]

end Range

/-- The leaves up to a bit are those above the bit followed by its segment. -/
theorem take_above (l : List α) (i : ℕ) :
    l.take (l.length / 2 ^ i * 2 ^ i) =
      l.take (l.length / 2 ^ (i + 1) * 2 ^ (i + 1)) ++
        if l.length.testBit i then segment l i else [] := by
  have hhalf : l.length / 2 ^ (i + 1) = l.length / 2 ^ i / 2 := by
    rw [pow_succ, Nat.div_div_eq_div_mul]
  have habove : l.length / 2 ^ (i + 1) * 2 ^ (i + 1) = l.length / 2 ^ i / 2 * 2 * 2 ^ i := by
    rw [hhalf, pow_succ']
    exact (Nat.mul_assoc _ _ _).symm
  have hdigit := Nat.div_add_mod' (l.length / 2 ^ i) 2
  rw [Nat.testBit_eq_decide_div_mod_eq]
  rcases Nat.mod_two_eq_zero_or_one (l.length / 2 ^ i) with hmod | hmod
  · rw [hmod, add_zero] at hdigit
    simp [habove, hdigit, hmod]
  · rw [hmod] at hdigit
    have hbit : l.length / 2 ^ i * 2 ^ i = l.length / 2 ^ (i + 1) * 2 ^ (i + 1) + 2 ^ i := by
      rw [habove]
      nth_rewrite 1 [← hdigit]
      rw [Nat.add_mul, one_mul]
    rw [hmod, hbit, List.take_add]
    rfl

/-- The segments of the set bits, highest first, concatenate to all leaves. -/
theorem flatMap_segment (l : List α) :
    ((List.range l.length.size).reverse.filter (fun i => l.length.testBit i)).flatMap
      (segment l) = l := by
  have hbelow : ∀ k, l.take (l.length / 2 ^ k * 2 ^ k) ++
      ((List.range k).reverse.filter (fun i => l.length.testBit i)).flatMap (segment l) = l := by
    intro k
    induction k with
    | zero => simp
    | succ k ih =>
      rw [List.range_succ, List.reverse_append, List.reverse_singleton, List.singleton_append]
      rw [take_above] at ih
      by_cases hbit : l.length.testBit k = true
      · rw [List.filter_cons_of_pos hbit, List.flatMap_cons, ← List.append_assoc]
        rw [if_pos hbit] at ih
        exact ih
      · rw [List.filter_cons_of_neg hbit]
        rw [if_neg hbit, List.append_nil] at ih
        exact ih
  have hall := hbelow l.length.size
  rw [Nat.div_eq_of_lt (Nat.lt_size_self _), zero_mul, List.take_zero, List.nil_append] at hall
  exact hall

/-- **Structure of the peaks.** After appending a list of leaves there are as many peaks
as their number has binary digits, one is present exactly where the digit is one, and
it is the root of the perfect tree over the segment of that digit. -/
theorem peaks_structure (l : List α) :
    (l.foldl (appendPeak node) []).length = l.length.size ∧
    (∀ i, (∃ root, (l.foldl (appendPeak node) [])[i]? = some (some root)) ↔
      l.length.testBit i = true) ∧
    ∀ i root, (l.foldl (appendPeak node) [])[i]? = some (some root) →
      ∃ t : PerfectTree α i, t.leaves = segment l i ∧ t.root node = root := by
  rw [← Range.peaks_ofLeaves]
  refine ⟨?_, ?_, ?_⟩
  · rw [(Range.topped_ofLeaves l).length_peaks, Range.count_ofLeaves]
  · intro i
    rw [Range.exists_peak_iff, Range.count_ofLeaves]
  · intro i root hroot
    obtain ⟨t, older, newer, ht, hleaves, holder⟩ :=
      Range.exists_tree_of_peak (Range.ofLeaves l) (zero_add i).symm hroot
    rw [Range.leaves_ofLeaves] at hleaves
    rw [Range.count_ofLeaves, Nat.mul_comm] at holder
    refine ⟨t, ?_, ht⟩
    rw [segment, ← holder, hleaves, List.append_assoc, List.drop_left, ← t.length_leaves,
      List.take_left]

end MountainRange
