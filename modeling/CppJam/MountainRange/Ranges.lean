import CppJam.MountainRange.Trees
import Mathlib.Data.Nat.Size

/-!
# Mountain ranges

A mountain range holds perfect trees of distinct heights. Pushing a tree is the
increment of a binary counter: a tree of the same height is joined with the new
one, and the result is pushed one height further up. Only the roots are stored by
a program, as a list that has a gap at every height without a tree; appending to
that list is the image of pushing. The range itself remembers the leaves and what
was joined.
-/

namespace MountainRange

variable {α : Type}

/-- Append a root to the list of peaks: fill the first gap, joining the peaks before it. -/
def appendPeak (node : α → α → α) : List (Option α) → α → List (Option α)
  | [], l => [some l]
  | none :: peaks, l => some l :: peaks
  | some r :: peaks, l => none :: appendPeak node peaks (node r l)

/-- The pairs that an append joins. -/
def appendJoins (node : α → α → α) : List (Option α) → α → List (α × α)
  | [], _ => []
  | none :: _, _ => []
  | some r :: peaks, l => (r, l) :: appendJoins node peaks (node r l)

/-- The pairs that a sequence of appends joins, starting from the given peaks. -/
def sequenceJoins (node : α → α → α) (peaks : List (Option α)) : List α → List (α × α)
  | [] => []
  | l :: rest => appendJoins node peaks l ++ sequenceJoins node (appendPeak node peaks l) rest

/-- Perfect trees of increasing heights, beginning at the given one, with gaps. -/
inductive Range (α : Type) : ℕ → Type
  | nil {h : ℕ} : Range α h
  | gap {h : ℕ} (higher : Range α (h + 1)) : Range α h
  | peak {h : ℕ} (higher : Range α (h + 1)) (tree : PerfectTree α h) : Range α h

namespace Range

/-- Push a tree, as a carry is added to a binary counter. -/
def push : {h : ℕ} → Range α h → PerfectTree α h → Range α h
  | _, nil, t => peak nil t
  | _, gap higher, t => peak higher t
  | _, peak higher older, t => gap (higher.push (.fork older t))

/-- The roots from the lowest height on. -/
def peaks (node : α → α → α) : {h : ℕ} → Range α h → List (Option α)
  | _, nil => []
  | _, gap higher => none :: higher.peaks node
  | _, peak higher tree => some (tree.root node) :: higher.peaks node

/-- The leaves, oldest first: higher trees are older. -/
def leaves : {h : ℕ} → Range α h → List α
  | _, nil => []
  | _, gap higher => higher.leaves
  | _, peak higher tree => higher.leaves ++ tree.leaves

/-- The pairs joined in the trees of a range. -/
def joins (node : α → α → α) : {h : ℕ} → Range α h → List (α × α)
  | _, nil => []
  | _, gap higher => higher.joins node
  | _, peak higher tree => higher.joins node ++ tree.joins node

/-- The number whose binary digits are the heights with a tree. -/
def count : {h : ℕ} → Range α h → ℕ
  | _, nil => 0
  | _, gap higher => Nat.bit false higher.count
  | _, peak higher _ => Nat.bit true higher.count

/-- The range built from leaves, first one first. -/
def ofLeaves (l : List α) : Range α 0 := l.foldl (fun r a => r.push (.leaf a)) nil

variable {node : α → α → α}

/-- Appending to the peaks is the image of pushing. -/
theorem peaks_push {h : ℕ} (r : Range α h) (t : PerfectTree α h) :
    (r.push t).peaks node = appendPeak node (r.peaks node) (t.root node) := by
  induction r with
  | nil => rfl
  | gap higher _ => rfl
  | peak higher older ih => exact congrArg (none :: ·) (ih (.fork older t))

/-- A pushed tree brings the newest leaves. -/
theorem leaves_push {h : ℕ} (r : Range α h) (t : PerfectTree α h) :
    (r.push t).leaves = r.leaves ++ t.leaves := by
  induction r with
  | nil => rfl
  | gap higher _ => rfl
  | peak higher older ih =>
    rw [push, leaves, ih, PerfectTree.leaves, leaves, List.append_assoc]

/-- Pushing counts one more. -/
theorem count_push {h : ℕ} (r : Range α h) (t : PerfectTree α h) :
    (r.push t).count = r.count + 1 := by
  induction r with
  | nil => rfl
  | gap higher _ => simp [push, count, Nat.bit_val]
  | peak higher older ih =>
    simp only [push, count, ih, Nat.bit_val]
    simp
    omega

/-- What a pushed range joins is joined in its parts or by the append. -/
theorem joins_push {h : ℕ} (r : Range α h) (t : PerfectTree α h) :
    (r.push t).joins node ⊆
      r.joins node ++ t.joins node ++ appendJoins node (r.peaks node) (t.root node) := by
  induction r with
  | nil => simp [push, joins]
  | gap higher _ => simp [push, joins]
  | peak higher older ih =>
    intro x hx
    have hparts := ih (.fork older t) hx
    simp only [PerfectTree.joins, PerfectTree.root, List.mem_append, List.mem_cons] at hparts
    simp only [joins, peaks, appendJoins, List.mem_append, List.mem_cons]
    tauto

/-- The peaks of the range of some leaves are those that the appends produce. -/
theorem peaks_ofLeaves (l : List α) :
    (ofLeaves l).peaks node = l.foldl (appendPeak node) [] := by
  suffices h : ∀ r : Range α 0, (l.foldl (fun r a => r.push (.leaf a)) r).peaks node =
      l.foldl (appendPeak node) (r.peaks node) from h nil
  induction l with
  | nil => exact fun r => rfl
  | cons a l ih =>
    intro r
    rw [List.foldl_cons, ih, peaks_push]
    rfl

/-- The range of some leaves has these leaves in order. -/
theorem leaves_ofLeaves (l : List α) : (ofLeaves l).leaves = l := by
  suffices h : ∀ r : Range α 0, (l.foldl (fun r a => r.push (.leaf a)) r).leaves =
      r.leaves ++ l from h nil
  induction l with
  | nil => exact fun r => (List.append_nil _).symm
  | cons a l ih =>
    intro r
    rw [List.foldl_cons, ih, leaves_push, List.append_assoc]
    rfl

/-- What the range of some leaves joins is joined by the appends. -/
theorem joins_ofLeaves (l : List α) :
    (ofLeaves l).joins node ⊆ sequenceJoins node [] l := by
  suffices h : ∀ r : Range α 0, (l.foldl (fun r a => r.push (.leaf a)) r).joins node ⊆
      r.joins node ++ sequenceJoins node (r.peaks node) l from h nil
  induction l with
  | nil => exact fun r x hx => List.mem_append_left _ hx
  | cons a l ih =>
    intro r x hx
    rcases List.mem_append.mp (ih (r.push (.leaf a)) hx) with hx | hx
    · have hparts := joins_push r (.leaf a) hx
      simp only [PerfectTree.joins, List.append_nil, PerfectTree.root, List.mem_append] at hparts
      simp only [sequenceJoins, List.mem_append]
      tauto
    · rw [peaks_push] at hx
      simp only [sequenceJoins, List.mem_append]
      exact .inr (.inr hx)

/-- Two ranges with the same peaks are equal or their joins collide. -/
theorem eq_or_collides {h : ℕ} (r r' : Range α h) (hpeaks : r.peaks node = r'.peaks node) :
    r = r' ∨ Collides node (r.joins node) (r'.joins node) := by
  induction r with
  | nil =>
    cases r' with
    | nil => exact .inl rfl
    | gap _ => cases hpeaks
    | peak _ _ => cases hpeaks
  | gap higher ih =>
    cases r' with
    | nil => cases hpeaks
    | gap higher' =>
      rcases ih higher' (List.cons.inj hpeaks).2 with rfl | hcollides
      · exact .inl rfl
      · exact .inr hcollides
    | peak _ _ => cases hpeaks
  | peak higher tree ih =>
    cases r' with
    | nil => cases hpeaks
    | gap _ => cases hpeaks
    | peak higher' tree' =>
      obtain ⟨hroot, hhigher⟩ := List.cons.inj hpeaks
      rcases ih higher' hhigher with rfl | hcollides
      · rcases tree.eq_or_collides node tree' (Option.some.inj hroot) with rfl | hcollides
        · exact .inl rfl
        · exact .inr (hcollides.mono (List.subset_append_right _ _)
            (List.subset_append_right _ _))
      · exact .inr (hcollides.mono (List.subset_append_left _ _) (List.subset_append_left _ _))

end Range

/-- **Binding.** Two sequences of appends that end with the same peaks appended the
same leaves, or joined two different pairs to the same value. -/
theorem eq_or_collides_of_peaks_eq {node : α → α → α} {l l' : List α}
    (hpeaks : l.foldl (appendPeak node) [] = l'.foldl (appendPeak node) []) :
    l = l' ∨ Collides node (sequenceJoins node [] l) (sequenceJoins node [] l') := by
  rw [← Range.peaks_ofLeaves, ← Range.peaks_ofLeaves] at hpeaks
  rcases Range.eq_or_collides _ _ hpeaks with hrange | hcollides
  · refine .inl ?_
    rw [← Range.leaves_ofLeaves l, hrange, Range.leaves_ofLeaves]
  · exact .inr (hcollides.mono (Range.joins_ofLeaves l) (Range.joins_ofLeaves l'))

end MountainRange
