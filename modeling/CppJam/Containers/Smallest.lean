import CppJam.Containers.KeyedSet

/-!
# Keeping the smallest elements of a stream

A bounded accumulator inserts each arriving element into an ordered set and
drops the greatest one when the set has grown past its bound. Whatever is
dropped could never come back among the smallest, so the accumulator always
holds the first elements of the sorted stream, and it may be written out and
reloaded between any two arrivals.
-/

namespace Containers

variable {α κ : Type} [LinearOrder κ]

/-- The first element of each key, in arrival order. -/
def firstByKey (key : α → κ) : List α → List α
  | [] => []
  | a :: l => a :: (firstByKey key l).filter (fun b => key b ≠ key a)

/-- The `bound` elements with the smallest keys of a stream, in key order; of
several elements with one key the first to arrive counts. -/
def smallest (key : α → κ) (bound : ℕ) (stream : List α) : List α :=
  ((firstByKey key stream).insertionSort (fun a b => key a ≤ key b)).take bound

namespace KeyedSet

variable {key : α → κ}

/-- Insert an element and drop the greatest one beyond the bound. -/
def emplaceBounded (bound : ℕ) (s : KeyedSet key) (a : α) : KeyedSet key :=
  if (s.emplace a).items.length > bound then (s.emplace a).eraseLast else s.emplace a

end KeyedSet

section Stream

variable {key : α → κ}

/-- The first elements of each key have pairwise different keys. -/
theorem firstByKey_pairwise (l : List α) :
    (firstByKey key l).Pairwise (fun a b => key a ≠ key b) := by
  induction l with
  | nil => simp [firstByKey]
  | cons c l ih =>
    refine List.pairwise_cons.mpr ⟨?_, ih.filter _⟩
    intro b hb
    simpa using Ne.symm (of_decide_eq_true (List.mem_filter.mp hb).2)

/-- Dropping later elements with a key adds nothing. -/
theorem firstByKey_subset (l : List α) : firstByKey key l ⊆ l := by
  induction l with
  | nil => simp [firstByKey]
  | cons c l ih =>
    refine List.cons_subset_cons c ?_
    exact fun a ha => ih (List.mem_of_mem_filter ha)

/-- Sorting elements with different keys sorts them strictly. -/
private theorem insertionSort_firstByKey_sorted (l : List α) :
    ((firstByKey key l).insertionSort (fun a b => key a ≤ key b)).Pairwise
      (fun a b => key a < key b) := by
  have htotal : Std.Total (fun a b : α => key a ≤ key b) := ⟨fun a b => le_total _ _⟩
  have htrans : IsTrans α (fun a b => key a ≤ key b) := ⟨fun _ _ _ => le_trans⟩
  have hle := List.pairwise_insertionSort (fun a b => key a ≤ key b) (firstByKey key l)
  have hne : ((firstByKey key l).insertionSort (fun a b => key a ≤ key b)).Pairwise
      (fun a b => key a ≠ key b) :=
    (List.perm_insertionSort _ _).symm.pairwise (firstByKey_pairwise l) (fun h => h.symm)
  exact (hle.and hne).imp (fun h => lt_of_le_of_ne h.1 h.2)

/-- A key is absent after an insertion when it was absent and is not the new
one. -/
private theorem forall_key_ne_emplace {s : KeyedSet key} {a : α} {k : κ} :
    (∀ c ∈ s.emplace a, key c ≠ k) ↔ (∀ c ∈ s, key c ≠ k) ∧ key a ≠ k := by
  constructor
  · intro h
    refine ⟨fun c hc => h c (KeyedSet.mem_emplace.mpr (Or.inl hc)), ?_⟩
    rintro rfl
    by_cases hfresh : ∀ c ∈ s, key c ≠ key a
    · exact h a (KeyedSet.mem_emplace.mpr (Or.inr ⟨rfl, hfresh⟩)) rfl
    · push Not at hfresh
      obtain ⟨c, hc, hkey⟩ := hfresh
      exact h c (KeyedSet.mem_emplace.mpr (Or.inl hc)) hkey
  · rintro ⟨hs, ha⟩ c hc
    rcases KeyedSet.mem_emplace.mp hc with hc | ⟨rfl, _⟩
    · exact hs c hc
    · exact ha

/-- Inserting a range adds the first element of each absent key. -/
theorem mem_insertRange {s : KeyedSet key} {b : α} {l : List α} :
    b ∈ s.insertRange l ↔ b ∈ s ∨ (b ∈ firstByKey key l ∧ ∀ c ∈ s, key c ≠ key b) := by
  induction l generalizing s with
  | nil => simp [KeyedSet.insertRange, firstByKey]
  | cons a l ih =>
    have hstep : b ∈ s.insertRange (a :: l) ↔ b ∈ (s.emplace a).insertRange l := Iff.rfl
    rw [hstep, ih, KeyedSet.mem_emplace, forall_key_ne_emplace]
    simp only [firstByKey, List.mem_cons, List.mem_filter, decide_eq_true_eq]
    constructor
    · rintro ((hb | ⟨rfl, hfresh⟩) | ⟨hb, hs, hne⟩)
      · exact Or.inl hb
      · exact Or.inr ⟨Or.inl rfl, hfresh⟩
      · exact Or.inr ⟨Or.inr ⟨hb, Ne.symm hne⟩, hs⟩
    · rintro (hb | ⟨rfl | ⟨hb, hne⟩, hs⟩)
      · exact Or.inl (Or.inl hb)
      · exact Or.inl (Or.inr ⟨rfl, hs⟩)
      · exact Or.inr ⟨hb, hs, Ne.symm hne⟩

/-- Inserting a whole stream sorts the first element of each key. -/
theorem ofRange_items_eq_insertionSort (l : List α) :
    (KeyedSet.ofRange l : KeyedSet key).items =
      (firstByKey key l).insertionSort (fun a b => key a ≤ key b) := by
  let sorted : KeyedSet key := ⟨_, insertionSort_firstByKey_sorted l⟩
  have heq : (KeyedSet.ofRange l : KeyedSet key) = sorted := by
    apply KeyedSet.eq_of_mem_iff
    intro b
    rw [KeyedSet.ofRange, mem_insertRange, ← KeyedSet.mem_items (s := sorted)]
    simp [sorted]
  rw [heq]

/-- Truncating before an insertion is invisible after truncating again: what
was cut off has at least `n` smaller elements before it. -/
theorem take_emplaceSorted_take (a : α) (n : ℕ) (l : List α) :
    (emplaceSorted key a (l.take n)).take n = (emplaceSorted key a l).take n := by
  induction l generalizing n with
  | nil => simp
  | cons b l ih =>
    cases n with
    | zero => simp
    | succ n =>
      simp only [List.take_succ_cons, emplaceSorted]
      split_ifs with hlt hgt
      · cases n with
        | zero => simp
        | succ n => simp [List.take_take]
      · rw [List.take_succ_cons, List.take_succ_cons, ih]
      · simp [List.take_take]

/-- An insertion lengthens a list by at most one element. -/
private theorem length_emplaceSorted_le (key : α → κ) (a : α) (l : List α) :
    (emplaceSorted key a l).length ≤ l.length + 1 := by
  induction l with
  | nil => simp [emplaceSorted]
  | cons b l ih =>
    unfold emplaceSorted
    split_ifs <;> simp only [List.length_cons] <;> omega

/-- On a set within its bound, a bounded insertion is an insertion followed by
truncation to the bound. -/
theorem emplaceBounded_items {bound : ℕ} {s : KeyedSet key} (a : α)
    (hbound : s.items.length ≤ bound) :
    (s.emplaceBounded bound a).items = (emplaceSorted key a s.items).take bound := by
  have hlength := length_emplaceSorted_le key a s.items
  unfold KeyedSet.emplaceBounded
  split_ifs with hgt
  · have heq : (s.emplace a).items.length = bound + 1 := by
      change (emplaceSorted key a s.items).length = bound + 1
      have hgt : (emplaceSorted key a s.items).length > bound := hgt
      omega
    change (s.emplace a).items.dropLast = _
    rw [List.dropLast_eq_take, heq]
    rfl
  · exact (List.take_of_length_le (not_lt.mp hgt)).symm

/-- A bounded accumulator that holds the smallest elements of one stream holds,
after further arrivals, the smallest elements of both streams together. -/
theorem foldl_emplaceBounded_items {bound : ℕ} {s : KeyedSet key} {stream : List α}
    (hs : s.items = smallest key bound stream) (arrivals : List α) :
    (arrivals.foldl (KeyedSet.emplaceBounded bound) s).items =
      smallest key bound (stream ++ arrivals) := by
  induction arrivals generalizing s stream with
  | nil => simpa using hs
  | cons a arrivals ih =>
    have hlength : s.items.length ≤ bound := by
      rw [hs, smallest, List.length_take]
      omega
    have hstep : (s.emplaceBounded bound a).items = smallest key bound (stream ++ [a]) := by
      rw [emplaceBounded_items a hlength, hs]
      unfold smallest
      rw [← ofRange_items_eq_insertionSort, ← ofRange_items_eq_insertionSort,
        take_emplaceSorted_take]
      congr 1
      simp [KeyedSet.ofRange, KeyedSet.insertRange, KeyedSet.emplace]
    have hrest := ih hstep
    simpa using hrest

/-- The smallest elements come in strictly increasing key order. -/
theorem smallest_sorted (bound : ℕ) (stream : List α) :
    (smallest key bound stream).Pairwise (fun a b => key a < key b) :=
  (insertionSort_firstByKey_sorted stream).sublist (List.take_sublist _ _)

/-- The smallest elements are elements of the stream. -/
theorem mem_of_mem_smallest {bound : ℕ} {stream : List α} {a : α}
    (ha : a ∈ smallest key bound stream) : a ∈ stream := by
  have hfirst : a ∈ firstByKey key stream :=
    (List.mem_insertionSort _).mp (List.mem_of_mem_take ha)
  exact firstByKey_subset stream hfirst

/-- Every key of a stream has a first element. -/
theorem exists_mem_firstByKey {a : α} {l : List α} (ha : a ∈ l) :
    ∃ b ∈ firstByKey key l, key b = key a := by
  induction l with
  | nil => cases ha
  | cons c l ih =>
    by_cases hkey : key c = key a
    · exact ⟨c, List.mem_cons_self, hkey⟩
    · rcases List.mem_cons.mp ha with rfl | ha
      · exact absurd rfl hkey
      · obtain ⟨b, hb, hba⟩ := ih ha
        refine ⟨b, List.mem_cons_of_mem c (List.mem_filter.mpr ⟨hb, ?_⟩), hba⟩
        rw [hba]
        exact decide_eq_true (Ne.symm hkey)

/-- In a strictly sorted list an element comes within the first `n` when fewer than `n`
elements are smaller. -/
private theorem mem_take_iff_countP {l : List α} (hsorted : l.Pairwise (fun a b => key a < key b))
    {a : α} (ha : a ∈ l) (n : ℕ) :
    a ∈ l.take n ↔ l.countP (fun b => key b < key a) < n := by
  induction l generalizing n with
  | nil => cases ha
  | cons c l ih =>
    obtain ⟨hhead, htail⟩ := List.pairwise_cons.mp hsorted
    cases n with
    | zero => simp
    | succ n =>
      rw [List.take_succ_cons, List.mem_cons]
      rcases List.mem_cons.mp ha with rfl | ha
      · have hnone : l.countP (fun b => key b < key a) = 0 := by
          rw [List.countP_eq_zero]
          intro b hb
          simpa using (hhead b hb).le
        simp [hnone]
      · have hlt := hhead a ha
        have hne : a ≠ c := by
          rintro rfl
          exact hlt.false
        simp [hne, ih htail ha, hlt]

/-- The smallest elements are the first ones of their keys with fewer smaller keys than
the bound. -/
theorem mem_smallest_iff {bound : ℕ} {stream : List α} {a : α} :
    a ∈ smallest key bound stream ↔ a ∈ firstByKey key stream ∧
      (firstByKey key stream).countP (fun b => key b < key a) < bound := by
  have hperm := List.perm_insertionSort (fun a b => key a ≤ key b) (firstByKey key stream)
  by_cases ha : a ∈ firstByKey key stream
  · rw [smallest, mem_take_iff_countP (insertionSort_firstByKey_sorted stream)
      (hperm.mem_iff.mpr ha), hperm.countP_eq]
    simp [ha]
  · have hnot : a ∉ smallest key bound stream := fun hmem =>
      ha (hperm.mem_iff.mp (List.mem_of_mem_take hmem))
    simp [ha, hnot]

/-- A strictly sorted stream within the bound is kept as it is. -/
theorem smallest_of_sorted {bound : ℕ} {stream : List α}
    (hsorted : stream.Pairwise (fun a b => key a < key b)) (hlength : stream.length ≤ bound) :
    smallest key bound stream = stream := by
  rw [smallest, ← ofRange_items_eq_insertionSort, KeyedSet.ofRange_items_of_sorted hsorted,
    List.take_of_length_le hlength]

/-- There are never more of them than the bound. -/
theorem length_smallest_le (bound : ℕ) (stream : List α) :
    (smallest key bound stream).length ≤ bound := by
  rw [smallest, List.length_take]
  omega

end Stream

end Containers
