import CppJam.Containers.Grouping
import Mathlib.Data.List.Sort
import Mathlib.Data.List.TakeWhile

/-!
# Ordered multimaps

An ordered multimap keeps its entries sorted by key; a new entry goes behind
the entries with the same key. The entries are stored as the list an iteration
visits, with their order as a field.
-/

namespace Containers

/-- An ordered multimap, as the list of entries its iteration visits. -/
structure Multimap (κ ν : Type) [LinearOrder κ] where
  /-- The entries in iteration order. -/
  items : List (κ × ν)
  /-- Keys never decrease along the iteration. -/
  sorted : items.Pairwise (fun x y => x.1 ≤ y.1)

namespace Multimap

variable {κ ν : Type} [LinearOrder κ]

/-- Inserting in front of the first greater key keeps the entries sorted. -/
private theorem orderedInsert_sorted {e : κ × ν} {l : List (κ × ν)}
    (hsorted : l.Pairwise (fun x y => x.1 ≤ y.1)) :
    (l.orderedInsert (fun x y => x.1 < y.1) e).Pairwise (fun x y => x.1 ≤ y.1) := by
  induction l with
  | nil => simp
  | cons c l ih =>
    obtain ⟨hhead, htail⟩ := List.pairwise_cons.mp hsorted
    rw [List.orderedInsert_cons]
    split_ifs with hlt
    · refine List.pairwise_cons.mpr ⟨?_, hsorted⟩
      intro d hd
      rcases List.mem_cons.mp hd with rfl | hd
      · exact hlt.le
      · exact hlt.le.trans (hhead d hd)
    · refine List.pairwise_cons.mpr ⟨?_, ih htail⟩
      intro d hd
      rcases (List.mem_orderedInsert _).mp hd with rfl | hd
      · exact not_lt.mp hlt
      · exact hhead d hd

/-- The multimap without entries. -/
def empty : Multimap κ ν := ⟨[], List.Pairwise.nil⟩

/-- Insert an entry behind those with the same key. -/
def emplace (m : Multimap κ ν) (k : κ) (v : ν) : Multimap κ ν :=
  ⟨m.items.orderedInsert (fun x y => x.1 < y.1) (k, v), orderedInsert_sorted m.sorted⟩

/-- The keys in iteration order, one for each entry. -/
def keys (m : Multimap κ ν) : List κ := m.items.map Prod.fst

/-- The number of entries with a key. -/
def count (m : Multimap κ ν) (k : κ) : ℕ := m.items.countP (fun e => e.1 = k)

/-- The position of the first entry whose key is greater than `k`. -/
def upperBound (m : Multimap κ ν) (k : κ) : ℕ :=
  (m.items.takeWhile (fun e => e.1 ≤ k)).length

/-- An insertion adds one entry and moves none across another. -/
theorem emplace_items_perm (m : Multimap κ ν) (k : κ) (v : ν) :
    (m.emplace k v).items.Perm ((k, v) :: m.items) :=
  List.perm_orderedInsert _ _ _

/-- Inserting the elements of a list one by one leaves their entries, sorted. -/
theorem foldl_emplace_items_perm {α : Type} (key : α → κ) (value : α → ν) (l : List α)
    (m : Multimap κ ν) :
    (l.foldl (fun m a => m.emplace (key a) (value a)) m).items.Perm
      (m.items ++ l.map (fun a => (key a, value a))) := by
  induction l generalizing m with
  | nil => simp
  | cons a l ih =>
    refine (ih (m.emplace (key a) (value a))).trans ?_
    refine ((m.emplace_items_perm _ _).append_right _).trans ?_
    exact List.perm_middle.symm

/-- Inserting in front of the first greater key puts an entry behind those with its key. -/
private theorem valuesAt_orderedInsert {k : κ} {e : κ × ν} {l : List (κ × ν)}
    (hsorted : l.Pairwise (fun x y => x.1 ≤ y.1)) :
    valuesAt k (l.orderedInsert (fun x y => x.1 < y.1) e) = valuesAt k l ++ valuesAt k [e] := by
  induction l with
  | nil => simp [valuesAt]
  | cons c l ih =>
    obtain ⟨hhead, htail⟩ := List.pairwise_cons.mp hsorted
    rw [List.orderedInsert_cons]
    split_ifs with hlt
    · by_cases hk : e.1 = k
      · have hnone : valuesAt k (c :: l) = [] := by
          have hgreater : ∀ d ∈ c :: l, ¬d.1 = k := by
            intro d hd hdk
            rcases List.mem_cons.mp hd with rfl | hd
            · exact hlt.ne (hk.trans hdk.symm)
            · exact (hlt.trans_le (hhead d hd)).ne (hk.trans hdk.symm)
          rw [valuesAt, List.filter_eq_nil_iff.mpr (by simpa using hgreater), List.map_nil]
        rw [valuesAt_cons, hnone, List.append_nil, List.nil_append]
      · simp [valuesAt, hk]
    · rw [valuesAt_cons, ih htail, valuesAt_cons k c l, List.append_assoc]

/-- An insertion adds its value behind the values of its key. -/
theorem valuesAt_emplace (m : Multimap κ ν) (k k' : κ) (v : ν) :
    valuesAt k (m.emplace k' v).items = valuesAt k m.items ++ valuesAt k [(k', v)] :=
  valuesAt_orderedInsert m.sorted

/-- The values of a key are stored in the order of their insertion. -/
theorem valuesAt_foldl_emplace (l : List (κ × ν)) (m : Multimap κ ν) (k : κ) :
    valuesAt k (l.foldl (fun m e => m.emplace e.1 e.2) m).items =
      valuesAt k m.items ++ valuesAt k l := by
  induction l generalizing m with
  | nil => simp [valuesAt]
  | cons e l ih =>
    rw [List.foldl_cons, ih, valuesAt_emplace, valuesAt_cons k e l, List.append_assoc]

section OfList

variable {α : Type} (key : α → κ) (value : α → ν) (l : List α)

/-- A multimap filled from a list counts the list's elements by key. -/
theorem count_foldl_emplace (k : κ) :
    (l.foldl (fun m a => m.emplace (key a) (value a)) empty).count k =
      l.countP (fun a => key a = k) := by
  have hperm := foldl_emplace_items_perm key value l empty
  rw [count, hperm.countP_eq]
  simp [empty, List.countP_map, Function.comp_def]

/-- A multimap filled from a list has the keys of the list's elements. -/
theorem mem_keys_foldl_emplace {k : κ} :
    k ∈ (l.foldl (fun m a => m.emplace (key a) (value a)) empty).keys ↔ ∃ a ∈ l, key a = k := by
  have hperm := (foldl_emplace_items_perm key value l empty).map Prod.fst
  rw [keys, hperm.mem_iff]
  simp [empty]

/-- A multimap filled from a list has the values of the list's elements. -/
theorem mem_values_foldl_emplace {v : ν} :
    v ∈ (l.foldl (fun m a => m.emplace (key a) (value a)) empty).items.map Prod.snd ↔
      ∃ a ∈ l, value a = v := by
  have hperm := (foldl_emplace_items_perm key value l empty).map Prod.snd
  rw [hperm.mem_iff]
  simp [empty]

/-- A multimap filled from a list visits the list's elements by key, and those with one key in the
order of the list. -/
theorem foldl_emplace_pairwise {R : ν → ν → Prop}
    (hl : l.Pairwise fun a b => key a = key b → R (value a) (value b)) :
    (l.foldl (fun m a => m.emplace (key a) (value a)) empty).items.Pairwise
      fun x y => x.1 < y.1 ∨ x.1 = y.1 ∧ R x.2 y.2 := by
  refine pairwise_of_valuesAt (Multimap.sorted _) fun k => ?_
  have hvalues := valuesAt_foldl_emplace (l.map fun a => (key a, value a)) empty k
  rw [List.foldl_map] at hvalues
  rw [hvalues, empty, valuesAt, valuesAt, List.filter_nil, List.map_nil, List.nil_append,
    List.filter_map, List.map_map, List.pairwise_map]
  refine (hl.sublist List.filter_sublist).imp_of_mem fun {a b} ha hb hR => hR ?_
  have hkeys : key a = k ∧ key b = k := by
    simpa using And.intro (List.mem_filter.mp ha).2 (List.mem_filter.mp hb).2
  exact hkeys.1.trans hkeys.2.symm

end OfList

/-- The entries with the key of a given entry, at and behind it, end at the
upper bound of that key. -/
theorem upperBound_split {m : Multimap κ ν} {front rest : List (κ × ν)} {e : κ × ν}
    (hitems : m.items = front ++ e :: rest) :
    ∃ run tail, rest = run ++ tail ∧ (∀ x ∈ run, x.1 = e.1) ∧
      m.upperBound e.1 = front.length + (run.length + 1) := by
  have hsorted := m.sorted
  rw [hitems, List.pairwise_append, List.pairwise_cons] at hsorted
  obtain ⟨_, ⟨hbehind, _⟩, hfront⟩ := hsorted
  let p : κ × ν → Bool := fun x => x.1 ≤ e.1
  refine ⟨rest.takeWhile p, rest.dropWhile p, List.takeWhile_append_dropWhile.symm, ?_, ?_⟩
  · intro x hx
    have hle : x.1 ≤ e.1 := by simpa [p] using List.mem_takeWhile_imp hx
    exact le_antisymm hle (hbehind x (List.takeWhile_subset p hx))
  · have hpos : ∀ x ∈ front, p x = true := by
      intro x hx
      simpa [p] using hfront x hx e List.mem_cons_self
    have hself : p e = true := by simp [p]
    have htake : m.items.takeWhile p = front ++ e :: rest.takeWhile p := by
      rw [hitems, List.takeWhile_append_of_pos hpos, List.takeWhile_cons_of_pos hself]
    change (m.items.takeWhile p).length = _
    simp [htake]

/-- The upper bound of a key is a position of the multimap or its end. -/
theorem upperBound_le_length (m : Multimap κ ν) (k : κ) : m.upperBound k ≤ m.items.length :=
  (List.takeWhile_sublist _).length_le

/-- From the upper bound of a key on all keys are greater. -/
theorem lt_of_mem_drop_upperBound {m : Multimap κ ν} {k : κ} {x : κ × ν}
    (hx : x ∈ m.items.drop (m.upperBound k)) : k < x.1 := by
  let p : κ × ν → Bool := fun e => e.1 ≤ k
  have hdrop : m.items.drop (m.upperBound k) = m.items.dropWhile p := by
    have hbound : m.upperBound k = (m.items.takeWhile p).length := rfl
    have hleft : (m.items.takeWhile p ++ m.items.dropWhile p).drop (m.items.takeWhile p).length =
        m.items.dropWhile p := List.drop_left
    rwa [List.takeWhile_append_dropWhile, ← hbound] at hleft
  rw [hdrop] at hx
  have hsorted := m.sorted.sublist (List.dropWhile_sublist p)
  cases hrest : m.items.dropWhile p with
  | nil => simp [hrest] at hx
  | cons e rest =>
    have hfirst : k < e.1 := by
      have hnot := List.head_dropWhile_not (l := m.items) p (by simp [hrest])
      simpa [hrest, p] using hnot
    rw [hrest] at hx hsorted
    rcases List.mem_cons.mp hx with rfl | hx
    · exact hfirst
    · exact hfirst.trans_le ((List.pairwise_cons.mp hsorted).1 x hx)

end Multimap

end Containers
