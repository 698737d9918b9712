import Mathlib.Data.List.Sort
import Mathlib.Tactic.Order

/-!
# Ordered sets of keyed elements

An ordered set compares its elements through a key and keeps them strictly
increasing; inserting an element whose key is present leaves the set unchanged.
The elements are stored as the list an iteration visits. Sortedness is a field,
so the two facts that every use needs (no key twice, membership determines the
set) follow from the type.
-/

namespace Containers

variable {α κ : Type} [LinearOrder κ]

/-- Insertion into a list kept increasing by key. An element with an equal key
is already there and stays. -/
def emplaceSorted (key : α → κ) (a : α) : List α → List α
  | [] => [a]
  | b :: l =>
      if key a < key b then a :: b :: l
      else if key b < key a then b :: emplaceSorted key a l
      else b :: l

/-- Insertion adds the new element exactly when its key is absent. -/
theorem mem_emplaceSorted {key : α → κ} {a b : α} {l : List α}
    (hsorted : l.Pairwise (fun x y => key x < key y)) :
    b ∈ emplaceSorted key a l ↔ b ∈ l ∨ (b = a ∧ ∀ c ∈ l, key c ≠ key a) := by
  induction l with
  | nil => simp [emplaceSorted]
  | cons c l ih =>
    obtain ⟨hhead, htail⟩ := List.pairwise_cons.mp hsorted
    unfold emplaceSorted
    split_ifs with hlt hgt
    · have hfresh : ∀ d ∈ c :: l, key d ≠ key a := by
        intro d hd
        rcases List.mem_cons.mp hd with rfl | hd
        · exact hlt.ne'
        · exact (hlt.trans (hhead d hd)).ne'
      rw [and_iff_left hfresh, List.mem_cons, or_comm]
    · have hne : key c ≠ key a := hgt.ne
      simp only [List.mem_cons, ih htail, forall_eq_or_imp]
      rw [and_iff_right hne, or_assoc]
    · have heq : key c = key a := by order
      refine (or_iff_left ?_).symm
      rintro ⟨_, hfresh⟩
      exact hfresh c List.mem_cons_self heq

/-- Insertion keeps a list strictly increasing by key. -/
theorem emplaceSorted_sorted {key : α → κ} {a : α} {l : List α}
    (hsorted : l.Pairwise (fun x y => key x < key y)) :
    (emplaceSorted key a l).Pairwise (fun x y => key x < key y) := by
  induction l with
  | nil => simp [emplaceSorted]
  | cons c l ih =>
    obtain ⟨hhead, htail⟩ := List.pairwise_cons.mp hsorted
    unfold emplaceSorted
    split_ifs with hlt hgt
    · refine List.pairwise_cons.mpr ⟨?_, hsorted⟩
      intro d hd
      rcases List.mem_cons.mp hd with rfl | hd
      · exact hlt
      · exact hlt.trans (hhead d hd)
    · refine List.pairwise_cons.mpr ⟨?_, ih htail⟩
      intro d hd
      rcases (mem_emplaceSorted htail).mp hd with hd | ⟨rfl, _⟩
      · exact hhead d hd
      · exact hgt
    · exact hsorted

/-- An element above every stored key is appended. -/
theorem emplaceSorted_of_forall_lt {key : α → κ} {a : α} {l : List α}
    (habove : ∀ b ∈ l, key b < key a) : emplaceSorted key a l = l ++ [a] := by
  induction l with
  | nil => rfl
  | cons c l ih =>
    have hc : key c < key a := habove c List.mem_cons_self
    have htail := ih (fun b hb => habove b (List.mem_cons_of_mem c hb))
    simp [emplaceSorted, hc, hc.not_gt, htail]

/-- An ordered set of elements compared through `key`, as the list its
iteration visits. -/
structure KeyedSet (key : α → κ) where
  /-- The elements in iteration order. -/
  items : List α
  /-- Keys strictly increase along the iteration. -/
  sorted : items.Pairwise (fun x y => key x < key y)

namespace KeyedSet

variable {key : α → κ}

/-- The set without elements. -/
def empty : KeyedSet key := ⟨[], List.Pairwise.nil⟩

/-- Insert one element unless its key is present. -/
def emplace (s : KeyedSet key) (a : α) : KeyedSet key :=
  ⟨emplaceSorted key a s.items, emplaceSorted_sorted s.sorted⟩

/-- Insert the elements of a range, first one first. -/
def insertRange (s : KeyedSet key) (l : List α) : KeyedSet key := l.foldl emplace s

/-- The set built from a range. -/
def ofRange (l : List α) : KeyedSet key := empty.insertRange l

/-- Remove the element with the greatest key, if there is one. -/
def eraseLast (s : KeyedSet key) : KeyedSet key :=
  ⟨s.items.dropLast, s.sorted.sublist (List.dropLast_sublist _)⟩

instance : Membership α (KeyedSet key) := ⟨fun s a => a ∈ s.items⟩

instance [DecidableEq α] (a : α) (s : KeyedSet key) : Decidable (a ∈ s) :=
  inferInstanceAs (Decidable (a ∈ s.items))

/-- Membership is membership in the iteration. -/
@[simp] theorem mem_items {a : α} {s : KeyedSet key} : a ∈ s.items ↔ a ∈ s := Iff.rfl

/-- Nothing is in the empty set. -/
@[simp] theorem notMem_empty {a : α} : a ∉ (empty : KeyedSet key) := List.not_mem_nil

/-- Sets with the same iteration are equal. -/
theorem eq_of_items {s t : KeyedSet key} (h : s.items = t.items) : s = t := by
  cases s
  cases t
  congr

/-- Sets with the same elements are equal: the order leaves one iteration. -/
theorem eq_of_mem_iff {s t : KeyedSet key} (h : ∀ a, a ∈ s ↔ a ∈ t) : s = t := by
  have hnodup (u : KeyedSet key) : u.items.Nodup :=
    u.sorted.imp (fun hlt heq => hlt.ne (congrArg key heq))
  apply eq_of_items
  have hperm : s.items.Perm t.items :=
    (List.perm_ext_iff_of_nodup (hnodup s) (hnodup t)).mpr h
  refine List.Perm.eq_of_pairwise ?_ s.sorted t.sorted hperm
  intro a b _ _ hab hba
  exact absurd hab hba.not_gt

/-- Insertion adds the element exactly when its key is absent. -/
theorem mem_emplace {a b : α} {s : KeyedSet key} :
    b ∈ s.emplace a ↔ b ∈ s ∨ (b = a ∧ ∀ c ∈ s, key c ≠ key a) :=
  mem_emplaceSorted s.sorted

/-- A range that increases by key and lies above the set is appended. -/
theorem insertRange_items_of_sorted {s : KeyedSet key} {l : List α}
    (hsorted : (s.items ++ l).Pairwise (fun x y => key x < key y)) :
    (s.insertRange l).items = s.items ++ l := by
  induction l generalizing s with
  | nil => simp [insertRange]
  | cons a l ih =>
    have habove : ∀ b ∈ s.items, key b < key a := by
      intro b hb
      exact (List.pairwise_append.mp hsorted).2.2 b hb a List.mem_cons_self
    have hitems : (s.emplace a).items = s.items ++ [a] := emplaceSorted_of_forall_lt habove
    have hstep := ih (s := s.emplace a) (by simpa [hitems] using hsorted)
    simpa [insertRange, hitems] using hstep

/-- Rebuilding a set from an increasing list gives that list back. -/
theorem ofRange_items_of_sorted {l : List α}
    (hsorted : l.Pairwise (fun x y => key x < key y)) :
    (ofRange l : KeyedSet key).items = l := by
  have h := insertRange_items_of_sorted (s := (empty : KeyedSet key)) (l := l)
    (by simpa [empty] using hsorted)
  simpa [ofRange, empty] using h

/-- Rebuilding a set from its own iteration gives the set back. -/
@[simp] theorem ofRange_items (s : KeyedSet key) : ofRange s.items = s :=
  eq_of_items (ofRange_items_of_sorted s.sorted)

section SelfKeyed

variable {s : KeyedSet (id : κ → κ)}

/-- When elements are their own keys, insertion is set insertion. -/
@[simp] theorem mem_emplace_id {a b : κ} : b ∈ s.emplace a ↔ b ∈ s ∨ b = a := by
  rw [mem_emplace]
  constructor
  · rintro (h | ⟨h, _⟩)
    · exact Or.inl h
    · exact Or.inr h
  · rintro (h | rfl)
    · exact Or.inl h
    · by_cases hb : b ∈ s
      · exact Or.inl hb
      · refine Or.inr ⟨rfl, fun c hc heq => hb ?_⟩
        have heq : c = b := heq
        rwa [← heq]

/-- When elements are their own keys, inserting a range is a union. -/
@[simp] theorem mem_insertRange_id {b : κ} {l : List κ} :
    b ∈ s.insertRange l ↔ b ∈ s ∨ b ∈ l := by
  induction l generalizing s with
  | nil => simp [insertRange]
  | cons a l ih =>
    have h : b ∈ (s.emplace a).insertRange l ↔ b ∈ s.emplace a ∨ b ∈ l := ih
    change b ∈ (s.emplace a).insertRange l ↔ _
    rw [h, mem_emplace_id, List.mem_cons, or_assoc]

/-- The set built from a range of keys has the range's members. -/
@[simp] theorem mem_ofRange_id {b : κ} {l : List κ} :
    b ∈ (ofRange l : KeyedSet (id : κ → κ)) ↔ b ∈ l := by
  simp [ofRange]

end SelfKeyed

end KeyedSet

end Containers
