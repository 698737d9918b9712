import Mathlib.Data.List.DropRight
import Mathlib.Data.List.TakeWhile

/-!
# Scanning lists

A scanner cuts a list where a predicate stops to hold. A cut is determined by what the
parts are: a front on which the predicate holds and a rest that does not start with it.
Trimming cuts at both ends.
-/

namespace Scanning

variable {α : Type*} {p : α → Bool} {l front mid back rest : List α}

/-- What remains behind a front on which the predicate holds, when it stops there. -/
theorem dropWhile_append_stop (hfront : ∀ a ∈ front, p a) (hrest : ∀ a ∈ rest.head?, ¬p a) :
    (front ++ rest).dropWhile p = rest := by
  rw [List.dropWhile_append_of_pos hfront]
  cases rest with
  | nil => rfl
  | cons a rest => rw [List.dropWhile_cons_of_neg (hrest a rfl)]

/-- What remains does not start with an element on which the predicate holds. -/
theorem not_of_mem_head?_dropWhile {a : α} (ha : a ∈ (l.dropWhile p).head?) : ¬p a := by
  have hnot := List.head?_dropWhile_not p l
  rw [Option.mem_def.mp ha] at hnot
  simpa using hnot

/-- Every list starts with elements on which the predicate holds, before a rest that does
not. -/
theorem exists_scan (p : α → Bool) (l : List α) :
    ∃ front rest, l = front ++ rest ∧ (∀ a ∈ front, p a) ∧ ∀ a ∈ rest.head?, ¬p a :=
  ⟨l.takeWhile p, l.dropWhile p, List.takeWhile_append_dropWhile.symm,
    fun _ ha => List.mem_takeWhile_imp ha, fun _ ha => not_of_mem_head?_dropWhile ha⟩

/-- The position of the first element on which the predicate does not hold. -/
def findFirstNot (p : α → Bool) (l : List α) : Option ℕ := l.findIdx? (fun a => !p a)

/-- The position of the last element on which the predicate does not hold. -/
def findLastNot (p : α → Bool) (l : List α) : Option ℕ :=
  (findFirstNot p l.reverse).map (fun i => l.length - 1 - i)

/-- The elements from the first to the last one on which the predicate does not hold. -/
def trimmed (p : α → Bool) (l : List α) : Option (List α) :=
  match findFirstNot p l, findLastNot p l with
  | some first, some last => some ((l.drop first).take (last - first + 1))
  | _, _ => none

/-- A list that neither starts nor ends with an element on which the predicate holds. -/
structure Solid (p : α → Bool) (l : List α) : Prop where
  /-- The first element. -/
  head : ∀ a ∈ l.head?, ¬p a
  /-- The last element. -/
  last : ∀ a ∈ l.getLast?, ¬p a

/-- The first position behind a front on which the predicate holds. -/
theorem findFirstNot_append (hfront : ∀ a ∈ front, p a) (hne : rest ≠ [])
    (hrest : ∀ a ∈ rest.head?, ¬p a) : findFirstNot p (front ++ rest) = some front.length := by
  obtain ⟨a, rest, rfl⟩ := List.exists_cons_of_ne_nil hne
  have hnone : front.findIdx? (fun a => !p a) = none := by
    simpa [List.findIdx?_eq_none_iff] using hfront
  have ha : p a = false := by simpa using hrest a rfl
  simp [findFirstNot, List.findIdx?_append, hnone, List.findIdx?_cons, ha]

/-- Trimming finds the solid part of a list. -/
theorem trimmed_append (hfront : ∀ a ∈ front, p a) (hback : ∀ a ∈ back, p a) (hne : mid ≠ [])
    (hmid : Solid p mid) : trimmed p (front ++ mid ++ back) = some mid := by
  have hfirst : findFirstNot p (front ++ mid ++ back) = some front.length := by
    rw [List.append_assoc]
    refine findFirstNot_append hfront (by simp [hne]) ?_
    rw [List.head?_append_of_ne_nil mid hne]
    exact hmid.head
  have hlast : findLastNot p (front ++ mid ++ back) = some (front.length + mid.length - 1) := by
    have hreverse : findFirstNot p (front ++ mid ++ back).reverse = some back.length := by
      have hlength : back.length = back.reverse.length := List.length_reverse.symm
      rw [List.reverse_append, List.reverse_append, hlength]
      refine findFirstNot_append (by simpa using hback) (by simp [hne]) ?_
      rw [List.head?_append_of_ne_nil _ (by simpa using hne), List.head?_reverse]
      exact hmid.last
    rw [findLastNot, hreverse, Option.map_some]
    simp only [List.length_append]
    congr 1
    omega
  have hpos : 0 < mid.length := List.length_pos_iff.mpr hne
  have hcount : front.length + mid.length - 1 - front.length + 1 = mid.length := by omega
  simp only [trimmed, hfirst, hlast, hcount]
  rw [List.append_assoc, List.drop_left, List.take_left]

/-- Every list ends in elements on which the predicate holds, behind a part that does not. -/
theorem exists_trimmed_end (p : α → Bool) (l : List α) :
    ∃ front back, l = front ++ back ∧ (∀ a ∈ back, p a) ∧ ∀ a ∈ front.getLast?, ¬p a := by
  refine ⟨l.rdropWhile p, l.rtakeWhile p, List.rdropWhile_append_rtakeWhile.symm, ?_, ?_⟩
  · exact fun a ha => List.mem_rtakeWhile_imp ha
  · intro a ha
    rw [List.rdropWhile, List.getLast?_reverse] at ha
    exact not_of_mem_head?_dropWhile ha

/-- A list on which the predicate holds throughout has nothing left. -/
theorem trimmed_eq_none (hall : ∀ a ∈ l, p a) : trimmed p l = none := by
  have hnone : findFirstNot p l = none := by
    simpa [findFirstNot, List.findIdx?_eq_none_iff] using hall
  simp only [trimmed, hnone]

/-- Trimming leaves exactly the solid part between two ends on which the predicate holds. -/
theorem trimmed_eq_some_iff : trimmed p l = some mid ↔
    mid ≠ [] ∧ Solid p mid ∧
      ∃ front back, l = front ++ mid ++ back ∧ (∀ a ∈ front, p a) ∧ ∀ a ∈ back, p a := by
  constructor
  · intro htrimmed
    obtain ⟨inner, back, hinner, hback, hlast⟩ := exists_trimmed_end p (l.dropWhile p)
    have hsplit : l = l.takeWhile p ++ inner ++ back := by
      rw [List.append_assoc, ← hinner, List.takeWhile_append_dropWhile]
    have hfront : ∀ a ∈ l.takeWhile p, p a := fun a ha => List.mem_takeWhile_imp ha
    by_cases hne : inner = []
    · rw [trimmed_eq_none] at htrimmed
      · cases htrimmed
      · rw [hsplit, hne, List.append_nil]
        exact List.forall_mem_append.mpr ⟨hfront, hback⟩
    · have hsolid : Solid p inner := by
        refine ⟨fun a ha => not_of_mem_head?_dropWhile (l := l) ?_, hlast⟩
        rw [hinner, List.head?_append_of_ne_nil _ hne]
        exact ha
      have hmid : inner = mid := by
        rw [hsplit, trimmed_append hfront hback hne hsolid] at htrimmed
        exact Option.some.inj htrimmed
      rw [← hmid]
      exact ⟨hne, hsolid, _, back, hsplit, hfront, hback⟩
  · rintro ⟨hne, hsolid, front, back, rfl, hfront, hback⟩
    exact trimmed_append hfront hback hne hsolid

end Scanning
