import Mathlib.Data.List.Sort

/-!
# A queue sorted by key, first come first served

Elements are queued by a key. A new element goes in front of the first one with a
greater key, which is where `std::upper_bound` points in a sorted range, so elements
with equal keys stay in the order in which they came. The order of arrival is recorded
by a stamp that grows with every insertion.
-/

namespace Containers

variable {α κ : Type} [LinearOrder κ] (key : α → κ) (stamp : α → ℕ)

/-- The element has a smaller key, or an equal one and came earlier. -/
def Precedes (a b : α) : Prop := key a < key b ∨ (key a = key b ∧ stamp a < stamp b)

/-- Insert an element in front of the first one with a greater key. -/
def enqueue (a : α) (queue : List α) : List α := queue.orderedInsert (fun a b => key a < key b) a

variable {key stamp}

/-- An element that comes before has no greater key. -/
theorem Precedes.key_le {a b : α} (hab : Precedes key stamp a b) : key a ≤ key b := by
  rcases hab with hlt | ⟨heq, _⟩
  · exact hlt.le
  · exact heq.le

/-- The queue gains the inserted element. -/
@[simp] theorem mem_enqueue {a b : α} {queue : List α} :
    b ∈ enqueue key a queue ↔ b = a ∨ b ∈ queue :=
  List.mem_orderedInsert _

/-- The queue gains nothing else. -/
theorem enqueue_perm (a : α) (queue : List α) : (enqueue key a queue).Perm (a :: queue) :=
  List.perm_orderedInsert _ a queue

/-- An element with the greatest key comes last. -/
theorem enqueue_of_forall_le {a : α} {queue : List α} (hqueue : ∀ b ∈ queue, key b ≤ key a) :
    enqueue key a queue = queue ++ [a] := by
  induction queue with
  | nil => rfl
  | cons b queue ih =>
    obtain ⟨hb, hqueue⟩ := List.forall_mem_cons.mp hqueue
    rw [enqueue, List.orderedInsert_cons, if_neg (not_lt.mpr hb), List.cons_append, ← ih hqueue]
    rfl

/-- Inserting the latest element keeps the queue in order. -/
theorem pairwise_enqueue {a : α} {queue : List α} (hqueue : queue.Pairwise (Precedes key stamp))
    (hlatest : ∀ b ∈ queue, stamp b < stamp a) :
    (enqueue key a queue).Pairwise (Precedes key stamp) := by
  induction queue with
  | nil => simp [enqueue]
  | cons b queue ih =>
    rw [List.pairwise_cons] at hqueue
    rw [List.forall_mem_cons] at hlatest
    by_cases hlt : key a < key b
    · rw [enqueue, List.orderedInsert_cons, if_pos hlt, List.pairwise_cons, List.forall_mem_cons,
        List.pairwise_cons]
      exact ⟨⟨Or.inl hlt, fun c hc => Or.inl (hlt.trans_le (hqueue.1 c hc).key_le)⟩, hqueue⟩
    · rw [enqueue, List.orderedInsert_cons, if_neg hlt, List.pairwise_cons]
      refine ⟨?_, ih hqueue.2 hlatest.2⟩
      intro c hc
      rcases mem_enqueue.mp hc with rfl | hc
      · rcases (not_lt.mp hlt).lt_or_eq with hkey | hkey
        · exact Or.inl hkey
        · exact Or.inr ⟨hkey, hlatest.1⟩
      · exact hqueue.1 c hc

end Containers
