import Mathlib.Data.Nat.Init
import Mathlib.Tactic.Common

/-!
# Symbols that are absorbed one at a time

A sponge adds a block of symbols to its state and permutes the state. A stream adds every symbol
when it comes, and permutes the state when the block is full. Both end in the same state.
-/

/-- A state to which symbols are added at the offsets of a block. -/
structure Sponge (σ β : Type) where
  /-- The length of a block. -/
  rate : ℕ
  /-- Blocks are not empty. -/
  rate_pos : 0 < rate
  /-- Add a symbol at an offset. -/
  add : σ → ℕ → β → σ
  /-- The permutation between two blocks. -/
  permute : σ → σ

namespace Sponge

variable {σ β : Type} (S : Sponge σ β)

/-- Add symbols one after another. -/
def addAll (s : σ) (off : ℕ) : List β → σ
  | [] => s
  | b :: l => addAll (S.add s off b) (off + 1) l

/-- Add the symbol that comes next. -/
def push (p : σ × ℕ) (b : β) : σ × ℕ :=
  if p.2 + 1 = S.rate then (S.permute (S.add p.1 p.2 b), 0) else (S.add p.1 p.2 b, p.2 + 1)

/-- Absorb a message block by block. -/
def absorbBlocks (s : σ) (l : List β) : σ :=
  (List.range (l.length / S.rate)).foldl
    (fun s i => S.permute (S.addAll s 0 ((l.drop (S.rate * i)).take S.rate))) s

/-- Symbols in two parts. -/
theorem addAll_append (s : σ) (off : ℕ) (l m : List β) :
    S.addAll s off (l ++ m) = S.addAll (S.addAll s off l) (off + l.length) m := by
  induction l generalizing s off with
  | nil => rfl
  | cons b l ih =>
    rw [List.cons_append, addAll, ih, addAll, List.length_cons, Nat.add_right_comm off 1,
      Nat.add_assoc]

/-- A symbol that changes nothing can be added any number of times. -/
theorem addAll_replicate {b : β} (hb : ∀ s off, S.add s off b = s) (s : σ) (off n : ℕ) :
    S.addAll s off (List.replicate n b) = s := by
  induction n generalizing off with
  | zero => rfl
  | succ n ih => rw [List.replicate_succ, addAll, hb, ih]

/-- Symbols that do not fill the block. -/
theorem foldl_push_of_lt (s : σ) {off : ℕ} {l : List β} (h : off + l.length < S.rate) :
    l.foldl S.push (s, off) = (S.addAll s off l, off + l.length) := by
  induction l generalizing s off with
  | nil => rfl
  | cons b l ih =>
    rw [List.length_cons] at h
    have hpush : S.push (s, off) b = (S.add s off b, off + 1) := if_neg (by simp only; omega)
    rw [List.foldl_cons, hpush, ih _ (by omega), List.length_cons, addAll,
      Nat.add_right_comm off 1, Nat.add_assoc]

/-- Symbols that fill the block. -/
theorem foldl_push_of_eq (s : σ) {off : ℕ} {l : List β} (hoff : off < S.rate)
    (h : off + l.length = S.rate) :
    l.foldl S.push (s, off) = (S.permute (S.addAll s off l), 0) := by
  induction l generalizing s off with
  | nil => exact absurd h (by simp only [List.length_nil]; omega)
  | cons b l ih =>
    rw [List.length_cons] at h
    rw [List.foldl_cons, addAll]
    by_cases hl : l = []
    · subst hl
      have hpush : S.push (s, off) b = (S.permute (S.add s off b), 0) := if_pos h
      rw [hpush, List.foldl_nil, addAll]
    · have hpos := List.length_pos_iff.mpr hl
      have hpush : S.push (s, off) b = (S.add s off b, off + 1) := if_neg (by simp only; omega)
      rw [hpush, ih _ (by omega) (by omega)]

/-- The offset is the length of what was absorbed, up to whole blocks. -/
theorem foldl_push_snd (s : σ) {off : ℕ} (hoff : off < S.rate) (l : List β) :
    (l.foldl S.push (s, off)).2 = (off + l.length) % S.rate := by
  induction l generalizing s off with
  | nil => exact (Nat.mod_eq_of_lt hoff).symm
  | cons b l ih =>
    rw [List.foldl_cons, List.length_cons, push]
    by_cases hfull : off + 1 = S.rate
    · have hlen : off + (l.length + 1) = l.length + S.rate := by omega
      rw [if_pos hfull, ih _ S.rate_pos, hlen, Nat.add_mod_right, Nat.zero_add]
    · rw [if_neg hfull, ih _ (by omega), Nat.add_right_comm, Nat.add_assoc]

/-- The first blocks of a message. -/
theorem foldl_push_take (s : σ) {l : List β} {n : ℕ} (h : S.rate * n ≤ l.length) :
    (l.take (S.rate * n)).foldl S.push (s, 0) = ((List.range n).foldl
      (fun s i => S.permute (S.addAll s 0 ((l.drop (S.rate * i)).take S.rate))) s, 0) := by
  induction n with
  | zero => rfl
  | succ n ih =>
    rw [Nat.mul_succ] at h
    have hblock : ((l.drop (S.rate * n)).take S.rate).length = S.rate := by
      rw [List.length_take, List.length_drop]
      omega
    rw [Nat.mul_succ, List.take_add, List.foldl_append, ih (by omega),
      S.foldl_push_of_eq _ S.rate_pos (by omega), List.range_succ, List.foldl_append]
    rfl

/-- A message of whole blocks is absorbed block by block. -/
theorem foldl_push_of_dvd (s : σ) {l : List β} (h : S.rate ∣ l.length) :
    l.foldl S.push (s, 0) = (S.absorbBlocks s l, 0) := by
  have hlen : S.rate * (l.length / S.rate) = l.length := Nat.mul_div_cancel' h
  have htake := S.foldl_push_take s (Nat.le_of_eq hlen)
  rw [hlen, List.take_length] at htake
  exact htake

end Sponge
