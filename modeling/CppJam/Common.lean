import CppJam.Types
import Mathlib.Algebra.Group.Nat.Defs

/-!
# Notation shared by the state transitions

The small functions on byte arrays and sequences under which the transitions are
written: search in a range, concatenation, little-endian integers, prefixes and
cyclic indexing.
-/

namespace CppJam

open Bytes

variable {m n : ℕ}

/-- `qtils::cxx23::ranges::contains`. -/
def contains {α : Type} [DecidableEq α] (range : List α) (a : α) : Bool :=
  range.any (fun b => b = a)

/-- A range contains its elements. -/
@[simp] theorem contains_iff {α : Type} [DecidableEq α] {range : List α} {a : α} :
    contains range a = true ↔ a ∈ range := by
  simp [contains]

/-- `operator[]` of a vector. -/
def element {α : Type} (s : List α) (i : ℕ) : Except Abort α :=
  match s[i]? with
  | some a => .ok a
  | none => .error .undefinedBehaviour

/-- An index inside the vector gives its element. -/
@[simp] theorem element_eq_ok {α : Type} {s : List α} {i : ℕ} {a : α} :
    element s i = .ok a ↔ s[i]? = some a := by
  unfold element
  cases s[i]? <;> simp

/-- `first_bytes`. -/
def firstBytes (n : ℕ) (bytes : List Byte) : Except Abort (ByteArr n) :=
  if h : n ≤ bytes.length then .ok ⟨bytes.take n, by simp [h]⟩
  else .error (.logicError "first_bytes")

/-- `circlearrowleft`: cyclic indexing. The index is reduced modulo the size, so
only an empty sequence fails. -/
def circlearrowleft {α : Type} (s : List α) (i : ℕ) : Except Abort α :=
  match s[i % s.length]? with
  | some a => .ok a
  | none => .error .undefinedBehaviour

/-- `frown`: concatenation. -/
def frown (x : ByteArr m) (y : ByteArr n) : ByteArr (m + n) :=
  ⟨x.bytes ++ y.bytes, by rw [List.length_append, x.size_eq, y.size_eq]⟩

/-- `doubleplus`: append one octet. -/
def doubleplus (x : ByteArr n) (i : UInt8) : ByteArr (n + 1) := frown x ⟨[i], rfl⟩

/-- `mathcal_E`: the `n` low octets of a number, least significant first. -/
def mathcalE (n x : ℕ) : ByteArr n :=
  ⟨(List.range n).map (fun i => UInt8.ofNat (x / 256 ^ i)), by simp⟩

/-- `de`: the number with the given octets, least significant first. -/
def de (x : ByteArr n) : ℕ := x.bytes.foldr (fun b rest => b.toNat + 256 * rest) 0

end CppJam
