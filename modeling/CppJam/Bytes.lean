import Mathlib.Data.List.Lex
import Mathlib.Order.Basic

/-!
# Fixed-size byte arrays

Hashes, keys, signatures and ring commitments are byte arrays of a size known
at compile time. They are compared byte by byte from the front, as arrays of
unsigned characters are. The size is a field of the value, so an array of
another length cannot be built.
-/

namespace Bytes

/-- One octet. -/
abbrev Byte := UInt8

/-- A byte array of exactly `n` octets. -/
structure ByteArr (n : ℕ) where
  /-- The octets, first one first. -/
  bytes : List Byte
  /-- The array has its declared size. -/
  size_eq : bytes.length = n

namespace ByteArr

variable {n : ℕ}

/-- Arrays are equal when their octets are. -/
@[ext] theorem ext {a b : ByteArr n} (h : a.bytes = b.bytes) : a = b := by
  cases a
  cases b
  congr

/-- The octets as numbers, which is what the comparison looks at. -/
def values (a : ByteArr n) : List ℕ := a.bytes.map UInt8.toNat

/-- Different arrays have different octet values. -/
theorem values_injective : Function.Injective (values (n := n)) := by
  intro a b h
  apply ext
  exact List.map_injective_iff.mpr (fun x y hxy => UInt8.toNat_inj.mp hxy) h

/-- Lexicographic comparison of the octets, a linear order. -/
instance : LinearOrder (ByteArr n) := LinearOrder.lift' values values_injective

/-- The array whose octets all equal `b`; a value-initialised array is `fill 0`. -/
def fill (b : Byte) : ByteArr n := ⟨List.replicate n b, List.length_replicate⟩

end ByteArr

end Bytes
