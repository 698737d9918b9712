import Mathlib.Data.List.Basic

/-!
# The hash of a function name

`compile-time_murmur2.hpp`: the 32-bit hash under which engines are kept. The text is
taken four characters at a time, the rest of it is mixed in from its last character
on, and the result is mixed once more. Characters are signed and are widened with their
sign.
-/

namespace CppJam.Subscriptions.Hasher

/-- A character widened to 32 bits. -/
def widen (c : UInt8) : UInt32 := if c < 128 then c.toUInt32 else c.toUInt32 ||| 4294967040

/-- The multiplier `m`. -/
def m : UInt32 := 0x5bd1e995

/-- `__load__`. -/
def load (c₀ c₁ c₂ c₃ : UInt8) : UInt32 :=
  widen c₀ ||| (widen c₁ <<< 8) ||| (widen c₂ <<< 16) ||| (widen c₃ <<< 24)

/-- `__xor_with_sr__`. -/
def xorWithSr (k r : UInt32) : UInt32 := k ^^^ (k >>> r)

/-- `__proc__` at the end of the text. -/
def proc0 (h : UInt32) : UInt32 := (xorWithSr h 13 * m) ^^^ ((xorWithSr h 13 * m) >>> 15)

/-- `__proc__` with one character left. -/
def proc1 (c₀ : UInt8) (h : UInt32) : UInt32 := proc0 ((h ^^^ widen c₀) * m)

/-- `__proc__` with two characters left. -/
def proc2 (c₀ c₁ : UInt8) (h : UInt32) : UInt32 := proc1 c₀ (h ^^^ (widen c₁ <<< 8))

/-- `__proc__` with three characters left. -/
def proc3 (c₀ c₁ c₂ : UInt8) (h : UInt32) : UInt32 := proc2 c₀ c₁ (h ^^^ (widen c₂ <<< 16))

/-- `__proc__`. -/
def proc : List UInt8 → UInt32 → UInt32
  | c₀ :: c₁ :: c₂ :: c₃ :: rest, h =>
    proc rest ((h * m) ^^^ (xorWithSr (load c₀ c₁ c₂ c₃ * m) 24 * m))
  | [c₀, c₁, c₂], h => proc3 c₀ c₁ c₂ h
  | [c₀, c₁], h => proc2 c₀ c₁ h
  | [c₀], h => proc1 c₀ h
  | [], h => proc0 h

/-- `murmur2`, started with the length of the text. -/
def murmur2 (data : List UInt8) : UInt32 := proc data (0 ^^^ UInt32.ofNat data.length)

/-- The characters of a text. -/
def chars (text : String) : List UInt8 := text.toUTF8.data.toList

-- the values that the source asserts
example : murmur2 (chars "Called the One Ring, or the Ruling Ring.") = 1333588607 := by
  decide +kernel

example : murmur2 (chars ("Fashioned by Sauron a decade after the making of the Elven " ++
    "rings in the fires of Mount Doom in Mordor and which")) = 1319897327 := by
  decide +kernel

example : murmur2 (chars "could only be destroyed in that same fire.") = 702138758 := by
  decide +kernel

end CppJam.Subscriptions.Hasher
