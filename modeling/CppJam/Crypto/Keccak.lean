import CppJam.Bytes
import Mathlib.Algebra.GroupWithZero.Nat
import Mathlib.Data.List.FinRange

/-!
# The Keccak hash

`keccak.hpp`: a hasher keeps a state of 25 words and the offset of the next byte in the current
block. Bytes are added to the state one at a time; a full block is absorbed by a permutation of
24 rounds, which the code computes in place. The hash adds the padding and reads the first 32
bytes of the state.

Every round rotates one word by 0, and `rotl64` then shifts it to the right by 64, its whole
width. The language leaves that shift undefined, so what it gives is a parameter of the model.
-/

namespace CppJam.Crypto

open Bytes

/-- The indices of the words are numbers. -/
scoped instance neZero_five : NeZero 5 := ⟨by decide⟩

/-- The indices of the bits are numbers. -/
scoped instance neZero_sixtyFour : NeZero 64 := ⟨by decide⟩

/-- `uint64_t`. -/
abbrev Word := BitVec 64

/-- `uint64_t[5][5]`. -/
abbrev Lanes := Vector (Vector Word 5) 5

namespace Lanes

/-- `a[x][y]`. -/
def lane (a : Lanes) (x y : Fin 5) : Word := a[x.val][y.val]

/-- `a[x][y] = v`. -/
def setLane (a : Lanes) (x y : Fin 5) (v : Word) : Lanes :=
  a.set x.val (a[x.val].set y.val v)

/-- All words are zero. -/
def zero : Lanes := Vector.replicate 5 (Vector.replicate 5 0)

end Lanes

/-- The loops over `x` and `y`. -/
def forXY {σ : Type} (body : σ → Fin 5 × Fin 5 → σ) (s : σ) : σ :=
  (List.finRange 5).foldl (fun s x => (List.finRange 5).foldl (fun s y => body s (x, y)) s) s

section Rounds

-- What the machine gives for a shift to the right by the whole width of the word.
variable (oversized : Word → Word)

/-- `x >> n`. -/
def shiftRight (x : Word) (n : ℕ) : Word := if n < 64 then x >>> n else oversized x

/-- `rotl64`. -/
def rotl64 (x : Word) (i : ℕ) : Word := (x <<< i) ||| shiftRight oversized x (64 - i)

/-- The undefined shift sets no bit that the word does not have. A machine that takes the count
modulo 64 gives the word itself, and one that moves all bits out gives zero. -/
def AddsNoBit : Prop := ∀ x : Word, x ||| oversized x = x

/-- `NUM_ROUNDS`. -/
def numRounds : ℕ := 24

/-- `ROTATION`. -/
def rotationTable : Vector (Vector ℕ 5) 5 :=
  #v[#v[0, 36, 3, 41, 18],
    #v[1, 44, 10, 45, 2],
    #v[62, 6, 43, 15, 61],
    #v[28, 55, 25, 21, 56],
    #v[27, 20, 39, 8, 14]]

/-- `ROTATION[x][y]`. -/
def rotation (x y : Fin 5) : ℕ := rotationTable[x.val][y.val]

/-- `c` of the theta step: every entry is finished by the loop over `y`. -/
def columnSums (a : Lanes) : Vector Word 5 :=
  Vector.ofFn fun x => (List.finRange 5).foldl (fun c y => c ^^^ a.lane x y) 0

/-- `c[x]`. -/
def columnSum (sums : Vector Word 5) (x : Fin 5) : Word := sums[x.val]

/-- `d` of the theta step. -/
def columnDelta (sums : Vector Word 5) (x : Fin 5) : Word :=
  columnSum sums (x + 4) ^^^ rotl64 oversized (columnSum sums (x + 1)) 1

/-- The theta step. -/
def thetaStep (a : Lanes) : Lanes :=
  let c := columnSums a
  forXY (fun a p => a.setLane p.1 p.2 (a.lane p.1 p.2 ^^^ columnDelta oversized c p.1)) a

/-- The rho and pi steps, which fill an array of their own. -/
def rhoPiStep (a : Lanes) : Lanes :=
  forXY (fun b p => b.setLane p.2 (p.1 * 2 + p.2 * 3)
    (rotl64 oversized (a.lane p.1 p.2) (rotation p.1 p.2))) Lanes.zero

/-- The chi step, from the array of the step before. -/
def chiStep (a b : Lanes) : Lanes :=
  forXY (fun a p => a.setLane p.1 p.2
    (b.lane p.1 p.2 ^^^ (~~~b.lane (p.1 + 1) p.2 &&& b.lane (p.1 + 2) p.2))) a

/-- The shift register of the iota step, which is cut to 8 bits. -/
def nextLfsr (r : BitVec 8) : BitVec 8 :=
  BitVec.ofNat 8 ((r.toNat <<< 1) ^^^ ((r.toNat >>> 7) * 0x171))

/-- A pass of the loop of the iota step. -/
def iotaPass (s : Lanes × BitVec 8) (j : ℕ) : Lanes × BitVec 8 :=
  (s.1.setLane 0 0 (s.1.lane 0 0 ^^^ ((s.2 &&& 1).setWidth 64 <<< ((1 <<< j) - 1))),
    nextLfsr s.2)

/-- The iota step. -/
def iotaStep (a : Lanes) (r : BitVec 8) : Lanes × BitVec 8 := (List.range 7).foldl iotaPass (a, r)

/-- One round, with the shift register. -/
def round (s : Lanes × BitVec 8) : Lanes × BitVec 8 :=
  let a := thetaStep oversized s.1
  iotaStep (chiStep a (rhoPiStep oversized a)) s.2

/-- `absorb`. -/
def absorb (a : Lanes) : Lanes :=
  ((List.range numRounds).foldl (fun s _ => round oversized s) (a, 1)).1

end Rounds

/-- `HASH_LEN`. -/
def hashLen : ℕ := 32

/-- `BLOCK_SIZE`. -/
def blockSize : ℕ := 200 - hashLen * 2

/-- Add a byte to the state at an offset of the block. -/
def xorByte (a : Lanes) (off : ℕ) (byte : Byte) : Lanes :=
  let j := off >>> 3
  let x := Fin.ofNat 5 (j % 5)
  let y := Fin.ofNat 5 (j / 5)
  a.setLane x y (a.lane x y ^^^ (byte.toBitVec.setWidth 64 <<< ((off &&& 7) <<< 3)))

/-- `Keccak`. The offset is inside the block between calls. -/
structure Keccak where
  /-- `state`. -/
  state : Lanes
  /-- `blockOff`. -/
  blockOff : ℕ
  /-- A full block is absorbed at once. -/
  blockOff_lt : blockOff < blockSize

namespace Keccak

/-- A new hasher. -/
def new : Keccak := ⟨Lanes.zero, 0, by decide⟩

variable (oversized : Word → Word)

/-- `update` with one byte. -/
def update (k : Keccak) (byte : Byte) : Keccak :=
  let state := xorByte k.state k.blockOff byte
  if hfull : k.blockOff + 1 = blockSize then ⟨absorb oversized state, 0, by decide⟩
  else ⟨state, k.blockOff + 1, lt_of_le_of_ne k.blockOff_lt hfull⟩

/-- `update` with several bytes. -/
def updateAll (k : Keccak) (input : List Byte) : Keccak := input.foldl (update oversized) k

/-- `finalize`: the hash, little endian. -/
def finalize (k : Keccak) : List Byte :=
  let state := xorByte k.state k.blockOff 0x01
  let state := absorb oversized (xorByte state (blockSize - 1) 0x80)
  (List.range hashLen).map fun i =>
    let j := i >>> 3
    ⟨(state.lane (Fin.ofNat 5 (j % 5)) (Fin.ofNat 5 (j / 5)) >>> ((i &&& 7) <<< 3)).setWidth 8⟩

/-- `hash` of a hasher, which works on a copy. -/
def hash (k : Keccak) : List Byte := k.finalize oversized

/-- `hash` of an input. -/
def hashOf (input : List Byte) : List Byte :=
  (new.updateAll oversized input).hash oversized

end Keccak

end CppJam.Crypto
