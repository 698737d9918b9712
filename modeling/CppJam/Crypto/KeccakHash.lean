import CppJam.Crypto.KeccakRounds
import CppJam.Sponge

/-!
# The hash and its calls

The hash function on strings of bits: the message is padded to whole blocks, the blocks are added
to the state with the permutation between them, and the hash is read from the state. Whatever
calls are made on a hasher, in any number of pieces and with hashes taken in between, every hash
it returns is the hash of the bytes that it was given so far, on every machine on which the shift
that the language leaves undefined adds no bit.
-/

namespace CppJam.Crypto

open Bytes

namespace Reference

/-- The bits of a block: 1600 less twice the length of the hash. -/
def rate : ℕ := 1600 - 2 * 256

/-- The place of a bit of the state in the string of all its bits. -/
def position (x y : Fin 5) (z : Fin 64) : ℕ := 64 * (5 * y + x) + z

/-- The bit of the state at a place. -/
def bitAt (a : Bits) (i : ℕ) : Bool :=
  a (Fin.ofNat 5 (i / 64)) (Fin.ofNat 5 (i / 64 / 5)) (Fin.ofNat 64 i)

/-- Add a block to the state. -/
def addBlock (a : Bits) (block : List Bool) : Bits :=
  fun x y z => a x y z ^^ block.getD (position x y z) false

/-- Pad a message to whole blocks: a set bit, clear bits and a set bit. -/
def pad (m : List Bool) : List Bool :=
  m ++ true :: List.replicate ((2 * rate - 2 - m.length % rate) % rate) false ++ [true]

/-- The state after the whole padded message. -/
def absorbed (p : List Bool) : Bits :=
  (List.range (p.length / rate)).foldl
    (fun a i => keccakF (addBlock a ((p.drop (rate * i)).take rate))) (fun _ _ _ => false)

/-- The hash of a message. -/
def keccak256 (m : List Bool) : List Bool := (List.range 256).map (bitAt (absorbed (pad m)))

end Reference

/-- The bits of a byte, the least significant bit first. -/
def byteBits (b : Byte) : List Bool := (List.range 8).map b.toBitVec.getLsbD

/-- The bits of bytes. -/
def bytesBits (l : List Byte) : List Bool := l.flatMap byteBits

/-! ## Bit by bit -/

/-- The state as a sponge for bits. -/
def bitSponge : Sponge Bits Bool where
  rate := Reference.rate
  rate_pos := by decide
  add a i b := fun x y z => a x y z ^^ (Reference.position x y z = i && b)
  permute := Reference.keccakF

/-- The blocks of the sponge. -/
@[simp] theorem bitSponge_rate : bitSponge.rate = Reference.rate := rfl

/-- The permutation of the sponge. -/
theorem bitSponge_permute : bitSponge.permute = Reference.keccakF := by
  rw [bitSponge]

/-- What bits from an offset on add to the state. -/
theorem bitSponge_addAll (a : Bits) (off : ℕ) (l : List Bool) (x y : Fin 5) (z : Fin 64) :
    bitSponge.addAll a off l x y z = (a x y z ^^
      (decide (off ≤ Reference.position x y z) &&
        l.getD (Reference.position x y z - off) false)) := by
  induction l generalizing a off with
  | nil => simp [Sponge.addAll]
  | cons b l ih =>
    rw [Sponge.addAll, ih]
    have hadd : bitSponge.add a off b x y z =
        (a x y z ^^ (Reference.position x y z = off && b)) := rfl
    rw [hadd, Bool.xor_assoc]
    generalize Reference.position x y z = p
    congr 1
    rcases Nat.lt_trichotomy p off with hlt | rfl | hgt
    · simp [hlt.ne, show ¬off ≤ p by omega, show ¬off + 1 ≤ p by omega]
    · simp [show ¬p + 1 ≤ p by omega]
    · obtain ⟨k, rfl⟩ : ∃ k, p = off + 1 + k := ⟨p - (off + 1), by omega⟩
      have hsub : off + 1 + k - off = k + 1 := by omega
      simp [hsub, show ¬off + 1 + k = off by omega, show off ≤ off + 1 + k by omega]

/-- A clear bit changes nothing. -/
theorem bitSponge_add_false (a : Bits) (off : ℕ) : bitSponge.add a off false = a := by
  funext x y z
  simp [bitSponge]

/-- A block is added bit by bit. -/
theorem bitSponge_addBlock (a : Bits) (block : List Bool) :
    bitSponge.addAll a 0 block = Reference.addBlock a block := by
  funext x y z
  rw [bitSponge_addAll]
  simp [Reference.addBlock]

/-- Whole blocks. -/
theorem bitSponge_absorbBlocks (p : List Bool) :
    bitSponge.absorbBlocks (fun _ _ _ => false) p = Reference.absorbed p := by
  unfold Sponge.absorbBlocks Reference.absorbed
  simp only [bitSponge_addBlock, bitSponge_rate, bitSponge_permute]

/-- A bit of a byte. -/
theorem byteBits_getD (byte : Byte) (n : ℕ) :
    (byteBits byte).getD n false = byte.toBitVec.getLsbD n := by
  by_cases hn : n < 8
  · simp [byteBits, hn]
  · rw [BitVec.getLsbD_of_ge _ _ (by omega)]
    simp [byteBits, hn]

/-- The word that holds the byte at an offset. -/
theorem word_of_offset {off : ℕ} (hoff : off < 200) (x y : Fin 5) :
    (Fin.ofNat 5 ((off >>> 3) % 5), Fin.ofNat 5 ((off >>> 3) / 5)) = (x, y) ↔
      off / 8 = 5 * y.val + x.val := by
  rw [Nat.shiftRight_eq_div_pow, Prod.mk.injEq, Fin.ext_iff, Fin.ext_iff, Fin.val_ofNat,
    Fin.val_ofNat]
  omega

/-- The place of a byte in its word. -/
theorem shift_of_offset (off : ℕ) : (off &&& 7) <<< 3 = 8 * (off % 8) := by
  have hand : off &&& 7 = off % 8 := Nat.and_two_pow_sub_one_eq_mod off 3
  rw [hand, Nat.shiftLeft_eq, Nat.mul_comm]

/-- A byte is added bit by bit. -/
theorem bits_xorByte (a : Lanes) {off : ℕ} (hoff : off < 200) (byte : Byte) :
    (xorByte a off byte).bits = bitSponge.addAll a.bits (8 * off) (byteBits byte) := by
  funext x y z
  have hz := z.isLt
  have hpos : Reference.position x y z = 64 * (5 * y.val + x.val) + z.val := rfl
  rw [bitSponge_addAll, byteBits_getD, xorByte, Lanes.bits, Lanes.lane_setLane]
  by_cases hword : off / 8 = 5 * y.val + x.val
  · have hkey := (word_of_offset hoff x y).mpr hword
    obtain ⟨hx, hy⟩ := Prod.mk.inj hkey
    have hplace : Reference.position x y z - 8 * off = z.val - 8 * (off % 8) := by omega
    rw [if_pos hkey, hx, hy, BitVec.getLsbD_xor, BitVec.getLsbD_shiftLeft, BitVec.getLsbD_setWidth,
      shift_of_offset, hplace]
    by_cases hle : 8 * off ≤ Reference.position x y z
    · simp [hle, show ¬z.val < 8 * (off % 8) by omega,
        show z.val - 8 * (off % 8) < 64 by omega, Lanes.bits]
    · simp [hle, show z.val < 8 * (off % 8) by omega, Lanes.bits]
  · rw [if_neg (mt (word_of_offset hoff x y).mp hword)]
    by_cases hle : 8 * off ≤ Reference.position x y z
    · have hout : byte.toBitVec.getLsbD (Reference.position x y z - 8 * off) = false :=
        BitVec.getLsbD_of_ge _ _ (by omega)
      simp [hout, Lanes.bits]
    · simp [hle, Lanes.bits]

/-- The bits of a hash, from the state that it is read from. -/
theorem range_flatMap_range {α : Type} (f : ℕ → α) (m n : ℕ) :
    (List.range n).flatMap (fun i => (List.range m).map fun j => f (m * i + j)) =
      (List.range (m * n)).map f := by
  induction n with
  | zero => rfl
  | succ n ih =>
    rw [List.range_succ, List.flatMap_append, ih, Nat.mul_succ, List.range_add, List.map_append]
    simp

/-- The hash is read from the first bits of the state. -/
theorem bytesBits_finalize (oversized : Word → Word) (k : Keccak) :
    bytesBits (k.finalize oversized) = (List.range 256).map (Reference.bitAt (absorb oversized
      (xorByte (xorByte k.state k.blockOff 0x01) (blockSize - 1) 0x80)).bits) := by
  rw [Keccak.finalize]
  generalize absorb oversized _ = a
  rw [show 256 = 8 * hashLen from rfl, ← range_flatMap_range, bytesBits, List.flatMap_map]
  have hbyte : ∀ i b, b < 8 →
      ((a.lane (Fin.ofNat 5 ((i >>> 3) % 5)) (Fin.ofNat 5 ((i >>> 3) / 5)) >>>
        ((i &&& 7) <<< 3)).setWidth 8).getLsbD b = Reference.bitAt a.bits (8 * i + b) := by
    intro i b hb
    have hx : Fin.ofNat 5 ((i >>> 3) % 5) = Fin.ofNat 5 ((8 * i + b) / 64) := by
      rw [Nat.shiftRight_eq_div_pow, Fin.ext_iff, Fin.val_ofNat, Fin.val_ofNat]
      omega
    have hy : Fin.ofNat 5 ((i >>> 3) / 5) = Fin.ofNat 5 ((8 * i + b) / 64 / 5) := by
      rw [Nat.shiftRight_eq_div_pow, Fin.ext_iff, Fin.val_ofNat, Fin.val_ofNat]
      omega
    have hz : 8 * (i % 8) + b = (8 * i + b) % 64 := by omega
    rw [BitVec.getLsbD_setWidth, BitVec.getLsbD_ushiftRight, shift_of_offset, hx, hy, hz,
      decide_eq_true hb, Bool.true_and]
    rfl
  have hmap (i : ℕ) : byteBits ⟨(a.lane (Fin.ofNat 5 ((i >>> 3) % 5))
      (Fin.ofNat 5 ((i >>> 3) / 5)) >>> ((i &&& 7) <<< 3)).setWidth 8⟩ =
        (List.range 8).map fun b => Reference.bitAt a.bits (8 * i + b) :=
    List.map_congr_left fun b hb => hbyte i b (List.mem_range.mp hb)
  simp only [hmap]

/-! ## Bytes that were taken -/

section Machine

variable {oversized : Word → Word}

/-- A hasher has taken the bits of a message. -/
def Keccak.Represents (k : Keccak) (m : List Bool) : Prop :=
  m.foldl bitSponge.push (fun _ _ _ => false, 0) = (k.state.bits, 8 * k.blockOff)

/-- A new hasher has taken nothing. -/
theorem Keccak.represents_new : Keccak.new.Represents [] := by
  have hzero : Lanes.zero.bits = fun _ _ _ => false := by
    funext x y z
    simp [Lanes.bits, Lanes.lane, Lanes.zero]
  rw [Keccak.Represents, Keccak.new, hzero]
  rfl

/-- A byte is taken by the next bits. -/
theorem Keccak.Represents.update (hshift : AddsNoBit oversized) {k : Keccak} {m : List Bool}
    (h : k.Represents m) (byte : Byte) :
    (k.update oversized byte).Represents (m ++ byteBits byte) := by
  have hoff := k.blockOff_lt
  have hlen : (byteBits byte).length = 8 := by simp [byteBits]
  have hrate : bitSponge.rate = 8 * blockSize := rfl
  have hblock : blockSize ≤ 200 := by decide
  rw [Keccak.Represents, List.foldl_append, h]
  by_cases hfull : k.blockOff + 1 = blockSize
  · rw [bitSponge.foldl_push_of_eq _ (by omega) (by omega), ← bits_xorByte _ (by omega),
      bitSponge_permute, ← bits_absorb hshift, Keccak.update, dif_pos hfull, Nat.mul_zero]
  · rw [bitSponge.foldl_push_of_lt _ (by omega), ← bits_xorByte _ (by omega), Keccak.update,
      dif_neg hfull, hlen, Nat.mul_succ]

/-- Bytes are taken by the next bits. -/
theorem Keccak.Represents.updateAll (hshift : AddsNoBit oversized) {k : Keccak} {m : List Bool}
    (h : k.Represents m) (input : List Byte) :
    (k.updateAll oversized input).Represents (m ++ bytesBits input) := by
  induction input generalizing k m with
  | nil => rwa [bytesBits, List.flatMap_nil, List.append_nil]
  | cons byte input ih =>
    have hrest := ih (h.update hshift byte)
    rw [List.append_assoc] at hrest
    exact hrest

/-! ## The padding -/

/-- The bits that are missing in a block that holds some bytes. -/
def padding (off : ℕ) : List Bool := true :: List.replicate (1086 - 8 * off) false ++ [true]

/-- The padding completes the block. -/
theorem length_padding {off : ℕ} (hoff : off < blockSize) :
    8 * off + (padding off).length = bitSponge.rate := by
  have hrate : bitSponge.rate = 1088 := rfl
  have hblock : blockSize = 136 := rfl
  simp only [padding, List.length_append, List.length_cons, List.length_replicate, List.length_nil]
  omega

/-- The offset of a hasher that has taken a message. -/
theorem Keccak.Represents.offset {k : Keccak} {m : List Bool} (h : k.Represents m) :
    m.length % bitSponge.rate = 8 * k.blockOff := by
  have hsnd := bitSponge.foldl_push_snd (fun _ _ _ => false) bitSponge.rate_pos m
  rw [h, Nat.zero_add] at hsnd
  exact hsnd.symm

/-- The message is padded with what its last block lacks. -/
theorem Keccak.Represents.pad_eq {k : Keccak} {m : List Bool} (h : k.Represents m) :
    Reference.pad m = m ++ padding k.blockOff := by
  have hoff := k.blockOff_lt
  have hblock : blockSize = 136 := rfl
  have hcount : (2 * Reference.rate - 2 - m.length % Reference.rate) % Reference.rate =
      1086 - 8 * k.blockOff := by
    rw [← bitSponge_rate, h.offset, show bitSponge.rate = 1088 from rfl]
    omega
  rw [Reference.pad, hcount, padding, List.append_assoc]

/-- The two bytes that the code adds are the padding. -/
theorem addAll_padding (a : Bits) {off : ℕ} (hoff : off < blockSize) :
    bitSponge.addAll a (8 * off) (padding off) =
      bitSponge.addAll (bitSponge.addAll a (8 * off) (byteBits 0x01)) (8 * (blockSize - 1))
        (byteBits 0x80) := by
  have hblock : blockSize = 136 := rfl
  have hfirst : byteBits 0x01 = true :: List.replicate 7 false := by decide
  have hlast : byteBits 0x80 = List.replicate 7 false ++ [true] := by decide
  have hclear (a : Bits) (off n : ℕ) : bitSponge.addAll a off (List.replicate n false) = a :=
    bitSponge.addAll_replicate bitSponge_add_false a off n
  have hend : 8 * off + (true :: List.replicate (1086 - 8 * off) false).length =
      8 * (blockSize - 1) + (List.replicate 7 false).length := by
    rw [List.length_cons, List.length_replicate, List.length_replicate]
    omega
  rw [padding, hfirst, hlast, bitSponge.addAll_append, bitSponge.addAll_append, hend]
  simp only [Sponge.addAll, hclear]

/-- The code completes the last block by the padding of the message. -/
theorem Keccak.Represents.absorbed_pad (hshift : AddsNoBit oversized) {k : Keccak}
    {m : List Bool} (h : k.Represents m) :
    Reference.absorbed (Reference.pad m) =
      (absorb oversized (xorByte (xorByte k.state k.blockOff 0x01) (blockSize - 1) 0x80)).bits := by
  have hoff := k.blockOff_lt
  have hblock : blockSize = 136 := rfl
  have hrate : bitSponge.rate = 8 * blockSize := rfl
  have hfill := length_padding hoff
  have hlen : bitSponge.rate ∣ (Reference.pad m).length := by
    rw [h.pad_eq, List.length_append, Nat.dvd_iff_mod_eq_zero, Nat.add_mod, h.offset,
      Nat.add_mod_mod, hfill, Nat.mod_self]
  have hblocks := bitSponge.foldl_push_of_dvd (fun _ _ _ => false) hlen
  rw [bitSponge_absorbBlocks] at hblocks
  have hstream := bitSponge.foldl_push_of_eq k.state.bits
    (show 8 * k.blockOff < bitSponge.rate by omega) hfill
  rw [← h, ← List.foldl_append, ← h.pad_eq, hblocks] at hstream
  rw [(Prod.mk.inj hstream).1, bitSponge_permute, addAll_padding _ hoff, bits_absorb hshift,
    bits_xorByte _ (by omega), bits_xorByte _ (by omega)]

/-- A hasher returns the hash of what it has taken. -/
theorem Keccak.Represents.hash (hshift : AddsNoBit oversized) {k : Keccak} {m : List Bool}
    (h : k.Represents m) : bytesBits (k.hash oversized) = Reference.keccak256 m := by
  rw [Keccak.hash, bytesBits_finalize, ← h.absorbed_pad hshift, Reference.keccak256]

/-- The hash of an input. -/
theorem Keccak.bytesBits_hashOf (hshift : AddsNoBit oversized) (input : List Byte) :
    bytesBits (Keccak.hashOf oversized input) = Reference.keccak256 (bytesBits input) :=
  (Keccak.represents_new.updateAll hshift input).hash hshift

/-! ## Calls -/

/-- A call on a hasher. -/
inductive Call
  /-- `update` with a byte. -/
  | update (byte : Byte)
  /-- `update` with bytes. -/
  | updateAll (input : List Byte)
  /-- `hash`. -/
  | hash

/-- The hashes that calls on a hasher return. -/
def Keccak.hashes (oversized : Word → Word) (k : Keccak) : List Call → List (List Byte)
  | [] => []
  | .update byte :: calls => (k.update oversized byte).hashes oversized calls
  | .updateAll input :: calls => (k.updateAll oversized input).hashes oversized calls
  | .hash :: calls => k.hash oversized :: k.hashes oversized calls

/-- The hashes that calls should return: each of the whole message so far. -/
def Reference.hashes (m : List Byte) : List Call → List (List Bool)
  | [] => []
  | .update byte :: calls => Reference.hashes (m ++ [byte]) calls
  | .updateAll input :: calls => Reference.hashes (m ++ input) calls
  | .hash :: calls => Reference.keccak256 (bytesBits m) :: Reference.hashes m calls

/-- Calls on a hasher that has taken a message. -/
theorem Keccak.Represents.hashes (hshift : AddsNoBit oversized) {k : Keccak} {m : List Byte}
    (h : k.Represents (bytesBits m)) (calls : List Call) :
    (k.hashes oversized calls).map bytesBits = Reference.hashes m calls := by
  induction calls generalizing k m with
  | nil => rfl
  | cons call calls ih =>
    cases call with
    | update byte =>
      apply ih
      simpa [bytesBits] using h.update hshift byte
    | updateAll input =>
      apply ih
      simpa [bytesBits] using h.updateAll hshift input
    | hash =>
      rw [Keccak.hashes, Reference.hashes, List.map_cons, ih h, h.hash hshift]

/-- Whatever calls are made on a new hasher, every hash is the hash of all bytes before it. -/
theorem Keccak.hashes_new (hshift : AddsNoBit oversized) (calls : List Call) :
    (Keccak.new.hashes oversized calls).map bytesBits = Reference.hashes [] calls :=
  Keccak.represents_new.hashes hshift calls

/-- On a machine that takes the count of a shift modulo 64, the shift gives the word itself. -/
theorem addsNoBit_id : AddsNoBit id := fun _ => BitVec.or_self

/-- A byte, a hash, two more bytes and a hash, on such a machine. -/
theorem Keccak.hashes_new_modulo :
    AddsNoBit id ∧ (Keccak.new.hashes id
      [.update 0x61, .hash, .updateAll [0x62, 0x63], .hash]).map bytesBits =
        [Reference.keccak256 (bytesBits [0x61]),
          Reference.keccak256 (bytesBits [0x61, 0x62, 0x63])] :=
  ⟨addsNoBit_id, Keccak.hashes_new addsNoBit_id _⟩

end Machine

end CppJam.Crypto
