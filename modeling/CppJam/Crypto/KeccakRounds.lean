import CppJam.Cells
import CppJam.Crypto.Keccak
import Mathlib.Algebra.Group.Nat.Defs

/-!
# The rounds of the permutation

The permutation bit by bit, as five step mappings of a state of bits: the parities of two
neighbouring columns are added, words are rotated, words change places, rows are combined, and
a round constant is added. The amounts of the rotations come from a walk through the plane, and
the constants from a linear recurrence. The in-place loops of the code compute exactly these
mappings, as long as the shift that the language leaves undefined adds no bit.
-/

namespace CppJam.Crypto

open Cells

/-- The bits of a state. -/
abbrev Bits := Fin 5 → Fin 5 → Fin 64 → Bool

namespace Reference

/-- The parity of a column. -/
def parity (a : Bits) (x : Fin 5) (z : Fin 64) : Bool :=
  a x 0 z ^^ a x 1 z ^^ a x 2 z ^^ a x 3 z ^^ a x 4 z

/-- Theta: the parities of two columns are added to every bit. -/
def theta (a : Bits) : Bits :=
  fun x y z => a x y z ^^ (parity a (x + 4) z ^^ parity a (x + 1) (z - 1))

/-- The walk through the plane. -/
def walk : ℕ → Fin 5 × Fin 5
  | 0 => (1, 0)
  | t + 1 => ((walk t).2, 2 * (walk t).1 + 3 * (walk t).2)

/-- The amount by which a word is rotated: a triangular number, by the time of its visit. -/
def offset (x y : Fin 5) : ℕ :=
  match (List.range 24).find? fun t => walk t = (x, y) with
  | some t => (t + 1) * (t + 2) / 2 % 64
  | none => 0

/-- Rho: words are rotated. -/
def rho (a : Bits) : Bits := fun x y z => a x y (z - Fin.ofNat 64 (offset x y))

/-- Pi: words change places. -/
def pi (a : Bits) : Bits := fun x y z => a (x + 3 * y) x z

/-- Chi: the bits of a row are combined. -/
def chi (a : Bits) : Bits := fun x y z => a x y z ^^ (!a (x + 1) y z && a (x + 2) y z)

/-- The bits of the round constants, by a linear recurrence. -/
def rc : ℕ → Bool
  | 0 => true
  | 1 => false
  | 2 => false
  | 3 => false
  | 4 => false
  | 5 => false
  | 6 => false
  | 7 => false
  | t + 8 => rc (t + 6) ^^ rc (t + 5) ^^ rc (t + 4) ^^ rc t

/-- Bit `z` of the constant of round `i`: only bits at powers of two, less one, can be set. -/
def roundConstant (i : ℕ) (z : Fin 64) : Bool :=
  (List.range 7).any fun j => z.val = 2 ^ j - 1 && rc (7 * i + j)

/-- Iota: the round constant is added to the first word. -/
def iota (i : ℕ) (a : Bits) : Bits :=
  fun x y z => a x y z ^^ (x = 0 && y = 0 && roundConstant i z)

/-- A round. -/
def round (i : ℕ) (a : Bits) : Bits := iota i (chi (pi (rho (theta a))))

/-- The permutation. -/
def keccakF (a : Bits) : Bits := (List.range 24).foldl (fun a i => round i a) a

end Reference

/-! ## Words and bits -/

namespace Lanes

/-- The bits of the words. -/
def bits (a : Lanes) : Bits := fun x y z => (a.lane x y).getLsbD z

/-- A write changes one word. -/
theorem lane_setLane (a : Lanes) (x y : Fin 5) (v : Word) (x' y' : Fin 5) :
    (a.setLane x y v).lane x' y' = if (x, y) = (x', y') then v else a.lane x' y' := by
  unfold setLane lane
  simp only [Vector.getElem_set, Prod.mk.injEq, Fin.ext_iff]
  by_cases hx : x.val = x'.val
  · obtain rfl := Fin.ext hx
    by_cases hy : y.val = y'.val
    · simp [hy]
    · simp [hy]
  · simp [hx]

/-- The words as a store of cells. -/
def store : Store Lanes (Fin 5 × Fin 5) Word where
  get a p := a.lane p.1 p.2
  set a p v := a.setLane p.1 p.2 v
  get_set a p v p' := a.lane_setLane p.1 p.2 v p'.1 p'.2

/-- States with the same words are equal. -/
theorem ext_lane {a b : Lanes} (h : ∀ x y, a.lane x y = b.lane x y) : a = b := by
  apply Vector.ext
  intro x hx
  apply Vector.ext
  intro y hy
  exact h ⟨x, hx⟩ ⟨y, hy⟩

/-- States with the same bits are equal. -/
theorem bits_injective : Function.Injective bits := by
  intro a b h
  refine ext_lane fun x y => BitVec.eq_of_getLsbD_eq fun z hz => ?_
  exact congrFun (congrFun (congrFun h x) y) ⟨z, hz⟩

end Lanes

/-- Loops over the plane write every cell once. -/
theorem lane_forXY {key : Fin 5 × Fin 5 → Fin 5 × Fin 5} (hkey : Function.Injective key)
    (f : Fin 5 × Fin 5 → Word → Word) (a : Lanes) (p : Fin 5 × Fin 5) :
    (forXY (fun a p => a.setLane (key p).1 (key p).2 (f p (a.lane (key p).1 (key p).2))) a).lane
      (key p).1 (key p).2 = f p (a.lane (key p).1 (key p).2) := by
  unfold forXY
  rw [foldl_foldl_eq_product (List.finRange 5) (List.finRange 5)
    (fun (a : Lanes) p => a.setLane (key p).1 (key p).2 (f p (a.lane (key p).1 (key p).2)))]
  refine Lanes.store.get_modifyAll ?_ f (i := p) ?_ a
  · exact (List.Nodup.product (List.nodup_finRange 5) (List.nodup_finRange 5)).map hkey
  · exact List.mem_product.mpr ⟨List.mem_finRange _, List.mem_finRange _⟩

section Rounds

variable {oversized : Word → Word}

/-- A rotation by 0 changes nothing. -/
theorem rotl64_zero (hshift : AddsNoBit oversized) (x : Word) : rotl64 oversized x 0 = x := by
  rw [rotl64, shiftRight, if_neg (by decide), BitVec.shiftLeft_zero, hshift]

/-- A rotation moves the bits. -/
theorem getLsbD_rotl64 (hshift : AddsNoBit oversized) (x : Word) {i : ℕ} (hi : i < 64)
    (z : Fin 64) :
    (rotl64 oversized x i).getLsbD z = x.getLsbD (z - Fin.ofNat 64 i : Fin 64).val := by
  have hz := z.isLt
  have hval : (z - Fin.ofNat 64 i).val = (64 - i % 64 + z.val) % 64 := rfl
  rw [hval]
  obtain rfl | hpos := Nat.eq_zero_or_pos i
  · rw [rotl64_zero hshift, show (64 - 0 % 64 + z.val) % 64 = z.val by omega]
  rw [rotl64, shiftRight, if_pos (by omega), BitVec.getLsbD_or, BitVec.getLsbD_shiftLeft,
    BitVec.getLsbD_ushiftRight]
  by_cases hle : i ≤ z.val
  · have hout : x.getLsbD (64 - i + z.val) = false := BitVec.getLsbD_of_ge _ _ (by omega)
    have hpos : (64 - i % 64 + z.val) % 64 = z.val - i := by omega
    simp [hle, hout, hpos]
  · have hpos : (64 - i % 64 + z.val) % 64 = 64 - i + z.val := by omega
    simp [hle, hpos]

/-! ## The step mappings -/

/-- The accumulator of the theta step holds the parities. -/
theorem getLsbD_columnSums (a : Lanes) (x : Fin 5) (z : Fin 64) :
    (columnSum (columnSums a) x).getLsbD z = Reference.parity a.bits x z := by
  simp [columnSum, columnSums, List.finRange_succ, Reference.parity, Lanes.bits]

/-- The loops of the theta step compute theta. -/
theorem bits_thetaStep (hshift : AddsNoBit oversized) (a : Lanes) :
    (thetaStep oversized a).bits = Reference.theta a.bits := by
  funext x y z
  have hcell : (thetaStep oversized a).lane x y =
      a.lane x y ^^^ columnDelta oversized (columnSums a) x :=
    lane_forXY Function.injective_id
      (fun p v => v ^^^ columnDelta oversized (columnSums a) p.1) a (x, y)
  rw [Lanes.bits, hcell, columnDelta, BitVec.getLsbD_xor, BitVec.getLsbD_xor,
    getLsbD_rotl64 hshift _ (by decide), getLsbD_columnSums, getLsbD_columnSums]
  rfl

/-- The words that the rho and pi steps write. -/
theorem lane_rhoPiStep (oversized : Word → Word) (a : Lanes) (x y : Fin 5) :
    (rhoPiStep oversized a).lane y (x * 2 + y * 3) =
      rotl64 oversized (a.lane x y) (rotation x y) := by
  have hkey : Function.Injective fun p : Fin 5 × Fin 5 => (p.2, p.1 * 2 + p.2 * 3) := by
    have hall : ∀ y x x' : Fin 5, x * 2 + y * 3 = x' * 2 + y * 3 → x = x' := by decide
    rintro ⟨x, y⟩ ⟨x', y'⟩ h
    obtain ⟨hy, hx⟩ : y = y' ∧ x * 2 + y * 3 = x' * 2 + y' * 3 := Prod.mk.inj h
    subst hy
    rw [hall y x x' hx]
  exact lane_forXY hkey
    (fun p _ => rotl64 oversized (a.lane p.1 p.2) (rotation p.1 p.2)) _ (x, y)

/-- The table of the rotations holds the amounts of the walk. -/
theorem rotation_eq_offset : ∀ x y : Fin 5, rotation x y = Reference.offset x y := by
  decide

/-- A word is rotated by less than its length. -/
theorem offset_lt : ∀ x y : Fin 5, Reference.offset x y < 64 := by decide

/-- The loops of the rho and pi steps compute rho and pi. -/
theorem bits_rhoPiStep (hshift : AddsNoBit oversized) (a : Lanes) :
    (rhoPiStep oversized a).bits = Reference.pi (Reference.rho a.bits) := by
  funext x y z
  have hplace : ∀ x y : Fin 5, y = (x + 3 * y) * 2 + x * 3 := by decide
  have hlane := lane_rhoPiStep oversized a (x + 3 * y) x
  rw [← hplace, rotation_eq_offset] at hlane
  rw [Lanes.bits, hlane, getLsbD_rotl64 hshift _ (offset_lt _ _)]
  rfl

/-- The loops of the chi step compute chi, whatever the old words are. -/
theorem bits_chiStep (a b : Lanes) : (chiStep a b).bits = Reference.chi b.bits := by
  funext x y z
  have hcell : (chiStep a b).lane x y =
      b.lane x y ^^^ (~~~b.lane (x + 1) y &&& b.lane (x + 2) y) :=
    lane_forXY Function.injective_id (fun p _ =>
      b.lane p.1 p.2 ^^^ (~~~b.lane (p.1 + 1) p.2 &&& b.lane (p.1 + 2) p.2)) a (x, y)
  rw [Lanes.bits, hcell]
  simp only [BitVec.getLsbD_xor, BitVec.getLsbD_and, BitVec.getLsbD_not, z.isLt, decide_true,
    Bool.true_and]
  rfl

/-! ## The round constants -/

/-- Eight steps of the register are a linear combination of fewer steps. -/
theorem nextLfsr_eight : ∀ r : BitVec 8, nextLfsr^[8] r =
    nextLfsr^[6] r ^^^ nextLfsr^[5] r ^^^ nextLfsr^[4] r ^^^ r := by
  decide

/-- The register shows the bits of the recurrence. -/
theorem getLsbD_iterate_nextLfsr (t : ℕ) :
    (nextLfsr^[t] 1).getLsbD 0 = Reference.rc t := by
  induction t using Reference.rc.induct with
  | case9 t h6 h5 h4 h0 =>
    have hadd (k : ℕ) : nextLfsr^[t + k] 1 = nextLfsr^[k] (nextLfsr^[t] 1) := by
      rw [Nat.add_comm, Function.iterate_add_apply]
    rw [hadd] at h6 h5 h4
    rw [Reference.rc, ← h6, ← h5, ← h4, ← h0]
    change (nextLfsr^[t + 8] 1).getLsbD 0 = _
    rw [hadd, nextLfsr_eight]
    simp only [BitVec.getLsbD_xor, Bool.xor_assoc]
  | _ => decide

/-- The bit of the register is added to one bit of the word. -/
theorem getLsbD_registerBit (r : BitVec 8) {k : ℕ} (hk : k < 64) (z : Fin 64) :
    ((r &&& 1).setWidth 64 <<< k).getLsbD z = (decide (z.val = k) && r.getLsbD 0) := by
  rw [BitVec.getLsbD_shiftLeft, BitVec.getLsbD_setWidth, BitVec.getLsbD_and]
  by_cases hz : z.val = k
  · simp [hz, hk]
  · by_cases hlt : z.val < k
    · simp [hz, hlt]
    · have hpos : z.val - k ≠ 0 := by omega
      simp [hz, hpos, BitVec.getLsbD_one]

/-- The bits that the iota step adds to the first word, from the register at its start. -/
def registerBits (r : BitVec 8) (n : ℕ) (z : Fin 64) : Bool :=
  (List.range n).any fun j => z.val = 2 ^ j - 1 && (nextLfsr^[j] r).getLsbD 0

/-- A bit is added only once. -/
theorem registerBits_succ (r : BitVec 8) (n : ℕ) (z : Fin 64) :
    registerBits r (n + 1) z =
      (registerBits r n z ^^ (decide (z.val = 2 ^ n - 1) && (nextLfsr^[n] r).getLsbD 0)) := by
  have hstep : registerBits r (n + 1) z =
      (registerBits r n z || (decide (z.val = 2 ^ n - 1) && (nextLfsr^[n] r).getLsbD 0)) := by
    simp [registerBits, List.range_succ]
  rw [hstep]
  by_cases hz : z.val = 2 ^ n - 1
  · have hfirst : registerBits r n z = false := by
      rw [registerBits, List.any_eq_false]
      intro j hj hbit
      have hjn : 2 ^ j < 2 ^ n := Nat.pow_lt_pow_right (by omega) (List.mem_range.mp hj)
      have hpos : 0 < 2 ^ j := Nat.two_pow_pos j
      have hzj : z.val = 2 ^ j - 1 := by simpa using (Bool.and_eq_true_iff.mp hbit).1
      omega
    rw [hfirst, Bool.false_or, Bool.false_xor]
  · simp [hz]

/-- The loop of the iota step, after some of its passes. -/
theorem foldl_iotaPass (a : Lanes) (r : BitVec 8) {n : ℕ} (hn : n ≤ 7) :
    ((List.range n).foldl iotaPass (a, r)).2 = nextLfsr^[n] r ∧
      ∀ x y z, ((List.range n).foldl iotaPass (a, r)).1.bits x y z =
        (a.bits x y z ^^ (x = 0 && y = 0 && registerBits r n z)) := by
  induction n with
  | zero => exact ⟨rfl, by simp [registerBits]⟩
  | succ n ih =>
    obtain ⟨hreg, hbits⟩ := ih (by omega)
    have hk : (1 <<< n) - 1 < 64 := by
      have hpow : 2 ^ n ≤ 2 ^ 6 := Nat.pow_le_pow_right (by omega) (by omega)
      rw [Nat.one_shiftLeft]
      omega
    rw [List.range_succ, List.foldl_append, List.foldl_cons, List.foldl_nil]
    refine ⟨by rw [iotaPass, hreg, Function.iterate_succ_apply'], fun x y z => ?_⟩
    have hxor : (iotaPass ((List.range n).foldl iotaPass (a, r)) n).1.bits x y z =
        (((List.range n).foldl iotaPass (a, r)).1.bits x y z ^^
          (x = 0 && y = 0 && (decide (z.val = 2 ^ n - 1) && (nextLfsr^[n] r).getLsbD 0))) := by
      rw [iotaPass, Lanes.bits, Lanes.lane_setLane, hreg]
      by_cases hxy : x = 0 ∧ y = 0
      · obtain ⟨rfl, rfl⟩ := hxy
        rw [if_pos rfl, BitVec.getLsbD_xor, getLsbD_registerBit _ hk, Nat.one_shiftLeft]
        simp [Lanes.bits]
      · have hkey : (0, 0) ≠ (x, y) :=
          fun h => hxy ⟨(Prod.mk.inj h).1.symm, (Prod.mk.inj h).2.symm⟩
        have hne : (decide (x = 0) && decide (y = 0)) = false := by simpa using hxy
        rw [if_neg hkey, hne]
        simp [Lanes.bits]
    rw [hxor, hbits, registerBits_succ, Bool.xor_assoc, Bool.and_xor_distrib_left]

/-- The iota step adds the round constant. -/
theorem iotaStep_eq (a : Lanes) (i : ℕ) :
    (iotaStep a (nextLfsr^[7 * i] 1)).1.bits = Reference.iota i a.bits ∧
      (iotaStep a (nextLfsr^[7 * i] 1)).2 = nextLfsr^[7 * (i + 1)] 1 := by
  obtain ⟨hreg, hbits⟩ := foldl_iotaPass a (nextLfsr^[7 * i] 1) le_rfl
  constructor
  · funext x y z
    have hconst : registerBits (nextLfsr^[7 * i] 1) 7 z = Reference.roundConstant i z := by
      unfold registerBits Reference.roundConstant
      congr 1
      funext j
      rw [← Function.iterate_add_apply, Nat.add_comm j, getLsbD_iterate_nextLfsr]
    rw [iotaStep, hbits, hconst, Reference.iota]
  · rw [iotaStep, hreg, ← Function.iterate_add_apply, Nat.mul_add, Nat.add_comm]

/-! ## The permutation -/

/-- Rounds of the code are rounds of the permutation, and keep the register in step. -/
theorem foldl_round (hshift : AddsNoBit oversized) (a : Lanes) (n : ℕ) :
    ((List.range n).foldl (fun s _ => round oversized s) (a, 1)).1.bits =
        (List.range n).foldl (fun b i => Reference.round i b) a.bits ∧
      ((List.range n).foldl (fun s _ => round oversized s) (a, 1)).2 = nextLfsr^[7 * n] 1 := by
  induction n with
  | zero => exact ⟨rfl, rfl⟩
  | succ n ih =>
    simp only [List.range_succ, List.foldl_append, List.foldl_cons, List.foldl_nil]
    obtain ⟨hbits, hreg⟩ := ih
    rw [round, hreg]
    obtain ⟨hiota, hnext⟩ := iotaStep_eq (chiStep _ (rhoPiStep oversized (thetaStep oversized _))) n
    rw [hiota, bits_chiStep, bits_rhoPiStep hshift, bits_thetaStep hshift, hbits]
    exact ⟨rfl, hnext⟩

/-- The code absorbs a block by the permutation. -/
theorem bits_absorb (hshift : AddsNoBit oversized) (a : Lanes) :
    (absorb oversized a).bits = Reference.keccakF a.bits :=
  (foldl_round hshift a numRounds).1

end Rounds

end CppJam.Crypto
