import CppJam.Crypto.KeccakHash
import CppJam.Mixing
import Mathlib.Algebra.Group.Fin.Basic
import Mathlib.Data.Fintype.EquivFin
import Mathlib.Data.Fintype.Pi
import Mathlib.Data.Fintype.Prod
import Mathlib.Tactic.FinCases

/-!
# Hashers lose nothing

Every step mapping can be undone, so the permutation is one, and taking bytes is a bijection on
the hashers: two hashers that differ still differ after they take the same bytes, and every
hasher is reached. The shift that the language leaves undefined must add no bit.
-/

namespace CppJam.Crypto

open Bytes

namespace Reference

/-- Theta mixes the parities of the columns. -/
theorem parity_theta (a : Bits) (x : Fin 5) (z : Fin 64) :
    parity (theta a) x z =
      Mixing.mix ((4, 0) : Fin 5 × Fin 64) (1, -1) (fun p => parity a p.1 p.2) (x, z) := by
  have hleft : ((x, z) : Fin 5 × Fin 64) + (4, 0) = (x + 4, z) := by
    rw [Prod.mk_add_mk, add_zero]
  have hright : ((x, z) : Fin 5 × Fin 64) + (1, -1) = (x + 1, z - 1) := by
    rw [Prod.mk_add_mk, sub_eq_add_neg]
  have hfive : ∀ a0 a1 a2 a3 a4 d : Bool,
      ((a0 ^^ d) ^^ (a1 ^^ d) ^^ (a2 ^^ d) ^^ (a3 ^^ d) ^^ (a4 ^^ d)) =
        ((a0 ^^ a1 ^^ a2 ^^ a3 ^^ a4) ^^ d) := by decide
  rw [Mixing.mix, hleft, hright]
  exact hfive _ _ _ _ _ _

/-- Theta loses nothing. -/
theorem theta_injective : Function.Injective theta := by
  intro a b h
  have hmix : Function.Injective (Mixing.mix ((4, 0) : Fin 5 × Fin 64) (1, -1)) :=
    Mixing.mix_injective (w := (1, 0)) (k := 6) (by decide) (by decide) (by decide)
  have hparity : (fun p : Fin 5 × Fin 64 => parity a p.1 p.2) = fun p => parity b p.1 p.2 := by
    apply hmix
    funext p
    rw [← parity_theta a p.1 p.2, ← parity_theta b p.1 p.2, h]
  funext x y z
  have hbit := congrFun (congrFun (congrFun h x) y) z
  rw [theta, theta, congrFun hparity (x + 4, z), congrFun hparity (x + 1, z - 1)] at hbit
  exact Bool.xor_left_inj.mp hbit

/-- Rho loses nothing. -/
theorem rho_injective : Function.Injective rho := by
  intro a b h
  funext x y z
  have hbit := congrFun (congrFun (congrFun h x) y) (z + Fin.ofNat 64 (offset x y))
  rwa [rho, rho, add_sub_cancel_right] at hbit

/-- Pi loses nothing. -/
theorem pi_injective : Function.Injective pi := by
  have hplace : ∀ x y : Fin 5, y + 3 * (2 * (x - y)) = x := by decide
  intro a b h
  funext x y z
  have hbit := congrFun (congrFun (congrFun h y) (2 * (x - y))) z
  rwa [pi, pi, hplace] at hbit

/-- A row is determined by what chi makes of it. -/
theorem chi_row : ∀ a0 a1 a2 a3 a4 b0 b1 b2 b3 b4 : Bool,
    (a0 ^^ (!a1 && a2)) = (b0 ^^ (!b1 && b2)) → (a1 ^^ (!a2 && a3)) = (b1 ^^ (!b2 && b3)) →
    (a2 ^^ (!a3 && a4)) = (b2 ^^ (!b3 && b4)) → (a3 ^^ (!a4 && a0)) = (b3 ^^ (!b4 && b0)) →
    (a4 ^^ (!a0 && a1)) = (b4 ^^ (!b0 && b1)) →
      a0 = b0 ∧ a1 = b1 ∧ a2 = b2 ∧ a3 = b3 ∧ a4 = b4 := by
  decide

/-- Chi loses nothing. -/
theorem chi_injective : Function.Injective chi := by
  intro a b h
  funext x y z
  have hbit (x : Fin 5) := congrFun (congrFun (congrFun h x) y) z
  obtain ⟨h0, h1, h2, h3, h4⟩ := chi_row (a 0 y z) (a 1 y z) (a 2 y z) (a 3 y z) (a 4 y z)
    (b 0 y z) (b 1 y z) (b 2 y z) (b 3 y z) (b 4 y z) (hbit 0) (hbit 1) (hbit 2) (hbit 3) (hbit 4)
  fin_cases x
  · exact h0
  · exact h1
  · exact h2
  · exact h3
  · exact h4

/-- Iota loses nothing. -/
theorem iota_injective (i : ℕ) : Function.Injective (iota i) := by
  intro a b h
  funext x y z
  exact Bool.xor_left_inj.mp (congrFun (congrFun (congrFun h x) y) z)

/-- A round loses nothing. -/
theorem round_injective (i : ℕ) : Function.Injective (round i) :=
  (iota_injective i).comp (chi_injective.comp (pi_injective.comp
    (rho_injective.comp theta_injective)))

/-- The permutation is one. -/
theorem keccakF_injective : Function.Injective keccakF := by
  unfold keccakF
  generalize List.range 24 = rounds
  induction rounds with
  | nil => exact fun a b h => h
  | cons i rounds ih => exact ih.comp (round_injective i)

end Reference

section Machine

variable {oversized : Word → Word}

/-- Absorbing a block loses nothing. -/
theorem absorb_injective (hshift : AddsNoBit oversized) :
    Function.Injective (absorb oversized) := by
  intro a b h
  apply Lanes.bits_injective
  apply Reference.keccakF_injective
  rw [← bits_absorb hshift, ← bits_absorb hshift, h]

/-- Adding a byte loses nothing. -/
theorem xorByte_injective {off : ℕ} (hoff : off < 200) (byte : Byte) :
    Function.Injective fun a => xorByte a off byte := by
  intro a b h
  have hbits : (xorByte a off byte).bits = (xorByte b off byte).bits := congrArg Lanes.bits h
  rw [bits_xorByte a hoff, bits_xorByte b hoff] at hbits
  apply Lanes.bits_injective
  funext x y z
  have hbit := congrFun (congrFun (congrFun hbits x) y) z
  rw [bitSponge_addAll, bitSponge_addAll] at hbit
  exact Bool.xor_left_inj.mp hbit

namespace Keccak

/-- Hashers with the same state and offset are equal. -/
theorem ext_of_eq {k k' : Keccak} (hstate : k.state = k'.state) (hoff : k.blockOff = k'.blockOff) :
    k = k' := by
  cases k
  cases k'
  cases hstate
  cases hoff
  rfl

/-- The state after a byte. -/
theorem state_update (k : Keccak) (byte : Byte) :
    (k.update oversized byte).state =
      if k.blockOff + 1 = blockSize then absorb oversized (xorByte k.state k.blockOff byte)
      else xorByte k.state k.blockOff byte := by
  unfold update
  split_ifs <;> rfl

/-- The offset after a byte. -/
theorem blockOff_update (k : Keccak) (byte : Byte) :
    (k.update oversized byte).blockOff =
      if k.blockOff + 1 = blockSize then 0 else k.blockOff + 1 := by
  unfold update
  split_ifs <;> rfl

/-- Taking a byte loses nothing. -/
theorem update_injective (hshift : AddsNoBit oversized) (byte : Byte) :
    Function.Injective fun k : Keccak => k.update oversized byte := by
  intro k k' h
  have hlt : k.blockOff < 200 := k.blockOff_lt.trans (by decide)
  have hoff : k.blockOff = k'.blockOff := by
    have hsame : (k.update oversized byte).blockOff = (k'.update oversized byte).blockOff :=
      congrArg blockOff h
    rw [blockOff_update, blockOff_update] at hsame
    split_ifs at hsame <;> omega
  have hstate : xorByte k.state k.blockOff byte = xorByte k'.state k.blockOff byte := by
    have hsame : (k.update oversized byte).state = (k'.update oversized byte).state :=
      congrArg state h
    rw [state_update, state_update, ← hoff] at hsame
    split_ifs at hsame with hfull
    · exact absorb_injective hshift hsame
    · exact hsame
  exact ext_of_eq (xorByte_injective hlt byte hstate) hoff

/-- There are finitely many hashers. -/
instance : Finite Keccak := by
  let view (k : Keccak) : Bits × Fin blockSize := (k.state.bits, ⟨k.blockOff, k.blockOff_lt⟩)
  have hview : Function.Injective view := by
    intro k k' h
    obtain ⟨hbits, hoff⟩ := Prod.mk.inj h
    exact ext_of_eq (Lanes.bits_injective hbits) (Fin.mk.inj hoff)
  exact Finite.of_injective view hview

/-- Taking any bytes is a bijection on the hashers. -/
theorem updateAll_bijective (hshift : AddsNoBit oversized) (input : List Byte) :
    Function.Bijective fun k : Keccak => k.updateAll oversized input := by
  apply Finite.injective_iff_bijective.mp
  induction input with
  | nil => exact fun k k' h => h
  | cons byte input ih => exact ih.comp (update_injective hshift byte)

/-- A shift that moves all bits out gives zero. -/
theorem addsNoBit_zero : AddsNoBit fun _ => 0 := fun _ => BitVec.or_zero

/-- Three bytes, on a machine whose shift moves all bits out. -/
theorem updateAll_bijective_zero :
    AddsNoBit (fun _ => 0) ∧
      Function.Bijective fun k : Keccak => k.updateAll (fun _ => 0) [0x61, 0x62, 0x63] :=
  ⟨addsNoBit_zero, updateAll_bijective addsNoBit_zero _⟩

end Keccak

end Machine

end CppJam.Crypto
