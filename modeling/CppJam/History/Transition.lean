import CppJam.Common

/-!
# The recent history transition

Data and functions of `history::transition`. The state lists the most recent
blocks, each with a Merkle mountain range over the accumulation roots of all
blocks up to it. A new block completes the entry of its parent with the state
root that its header carries, and enters itself without one.
-/

namespace CppJam.History

open Bytes

/-- `StateRoot`. -/
abbrev StateRoot := OpaqueHash

/-- `Mmr`: the peaks of a Merkle mountain range, lowest first. -/
structure Mmr where
  /-- A root, or nothing, at every height. -/
  peaks : List (Option OpaqueHash)
  deriving DecidableEq

/-- `BlockInfo`. The transition copies the reported work packages and reads nothing of
them, so their type is a parameter. -/
structure BlockInfo (ω : Type) where
  /-- Hash of the block's header. -/
  headerHash : OpaqueHash
  /-- Accumulation roots up to the block. -/
  mmr : Mmr
  /-- State root after the block. -/
  stateRoot : StateRoot
  /-- Work packages reported in the block. -/
  reported : List ω
  deriving DecidableEq

/-- `State`. -/
structure State (ω : Type) where
  /-- The most recent blocks, oldest first. -/
  beta : List (BlockInfo ω)
  deriving DecidableEq

/-- `Input`. -/
structure Input (ω : Type) where
  /-- Hash of the block's header. -/
  headerHash : OpaqueHash
  /-- State root after the parent block. -/
  parentStateRoot : StateRoot
  /-- Root of the accumulation results. -/
  accumulateRoot : OpaqueHash
  /-- Work packages reported in the block. -/
  workPackages : List ω
  deriving DecidableEq

/-- `H`: the size of recent history, in blocks. -/
def H : ℕ := 8

/-- The loop of `mathcal_A` at index `n`, with the given number of rounds left. -/
def mathcalALoop (mathcalHK : List Byte → OpaqueHash) : ℕ → ℕ → Mmr → OpaqueHash → Mmr
  | 0, _, r, l => ⟨r.peaks ++ [some l]⟩
  | rounds + 1, n, r, l =>
    match r.peaks[n]? with
    | some (some rN) =>
      mathcalALoop mathcalHK rounds (n + 1) ⟨r.peaks.set n none⟩ (mathcalHK (frown rN l).bytes)
    | _ => ⟨r.peaks.set n (some l)⟩

/-- `mathcal_A`: append a leaf to a mountain range. The hash `mathcal_H_K` is a parameter. -/
def mathcalA (mathcalHK : List Byte → OpaqueHash) (r : Mmr) (l : OpaqueHash) : Mmr :=
  mathcalALoop mathcalHK r.peaks.length 0 r l

variable {ω : Type}

/-- `beta_tick` without its oldest entry when the history is full. -/
def evictOldest (beta : List (BlockInfo ω)) : List (BlockInfo ω) :=
  if H ≤ beta.length then beta.tail else beta

/-- Write the state root of the parent into the newest entry, if there is one. -/
def completeParent (beta : List (BlockInfo ω)) (parentStateRoot : StateRoot) :
    List (BlockInfo ω) :=
  match beta.getLast? with
  | some parent => beta.dropLast ++ [{ parent with stateRoot := parentStateRoot }]
  | none => beta

/-- The mountain range of the newest entry, empty when there is none. -/
def lastMmr (beta : List (BlockInfo ω)) : Mmr :=
  match beta.getLast? with
  | some parent => parent.mmr
  | none => ⟨[]⟩

/-- `history::transition`. The configuration is not read and the output is empty. -/
def transition (mathcalHK : List Byte → OpaqueHash) (s : State ω) (input : Input ω) :
    State ω × Unit :=
  let betaTick := completeParent (evictOldest s.beta) input.parentStateRoot
  let mmrTick := mathcalA mathcalHK (lastMmr s.beta) input.accumulateRoot
  (⟨betaTick ++ [⟨input.headerHash, mmrTick, ByteArr.fill 0, input.workPackages⟩]⟩, ())

end CppJam.History
