import CppJam.History.Peaks
import Mathlib.Data.List.Induction

/-!
# The window of recent blocks

Applied to a sequence of blocks from the empty state, the transition keeps the
entries of the last eight. What an entry says does not depend on the eviction: it
carries its block's hash and packages, a mountain range over all accumulation
roots up to the block, and the state root that the next block's header brings.
-/

namespace CppJam.History

open Bytes MountainRange

variable {ω : Type} {mathcalHK : List Byte → OpaqueHash}

/-- The state after a sequence of blocks applied to the empty state. -/
def applyAll (mathcalHK : List Byte → OpaqueHash) (inputs : List (Input ω)) : State ω :=
  inputs.foldl (fun s input => (transition mathcalHK s input).1) ⟨[]⟩

/-- The accumulation roots of some blocks. -/
def roots (inputs : List (Input ω)) : List OpaqueHash := inputs.map Input.accumulateRoot

/-- The state root that the block at an index brings for its parent, zero when the block
has not come yet. -/
def rootAfter (inputs : List (Input ω)) (i : ℕ) : StateRoot :=
  match inputs[i]? with
  | some next => next.parentStateRoot
  | none => ByteArr.fill 0

/-- The entry of the block at an index of a sequence. -/
def entry (mathcalHK : List Byte → OpaqueHash) (inputs : List (Input ω)) (j : ℕ)
    (input : Input ω) : BlockInfo ω where
  headerHash := input.headerHash
  mmr := appendAll mathcalHK (roots (inputs.take (j + 1)))
  stateRoot := rootAfter inputs (j + 1)
  reported := input.workPackages

/-- The entries of all blocks of a sequence. -/
def entries (mathcalHK : List Byte → OpaqueHash) (inputs : List (Input ω)) :
    List (BlockInfo ω) :=
  inputs.mapIdx (entry mathcalHK inputs)

/-- Appending one more leaf continues the mountain range. -/
theorem appendAll_snoc (leaves : List OpaqueHash) (l : OpaqueHash) :
    appendAll mathcalHK (leaves ++ [l]) = mathcalA mathcalHK (appendAll mathcalHK leaves) l := by
  rw [appendAll, List.foldl_append]
  rfl

/-- The state root of the parent goes into the last of some entries. -/
theorem completeParent_snoc (beta : List (BlockInfo ω)) (parent : BlockInfo ω)
    (root : StateRoot) :
    completeParent (beta ++ [parent]) root = beta ++ [{ parent with stateRoot := root }] := by
  simp [completeParent]

/-- A later block changes no entry but the last. -/
theorem entry_append {inputs : List (Input ω)} {next : Input ω} {j : ℕ}
    (hj : j + 1 < inputs.length) (input : Input ω) :
    entry mathcalHK (inputs ++ [next]) j input = entry mathcalHK inputs j input := by
  unfold entry rootAfter
  rw [List.take_append_of_le_length (by omega), List.getElem?_append_left hj]

/-- One more block completes the last entry and adds its own. -/
theorem entries_snoc (inputs : List (Input ω)) (next : Input ω) :
    entries mathcalHK (inputs ++ [next]) =
      completeParent (entries mathcalHK inputs) next.parentStateRoot ++
        [⟨next.headerHash, appendAll mathcalHK (roots (inputs ++ [next])), ByteArr.fill 0,
          next.workPackages⟩] := by
  have hall : (inputs ++ [next]).take (inputs.length + 1) = inputs ++ [next] :=
    List.take_of_length_le (by simp)
  have hnew : entry mathcalHK (inputs ++ [next]) inputs.length next =
      ⟨next.headerHash, appendAll mathcalHK (roots (inputs ++ [next])), ByteArr.fill 0,
        next.workPackages⟩ := by
    simp [entry, rootAfter, hall]
  rw [entries, List.mapIdx_concat, hnew]
  congr 1
  induction inputs using List.reverseRecOn with
  | nil => rfl
  | append_singleton front parent _ =>
    rw [entries, List.mapIdx_concat, List.mapIdx_concat, completeParent_snoc]
    congr 1
    · refine List.mapIdx_eq_mapIdx_iff.mpr ?_
      intro j hj
      exact entry_append (by simpa using hj) _
    · have htake : (front ++ [parent] ++ [next]).take (front.length + 1) =
          (front ++ [parent]).take (front.length + 1) :=
        List.take_append_of_le_length (by simp)
      have hnext : (front ++ [parent] ++ [next])[front.length + 1]? = some next := by simp
      simp only [entry, rootAfter, htake, hnext]

/-- There is an entry for every block. -/
@[simp] theorem length_entries (inputs : List (Input ω)) :
    (entries mathcalHK inputs).length = inputs.length := by
  simp [entries]

/-- The newest entry carries the mountain range of all roots. -/
theorem lastMmr_entries (inputs : List (Input ω)) :
    lastMmr (entries mathcalHK inputs) = appendAll mathcalHK (roots inputs) := by
  induction inputs using List.reverseRecOn with
  | nil => rfl
  | append_singleton front last _ =>
    rw [entries_snoc]
    simp [lastMmr]

/-- Completing the parent commutes with dropping older entries. -/
theorem completeParent_drop (beta : List (BlockInfo ω)) (root : StateRoot) (k : ℕ) :
    completeParent (beta.drop k) root = (completeParent beta root).drop k := by
  induction beta using List.reverseRecOn with
  | nil => simp [completeParent]
  | append_singleton beta parent _ =>
    rw [completeParent_snoc]
    by_cases hk : k ≤ beta.length
    · rw [List.drop_append_of_le_length hk, List.drop_append_of_le_length hk, completeParent_snoc]
    · have hall : ∀ last : BlockInfo ω, (beta ++ [last]).drop k = [] := by
        intro last
        rw [List.drop_eq_nil_iff, List.length_append, List.length_singleton]
        omega
      rw [hall, hall]
      rfl

/-- The newest entry stays when older ones are dropped. -/
theorem lastMmr_drop {beta : List (BlockInfo ω)} {k : ℕ} (hk : k < beta.length ∨ k = 0) :
    lastMmr (beta.drop k) = lastMmr beta := by
  rcases hk with hk | rfl
  · rw [lastMmr, lastMmr, List.getLast?_drop, if_neg (by omega)]
  · rfl

/-- Completing the parent adds no entry. -/
@[simp] theorem length_completeParent (beta : List (BlockInfo ω)) (root : StateRoot) :
    (completeParent beta root).length = beta.length := by
  induction beta using List.reverseRecOn with
  | nil => rfl
  | append_singleton beta parent _ => simp [completeParent_snoc]

/-- The eviction moves the window by one once it is full. -/
theorem evictOldest_drop (beta : List (BlockInfo ω)) :
    evictOldest (beta.drop (beta.length - H)) = beta.drop (beta.length + 1 - H) := by
  unfold evictOldest
  split_ifs with hfull
  · rw [List.length_drop] at hfull
    rw [List.tail_drop]
    congr 1
    omega
  · rw [List.length_drop] at hfull
    congr 1
    omega

/-- The window on the last entries has the mountain range of all roots. -/
theorem lastMmr_window (inputs : List (Input ω)) :
    lastMmr ((entries mathcalHK inputs).drop (inputs.length - H)) =
      appendAll mathcalHK (roots inputs) := by
  rw [lastMmr_drop, lastMmr_entries]
  rw [length_entries, H]
  omega

/-- The history is the window on the last entries. -/
theorem beta_applyAll (inputs : List (Input ω)) :
    (applyAll mathcalHK inputs).beta =
      (entries mathcalHK inputs).drop (inputs.length - H) := by
  induction inputs using List.reverseRecOn with
  | nil => rfl
  | append_singleton inputs next ih =>
    have hstep : (applyAll mathcalHK (inputs ++ [next])).beta =
        ((transition mathcalHK (applyAll mathcalHK inputs) next).1).beta := by
      rw [applyAll, List.foldl_append]
      rfl
    have hlast : lastMmr (applyAll mathcalHK inputs).beta = appendAll mathcalHK (roots inputs) := by
      rw [ih, lastMmr_window]
    have hwindow : evictOldest (applyAll mathcalHK inputs).beta =
        (entries mathcalHK inputs).drop (inputs.length + 1 - H) := by
      have h := evictOldest_drop (entries mathcalHK inputs)
      rw [length_entries] at h
      rw [ih, h]
    have hroots : roots (inputs ++ [next]) = roots inputs ++ [next.accumulateRoot] := by
      simp [roots]
    rw [hstep, transition, hlast, hwindow, completeParent_drop, entries_snoc, hroots,
      appendAll_snoc, List.length_append, List.length_singleton,
      List.drop_append_of_le_length]
    rw [length_completeParent, length_entries, H]
    omega

/-- **The recent history window.** After `n` blocks applied to the empty state the
history has `min n 8` entries, those of the last blocks in order: the entry at position
`k` is that of the block `j` which is as far from the last block as `k` is from the
last entry. It carries the block's hash and packages, the mountain range obtained by
appending the accumulation roots of all blocks up to it, evicted ones included, and
the state root that the next block brings; the newest entry's state root is zero. -/
theorem recent_history_window (inputs : List (Input ω)) :
    (applyAll mathcalHK inputs).beta.length = min inputs.length 8 ∧
    ∀ k j, k < (applyAll mathcalHK inputs).beta.length →
      j + (applyAll mathcalHK inputs).beta.length = inputs.length + k →
      ∃ info input, (applyAll mathcalHK inputs).beta[k]? = some info ∧
        inputs[j]? = some input ∧
        info.headerHash = input.headerHash ∧ info.reported = input.workPackages ∧
        info.mmr = appendAll mathcalHK ((inputs.take (j + 1)).map Input.accumulateRoot) ∧
        (k + 1 < (applyAll mathcalHK inputs).beta.length →
          ∃ next, inputs[j + 1]? = some next ∧ info.stateRoot = next.parentStateRoot) ∧
        (k + 1 = (applyAll mathcalHK inputs).beta.length → info.stateRoot = ByteArr.fill 0) := by
  have hlength : (applyAll mathcalHK inputs).beta.length = min inputs.length 8 := by
    rw [beta_applyAll, List.length_drop, length_entries, H]
    omega
  rw [hlength]
  refine ⟨rfl, ?_⟩
  intro k j hk hj
  have hindex : inputs.length - H + k = j := by
    rw [H]
    omega
  have hbound : j < inputs.length := by omega
  refine ⟨entry mathcalHK inputs j inputs[j], inputs[j], ?_, List.getElem?_eq_getElem hbound,
    rfl, rfl, rfl, ?_, ?_⟩
  · rw [beta_applyAll, List.getElem?_drop, hindex, entries, List.getElem?_mapIdx,
      List.getElem?_eq_getElem hbound]
    rfl
  · intro hinner
    have hnext : inputs[j + 1]? = some inputs[j + 1] := List.getElem?_eq_getElem (by omega)
    refine ⟨_, hnext, ?_⟩
    simp only [entry, rootAfter, hnext]
  · intro hlast
    have hnone : inputs[j + 1]? = none := List.getElem?_eq_none (by omega)
    simp only [entry, rootAfter, hnone]

end CppJam.History
