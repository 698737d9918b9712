import CppJam.History.Transition
import CppJam.MountainRange.Positions

/-!
# The peaks of a mountain range

The loop of `mathcal_A` clears peaks and joins their hashes until it finds a free
place. This is the append of the mountain range library with the hash of two
concatenated roots as the join, so the peaks after a number of appends are known:
they are the binary digits of that number, each a perfect hash tree over the
leaves of its digit.
-/

namespace CppJam.History

open Bytes MountainRange

variable {mathcalHK : List Byte → OpaqueHash}

/-- The hash of two roots, the older one first. -/
def node (mathcalHK : List Byte → OpaqueHash) (older newer : OpaqueHash) : OpaqueHash :=
  mathcalHK (frown older newer).bytes

/-- Append leaves one by one to the empty mountain range. -/
def appendAll (mathcalHK : List Byte → OpaqueHash) (leaves : List OpaqueHash) : Mmr :=
  leaves.foldl (mathcalA mathcalHK) ⟨[]⟩

/-- At any index the loop has cleared the peaks before it and appends to the rest. -/
theorem mathcalALoop_peaks (rest : List (Option OpaqueHash)) (n : ℕ) (l : OpaqueHash) :
    (mathcalALoop mathcalHK rest.length n ⟨List.replicate n none ++ rest⟩ l).peaks =
      List.replicate n none ++ appendPeak (node mathcalHK) rest l := by
  induction rest generalizing n l with
  | nil => simp [mathcalALoop, appendPeak]
  | cons peak rest ih =>
    have hread : (List.replicate n none ++ peak :: rest)[n]? = some peak := by simp
    have hwrite : ∀ p, (List.replicate n none ++ peak :: rest).set n p =
        List.replicate n none ++ p :: rest := by
      intro p
      simp
    cases peak with
    | none => simp only [List.length_cons, mathcalALoop, hread, hwrite, appendPeak]
    | some root =>
      have hcleared : List.replicate n none ++ none :: rest =
          List.replicate (n + 1) (none : Option OpaqueHash) ++ rest := by
        rw [List.replicate_succ', List.append_assoc, List.singleton_append]
      simp only [List.length_cons, mathcalALoop, hread, hwrite, hcleared, ih]
      rw [List.replicate_succ', List.append_assoc, List.singleton_append]
      rfl

/-- `mathcal_A` appends to the peaks. -/
theorem mathcalA_peaks (r : Mmr) (l : OpaqueHash) :
    (mathcalA mathcalHK r l).peaks = appendPeak (node mathcalHK) r.peaks l :=
  mathcalALoop_peaks r.peaks 0 l

/-- The peaks after appending leaves one by one. -/
theorem appendAll_peaks (leaves : List OpaqueHash) :
    (appendAll mathcalHK leaves).peaks = leaves.foldl (appendPeak (node mathcalHK)) [] := by
  suffices h : ∀ r : Mmr, (leaves.foldl (mathcalA mathcalHK) r).peaks =
      leaves.foldl (appendPeak (node mathcalHK)) r.peaks from h ⟨[]⟩
  induction leaves with
  | nil => exact fun r => rfl
  | cons l leaves ih =>
    intro r
    rw [List.foldl_cons, ih, mathcalA_peaks]
    rfl

/-- **Structure of the mountain range.** Appending `n` leaves one by one to the empty
range gives as many peaks as `n` has binary digits. A peak is present exactly where
the bit of `n` is one; it is then the root of the perfect hash tree over the leaves
of that bit, older leaves on the left. From the highest bit down these leaves are all
leaves in order. -/
theorem mmr_structure (leaves : List OpaqueHash) :
    (appendAll mathcalHK leaves).peaks.length = leaves.length.size ∧
    (∀ i < (appendAll mathcalHK leaves).peaks.length,
      (∃ root, (appendAll mathcalHK leaves).peaks[i]? = some (some root)) ↔
        leaves.length.testBit i = true) ∧
    (∀ i root, (appendAll mathcalHK leaves).peaks[i]? = some (some root) →
      ∃ t : PerfectTree OpaqueHash i, t.leaves = segment leaves i ∧
        t.root (node mathcalHK) = root) ∧
    ((List.range (appendAll mathcalHK leaves).peaks.length).reverse.filter
      (fun i => leaves.length.testBit i)).flatMap (segment leaves) = leaves := by
  obtain ⟨hlength, hpresent, htree⟩ := @peaks_structure _ (node mathcalHK) leaves
  rw [appendAll_peaks, hlength]
  exact ⟨rfl, fun i _ => hpresent i, htree, flatMap_segment leaves⟩

end CppJam.History
