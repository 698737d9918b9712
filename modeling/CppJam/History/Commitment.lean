import CppJam.History.Window

/-!
# The mountain range commits to its leaves

Two sequences of leaves with the same peaks are the same sequence, or the appends
hashed two different strings to the same value. The strings are found by a search
through what the two sequences of appends hash, so a collision is not only said to
exist but computed from the leaves.
-/

namespace CppJam.History

open Bytes MountainRange

variable {ω : Type} {mathcalHK : List Byte → OpaqueHash}

/-- The strings that appending leaves one by one to the empty range hashes. -/
def hashed (mathcalHK : List Byte → OpaqueHash) (leaves : List OpaqueHash) : List (ByteArr 64) :=
  (sequenceJoins (node mathcalHK) [] leaves).map (fun pair => frown pair.1 pair.2)

/-- Two different strings with the same hash, one hashed for each of the two sequences
of leaves. -/
def findCollision (mathcalHK : List Byte → OpaqueHash) (leaves leaves' : List OpaqueHash) :
    Option (ByteArr 64 × ByteArr 64) :=
  ((hashed mathcalHK leaves).product (hashed mathcalHK leaves')).find? (fun (x, y) =>
    x ≠ y ∧ mathcalHK x.bytes = mathcalHK y.bytes)

/-- Concatenations of two roots are equal only if the roots are. -/
theorem frown_injective {m n : ℕ} {x x' : ByteArr m} {y y' : ByteArr n}
    (h : frown x y = frown x' y') : x = x' ∧ y = y' := by
  have hbytes : x.bytes ++ y.bytes = x'.bytes ++ y'.bytes := congrArg ByteArr.bytes h
  obtain ⟨hx, hy⟩ := List.append_inj hbytes (x.size_eq.trans x'.size_eq.symm)
  exact ⟨ByteArr.ext hx, ByteArr.ext hy⟩

/-- When the joins of two sequences collide, the search finds a collision. -/
theorem findCollision_of_collides {leaves leaves' : List OpaqueHash}
    (h : Collides (node mathcalHK) (sequenceJoins (node mathcalHK) [] leaves)
      (sequenceJoins (node mathcalHK) [] leaves')) :
    ∃ x y, findCollision mathcalHK leaves leaves' = some (x, y) ∧ x ≠ y ∧
      mathcalHK x.bytes = mathcalHK y.bytes := by
  obtain ⟨pair, hpair, pair', hpair', hne, hnode⟩ := h
  have hmem : (frown pair.1 pair.2, frown pair'.1 pair'.2) ∈
      (hashed mathcalHK leaves).product (hashed mathcalHK leaves') :=
    List.pair_mem_product.mpr ⟨List.mem_map_of_mem hpair, List.mem_map_of_mem hpair'⟩
  have hdiffers : frown pair.1 pair.2 ≠ frown pair'.1 pair'.2 := by
    intro heq
    obtain ⟨hfst, hsnd⟩ := frown_injective heq
    exact hne (Prod.ext hfst hsnd)
  have hfound : (findCollision mathcalHK leaves leaves').isSome := by
    rw [findCollision, List.find?_isSome]
    exact ⟨_, hmem, decide_eq_true ⟨hdiffers, hnode⟩⟩
  obtain ⟨⟨x, y⟩, hxy⟩ := Option.isSome_iff_exists.mp hfound
  have hsound := List.find?_some (show List.find? _ _ = some (x, y) from hxy)
  exact ⟨x, y, hxy, of_decide_eq_true hsound⟩

/-- **Binding.** When appending two sequences of leaves, of any lengths, to the empty range
gives the same peaks, the sequences are equal or the search finds two different
64-byte strings with the same hash. So the mountain range in the newest entry of the
history commits to the accumulation roots of all blocks. -/
theorem mmr_binding :
    (∀ leaves leaves' : List OpaqueHash,
      (appendAll mathcalHK leaves).peaks = (appendAll mathcalHK leaves').peaks →
      leaves = leaves' ∨ ∃ x y : ByteArr 64,
        findCollision mathcalHK leaves leaves' = some (x, y) ∧ x ≠ y ∧
          mathcalHK x.bytes = mathcalHK y.bytes) ∧
    ∀ inputs inputs' : List (Input ω),
      lastMmr (applyAll mathcalHK inputs).beta = lastMmr (applyAll mathcalHK inputs').beta →
      inputs.map Input.accumulateRoot = inputs'.map Input.accumulateRoot ∨
        ∃ x y : ByteArr 64, findCollision mathcalHK (inputs.map Input.accumulateRoot)
          (inputs'.map Input.accumulateRoot) = some (x, y) ∧ x ≠ y ∧
            mathcalHK x.bytes = mathcalHK y.bytes := by
  have hbinding : ∀ leaves leaves' : List OpaqueHash,
      (appendAll mathcalHK leaves).peaks = (appendAll mathcalHK leaves').peaks →
      leaves = leaves' ∨ ∃ x y : ByteArr 64,
        findCollision mathcalHK leaves leaves' = some (x, y) ∧ x ≠ y ∧
          mathcalHK x.bytes = mathcalHK y.bytes := by
    intro leaves leaves' hpeaks
    rw [appendAll_peaks, appendAll_peaks] at hpeaks
    exact (eq_or_collides_of_peaks_eq hpeaks).imp_right findCollision_of_collides
  refine ⟨hbinding, ?_⟩
  intro inputs inputs' hmmr
  rw [beta_applyAll, beta_applyAll, lastMmr_window, lastMmr_window] at hmmr
  exact hbinding _ _ (congrArg Mmr.peaks hmmr)

/-- With a constant hash two leaves and two other leaves have the same peaks, and the
search finds the two concatenations. -/
theorem mmr_binding_constant_hash :
    ∃ x y : ByteArr 64, x ≠ y ∧
      findCollision (fun _ => ByteArr.fill 0) [ByteArr.fill 1, ByteArr.fill 2]
        [ByteArr.fill 3, ByteArr.fill 4] = some (x, y) := by
  obtain ⟨hbinding, _⟩ := @mmr_binding Unit (fun _ => ByteArr.fill 0)
  rcases hbinding [ByteArr.fill 1, ByteArr.fill 2] [ByteArr.fill 3, ByteArr.fill 4] rfl with
    heq | ⟨x, y, hfound, hne, _⟩
  · cases heq
  · exact ⟨x, y, hne, hfound⟩

end CppJam.History
