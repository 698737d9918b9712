import CppJam.Disputes.Refinement
import Mathlib.Data.List.Perm.Subperm

/-!
# Votes and their 16-bit tallies

The transition classifies verdicts by counters that wrap at `2 ^ 16`. Strictly
increasing 16-bit indices bound the number of judgements, so a counter differs
from the number of votes only when all `2 ^ 16` votes are on its side.
-/

namespace CppJam.Disputes

open Bytes Checks Containers

variable {Report : Type}

/-- The number of votes for the report. -/
def Verdict.positives (v : Verdict) : ℕ := v.votes.countP (fun j => j.vote)

/-- The number of votes against the report. -/
def Verdict.negatives (v : Verdict) : ℕ := v.votes.countP (fun j => !j.vote)

/-- Every judgement is counted on one side. -/
theorem Verdict.positives_add_negatives (v : Verdict) :
    v.positives + v.negatives = v.votes.length := by
  have h := List.length_eq_countP_add_countP (fun j : Judgement => j.vote) (l := v.votes)
  simp only [Bool.not_eq_true, Bool.decide_eq_false] at h
  exact h.symm

/-- The counters hold the numbers of votes modulo `2 ^ 16`. -/
theorem Verdict.tally_eq (v : Verdict) :
    v.tally = (UInt16.ofNat v.positives, UInt16.ofNat v.negatives) := by
  have hfrom : ∀ (l : List Judgement) (a b : ℕ),
      l.foldl countVote (UInt16.ofNat a, UInt16.ofNat b) =
        (UInt16.ofNat (a + l.countP (fun j => j.vote)),
          UInt16.ofNat (b + l.countP (fun j => !j.vote))) := by
    intro l
    induction l with
    | nil => simp
    | cons j l ih =>
      intro a b
      rw [List.foldl_cons]
      cases hvote : j.vote with
      | false =>
        have h := ih a (b + 1)
        rw [UInt16.ofNat_add] at h
        simpa [countVote, hvote, Nat.add_assoc, Nat.add_comm 1] using h
      | true =>
        have h := ih (a + 1) b
        rw [UInt16.ofNat_add] at h
        simpa [countVote, hvote, Nat.add_assoc, Nat.add_comm 1] using h
  simpa [Verdict.tally, Verdict.positives, Verdict.negatives] using hfrom v.votes 0 0

/-- A strictly increasing list below `n` has at most `n` elements. -/
private theorem length_le_of_increasing {l : List ℕ} {n : ℕ} (hsorted : l.Pairwise (· < ·))
    (hbound : ∀ x ∈ l, x < n) : l.length ≤ n := by
  have hnodup : l.Nodup := hsorted.imp (fun h => h.ne)
  have hsubset : l ⊆ List.range n := fun x hx => List.mem_range.mpr (hbound x hx)
  simpa using (List.subperm_of_subset hnodup hsubset).length_le

/-- A valid verdict has at most as many judgements as its validator set has
members. -/
theorem VerdictValid.length_le_validators {p : Primitives Report} {config : Config}
    {s : State Report} {v : Verdict} (hvalid : VerdictValid p config s v) :
    v.votes.length ≤ (validatorsSet config s v.age).length := by
  have hbound : ∀ x ∈ v.votes.map (fun j => j.index.toNat),
      x < (validatorsSet config s v.age).length := by
    intro x hx
    obtain ⟨j, hj, rfl⟩ := List.mem_map.mp hx
    obtain ⟨validator, hget, _⟩ := hvalid.signed j hj
    exact (List.getElem?_eq_some_iff.mp hget).1
  simpa using length_le_of_increasing hvalid.increasing hbound

/-- A valid verdict has at most `2 ^ 16` judgements. -/
theorem VerdictValid.length_le {p : Primitives Report} {config : Config} {s : State Report}
    {v : Verdict} (hvalid : VerdictValid p config s v) : v.votes.length ≤ 65536 := by
  have hbound : ∀ x ∈ v.votes.map (fun j => j.index.toNat), x < 65536 := by
    intro x hx
    obtain ⟨j, _, rfl⟩ := List.mem_map.mp hx
    exact j.index.toNat_lt
  simpa using length_le_of_increasing hvalid.increasing hbound

/-- The counters of a tally, as numbers. -/
theorem Verdict.tally_toNat (v : Verdict) :
    v.tally.1.toNat = v.positives % 65536 ∧ v.tally.2.toNat = v.negatives % 65536 := by
  rw [v.tally_eq]
  simp [UInt16.toNat_ofNat']

/-- The counters of fewer than `2 ^ 16` judgements are the exact numbers of votes. -/
theorem Verdict.tally_toNat_of_length_le {v : Verdict} (hlength : v.votes.length ≤ 65535) :
    v.tally.1.toNat = v.positives ∧ v.tally.2.toNat = v.negatives := by
  have hsum := v.positives_add_negatives
  obtain ⟨hfor, hagainst⟩ := v.tally_toNat
  omega

/-! ## Accepted verdicts -/

section Accepted

variable {p : Primitives Report} {config : Config} {s : State Report} {ext : DisputesExtrinsic}

/-- An accepted extrinsic has at most one verdict for a report. -/
theorem Accepted.verdict_unique (haccepted : Accepted p config s ext) {v w : Verdict}
    (hv : v ∈ ext.verdicts) (hw : w ∈ ext.verdicts) (htarget : v.target = w.target) : v = w :=
  List.inj_on_of_nodup_map (haccepted.verdicts_sorted.imp (fun h => h.ne)) hv hw htarget

/-- The three ways in which an accepted new verdict is classified, with the
culprits and faults that each of them needs. -/
theorem Accepted.counted_cases (haccepted : Accepted p config s ext) {v : Verdict}
    (hv : v ∈ ext.verdicts) (hcounted : Counted s v) :
    (v.tally.2.toNat = config.validatorsSuperMajority.toNat ∧ 2 ≤ ext.culpritCount v.target) ∨
    (v.tally.2.toNat ≠ config.validatorsSuperMajority.toNat ∧
      v.tally.1.toNat = config.validatorsSuperMajority.toNat ∧
      ext.culpritCount v.target = 0 ∧ 1 ≤ ext.faultCount v.target) ∨
    (v.tally.2.toNat ≠ config.validatorsSuperMajority.toNat ∧
      v.tally.1.toNat ≠ config.validatorsSuperMajority.toNat ∧
      v.tally.1.toNat = config.validatorsSuperMajority.toNat / 2 ∧ v.tally.2.toNat ≠ 0) := by
  have hbacked := haccepted.verdicts_backed v hv hcounted
  unfold TallyBacked classify at hbacked
  split_ifs at hbacked with hbad hgood hwonky
  · exact Or.inl ⟨hbad, hbacked⟩
  · exact Or.inr (Or.inl ⟨hbad, hgood, hbacked⟩)
  · refine Or.inr (Or.inr ⟨hbad, hgood, hwonky.1, fun hzero => hwonky.2 ?_⟩)
    exact UInt16.toNat_inj.mp hzero
  · exact hbacked.elim

/-- A report with a positive number of faults has a fault. -/
theorem exists_fault_of_faultCount {r : WorkReportHash} (hcount : 1 ≤ ext.faultCount r) :
    ∃ f ∈ ext.faults, f.target = r := by
  obtain ⟨f, hf, htarget⟩ := List.countP_pos_iff.mp hcount
  exact ⟨f, hf, of_decide_eq_true htarget⟩

/-- A report has a culprit exactly when it has a positive number of culprits. -/
theorem culpritCount_pos_iff {r : WorkReportHash} :
    0 < ext.culpritCount r ↔ ∃ c ∈ ext.culprits, c.target = r := by
  simp [DisputesExtrinsic.culpritCount, List.countP_pos_iff]

/-- The counters of an accepted new verdict as numbers of at most `2 ^ 16` votes. -/
theorem Accepted.tally_bounds (haccepted : Accepted p config s ext) {v : Verdict}
    (hv : v ∈ ext.verdicts) :
    v.positives + v.negatives ≤ 65536 ∧ v.tally.1.toNat = v.positives % 65536 ∧
      v.tally.2.toNat = v.negatives % 65536 :=
  ⟨v.positives_add_negatives.le.trans (haccepted.verdicts_valid v hv).length_le, v.tally_toNat⟩

/-- The verdict of an accused report is new and has a negative vote. -/
theorem Accepted.verdict_of_culprit (haccepted : Accepted p config s ext) {v : Verdict}
    (hv : v ∈ ext.verdicts) (hculprit : 0 < ext.culpritCount v.target) :
    Counted s v ∧ v.tally.2.toNat ≠ 0 := by
  obtain ⟨c, hc, htarget⟩ := culpritCount_pos_iff.mp hculprit
  obtain ⟨w, hw, hwtarget, hcounted, hagainst⟩ := haccepted.culprits_backed c hc
  obtain rfl := haccepted.verdict_unique hw hv (hwtarget.trans htarget)
  exact ⟨hcounted, fun hzero => hagainst (UInt16.toNat_inj.mp hzero)⟩

end Accepted

end CppJam.Disputes
