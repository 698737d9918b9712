import CppJam.Disputes.Acceptance

/-!
# What the registries count

The registries mix the entries of all verdicts, culprits and faults and are
enumerated in an order of the library's choice. Because verdict targets are
distinct, the counters found for a report are nevertheless those of its one new
verdict.
-/

namespace CppJam.Disputes

open Bytes Containers

variable {Report : Type}

/-- Counting two judgements in either order gives the same counters. -/
instance : RightCommutative countVote where
  right_comm counts a b := by
    cases ha : a.vote <;> cases hb : b.vote <;> simp [countVote, ha, hb]

/-- The registry concatenates the judgements of the new verdicts. -/
theorem judgementsRegistry_eq_flatMap (s : State Report) (verdicts : List Verdict) :
    judgementsRegistry s verdicts = verdicts.flatMap (register s []) := by
  have hfrom : ∀ registry, verdicts.foldl (register s) registry =
      registry ++ verdicts.flatMap (register s []) := by
    induction verdicts with
    | nil => simp
    | cons v verdicts ih =>
      intro registry
      rw [List.foldl_cons, ih, List.flatMap_cons]
      simp only [register]
      split_ifs <;> simp
  exact hfrom []

/-- What a verdict registers is registered under its own target. -/
private theorem valuesAt_register (s : State Report) (r : WorkReportHash) (v : Verdict) :
    valuesAt r (register s [] v) = if v.target = r ∧ ¬Judged s r then v.votes else [] := by
  by_cases hr : v.target = r
  · subst hr
    by_cases hj : Judged s v.target
    · simp [register, hj, valuesAt]
    · simp [register, hj]
  · by_cases hj : Judged s v.target
    · simp [register, hj, hr, valuesAt]
    · simp [register, hj, hr]

/-- A report without a verdict has no registered judgements. -/
private theorem valuesAt_registry_eq_nil {s : State Report} {verdicts : List Verdict}
    {r : WorkReportHash} (hr : ∀ v ∈ verdicts, v.target ≠ r) :
    valuesAt r (verdicts.flatMap (register s [])) = [] := by
  induction verdicts with
  | nil => rfl
  | cons v verdicts ih =>
    rw [List.forall_mem_cons] at hr
    rw [List.flatMap_cons, valuesAt_append, valuesAt_register, ih hr.2]
    simp [hr.1]

/-- The judgements registered under the target of a new verdict are its own. -/
theorem valuesAt_judgementsRegistry {s : State Report} {verdicts : List Verdict}
    (hsorted : (verdicts.map Verdict.target).Pairwise (· < ·)) {v : Verdict} (hv : v ∈ verdicts) :
    valuesAt v.target (judgementsRegistry s verdicts) =
      if Judged s v.target then [] else v.votes := by
  rw [judgementsRegistry_eq_flatMap]
  induction verdicts with
  | nil => simp at hv
  | cons w verdicts ih =>
    rw [List.map_cons, List.pairwise_cons, List.forall_mem_map] at hsorted
    obtain ⟨hhead, htail⟩ := hsorted
    rw [List.flatMap_cons, valuesAt_append, valuesAt_register]
    rcases List.mem_cons.mp hv with rfl | hv
    · rw [valuesAt_registry_eq_nil (fun u hu => (hhead u hu).ne')]
      simp [ite_not]
    · rw [ih htail hv]
      simp [(hhead v hv).ne]

/-- The counters found for a report are the tally of its one new verdict, for
every enumeration order. -/
theorem lookup_voteCountByJudgements {s : State Report} {verdicts : List Verdict}
    (hsorted : (verdicts.map Verdict.target).Pairwise (· < ·)) (order : HashOrder)
    {r : WorkReportHash} {counts : UInt16 × UInt16} :
    (voteCountByJudgements order (judgementsRegistry s verdicts)).lookup r = some counts ↔
      ∃ v ∈ verdicts, v.target = r ∧ Counted s v ∧ v.tally = counts := by
  rw [voteCountByJudgements, lookup_groupFold_perm (order.judgements_perm _), lookup_groupFold]
  constructor
  · intro h
    by_cases hr : ∃ v ∈ verdicts, v.target = r
    · obtain ⟨v, hv, rfl⟩ := hr
      rw [valuesAt_judgementsRegistry hsorted hv] at h
      by_cases hj : Judged s v.target
      · simp [hj] at h
      · simp only [hj, if_false, ite_eq_iff, reduceCtorEq, and_false, Option.some.injEq,
          false_or] at h
        exact ⟨v, hv, rfl, ⟨hj, h.1⟩, h.2⟩
    · push Not at hr
      rw [judgementsRegistry_eq_flatMap, valuesAt_registry_eq_nil hr] at h
      simp at h
  · rintro ⟨v, hv, rfl, ⟨hj, hvotes⟩, rfl⟩
    rw [valuesAt_judgementsRegistry hsorted hv]
    simp [hj, hvotes, Verdict.tally]

/-- The enumerated tallies are those of the new verdicts. -/
theorem mem_votes_entries {s : State Report} {verdicts : List Verdict}
    (hsorted : (verdicts.map Verdict.target).Pairwise (· < ·)) (order : HashOrder)
    {entry : Σ _ : WorkReportHash, UInt16 × UInt16} :
    entry ∈ order.votes (voteCountByJudgements order (judgementsRegistry s verdicts)).entries ↔
      ∃ v ∈ verdicts, v.target = entry.1 ∧ Counted s v ∧ v.tally = entry.2 := by
  rw [(order.votes_perm _).mem_iff, ← lookup_voteCountByJudgements hsorted order]
  exact AList.mem_lookup_iff.symm

/-- The culprits registry counts the culprits of a report. -/
theorem culpritsRegistry_count (ext : DisputesExtrinsic) (r : WorkReportHash) :
    (culpritsRegistry ext.culprits).count r = ext.culpritCount r :=
  Multimap.count_foldl_emplace Culprit.target id ext.culprits r

/-- The faults registry counts the faults of a report. -/
theorem faultsRegistry_count (ext : DisputesExtrinsic) (r : WorkReportHash) :
    (faultsRegistry ext.faults).count r = ext.faultCount r :=
  Multimap.count_foldl_emplace Fault.target id ext.faults r

/-- The keys of the culprits registry are the targets of the culprits. -/
theorem mem_culpritsRegistry_keys {culprits : List Culprit} {r : WorkReportHash} :
    r ∈ (culpritsRegistry culprits).keys ↔ ∃ c ∈ culprits, c.target = r :=
  Multimap.mem_keys_foldl_emplace Culprit.target id culprits

/-- The keys of the faults registry are the targets of the faults. -/
theorem mem_faultsRegistry_keys {faults : List Fault} {r : WorkReportHash} :
    r ∈ (faultsRegistry faults).keys ↔ ∃ f ∈ faults, f.target = r :=
  Multimap.mem_keys_foldl_emplace Fault.target id faults

/-- The values of the culprits registry are the culprits. -/
theorem mem_culpritsRegistry_values {culprits : List Culprit} {c : Culprit} :
    c ∈ (culpritsRegistry culprits).items.map Prod.snd ↔ c ∈ culprits := by
  have h := Multimap.mem_values_foldl_emplace Culprit.target id culprits (v := c)
  simp only [id, exists_eq_right] at h
  exact h

/-- The values of the faults registry are the faults. -/
theorem mem_faultsRegistry_values {faults : List Fault} {f : Fault} :
    f ∈ (faultsRegistry faults).items.map Prod.snd ↔ f ∈ faults := by
  have h := Multimap.mem_values_foldl_emplace Fault.target id faults (v := f)
  simp only [id, exists_eq_right] at h
  exact h

end CppJam.Disputes
