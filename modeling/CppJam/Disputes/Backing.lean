import CppJam.Disputes.Votes

/-!
# Every verdict is backed by distinct validators

An accepted verdict carries enough judgements of different validators of the
set its age selects, each signed for its vote. The counters that classify it are
the exact numbers of its own votes, although they have 16 bits and are filled
through a registry that holds the judgements of all verdicts.
-/

namespace CppJam.Disputes

open Bytes Checks Containers

variable {Report : Type}

/-- The validator set of a verdict's age: the current validators for the current
epoch and the previous ones for the epoch before. -/
theorem VerdictValid.validatorsSet_cases {p : Primitives Report} {config : Config}
    {s : State Report} {v : Verdict} (hvalid : VerdictValid p config s v) :
    (v.age.toNat = currentEpoch config s ∧ validatorsSet config s v.age = s.kappa) ∨
      (v.age.toNat + 1 = currentEpoch config s ∧ validatorsSet config s v.age = s.lambda) := by
  by_cases hage : v.age.toNat = currentEpoch config s
  · exact Or.inl ⟨hage, if_pos hage⟩
  · have hprevious := hvalid.age.resolve_left hage
    refine Or.inr ⟨?_, if_neg hage⟩
    unfold previousEpoch at hprevious
    split_ifs at hprevious with hzero <;> omega

/-- Over validator sets of at most 65535 members the counters of a valid verdict
are the exact numbers of votes. -/
theorem VerdictValid.tally_exact {p : Primitives Report} {config : Config} {s : State Report}
    {v : Verdict} (hvalid : VerdictValid p config s v) (hkappa : s.kappa.length ≤ 65535)
    (hlambda : s.lambda.length ≤ 65535) :
    v.tally.1.toNat = v.positives ∧ v.tally.2.toNat = v.negatives := by
  have hlength := hvalid.length_le_validators
  apply Verdict.tally_toNat_of_length_le
  rcases hvalid.validatorsSet_cases with ⟨_, hset⟩ | ⟨_, hset⟩ <;> rw [hset] at hlength <;> omega

/-- In an accepted extrinsic over validator sets of at most 65535 members,
verdict targets strictly increase. Every verdict has at least
`validators_super_majority` judgements with strictly increasing indices into the
validator set of its age, each signed by that validator for its vote. The
counters that classify a new verdict are the exact numbers of its own votes. -/
theorem verdict_backing {p : Primitives Report} {order : HashOrder} {config : Config}
    {s s' : State Report} {input : Input} {out : OutputData}
    (hkappa : s.kappa.length ≤ 65535) (hlambda : s.lambda.length ≤ 65535)
    (hok : transition p order config s input = .ok (s', .ok out)) :
    (input.disputes.verdicts.map Verdict.target).Pairwise (· < ·) ∧
    (∀ v ∈ input.disputes.verdicts,
      config.validatorsSuperMajority.toNat ≤ v.votes.length ∧
      (v.votes.map (fun j => j.index.toNat)).Pairwise (· < ·) ∧
      ∃ validators,
        ((v.age.toNat = s.tau.toNat / config.epochLength.toNat ∧ validators = s.kappa) ∨
          (v.age.toNat + 1 = s.tau.toNat / config.epochLength.toNat ∧ validators = s.lambda)) ∧
        ∀ j ∈ v.votes, ∃ validator, validators[j.index.toNat]? = some validator ∧
          p.verify j.signature
            ((if j.vote then kJamValid.bytes else kJamInvalid.bytes) ++ v.target.bytes)
            validator.ed25519 = true) ∧
    ∃ registry, checkVerdicts p config s input.disputes.verdicts = .ok registry ∧
      ∀ v ∈ input.disputes.verdicts, ¬Judged s v.target →
        (∀ counts, ⟨v.target, counts⟩ ∈ order.votes (voteCountByJudgements order registry).entries →
          counts.1.toNat = v.positives ∧ counts.2.toNat = v.negatives) ∧
        (v.votes ≠ [] → ∃ counts,
          ⟨v.target, counts⟩ ∈ order.votes (voteCountByJudgements order registry).entries) := by
  obtain ⟨_, haccepted, _⟩ := transition_eq_ok_iff.mp hok
  refine ⟨haccepted.verdicts_sorted, ?_, ?_⟩
  · intro v hv
    have hvalid := haccepted.verdicts_valid v hv
    refine ⟨hvalid.enough, hvalid.increasing, validatorsSet config s v.age,
      hvalid.validatorsSet_cases, ?_⟩
    exact hvalid.signed
  · refine ⟨judgementsRegistry s input.disputes.verdicts,
      checkVerdicts_eq_ok.mpr ⟨haccepted.verdicts_sorted, haccepted.verdicts_valid, rfl⟩, ?_⟩
    intro v hv hnew
    constructor
    · intro counts hcounts
      obtain ⟨w, hw, htarget, _, htally⟩ :=
        (mem_votes_entries haccepted.verdicts_sorted order).mp hcounts
      obtain rfl := haccepted.verdict_unique hw hv htarget
      rw [← (show w.tally = counts from htally)]
      exact (haccepted.verdicts_valid w hw).tally_exact hkappa hlambda
    · intro hvotes
      exact ⟨v.tally, (mem_votes_entries haccepted.verdicts_sorted order).mpr
        ⟨v, hv, rfl, ⟨hnew, hvotes⟩, rfl⟩⟩

/-- A block with a wonky verdict of the six validators is accepted, and its
counters are exact. -/
theorem verdict_backing_scenario :
    ∃ s' out,
      transition Scenario.primitives HashOrder.insertion Scenario.config Scenario.state
        ⟨⟨[Scenario.verdict [true, true, false, false, false]], [], []⟩⟩ = .ok (s', .ok out) ∧
      ∃ registry, checkVerdicts Scenario.primitives Scenario.config Scenario.state
          [Scenario.verdict [true, true, false, false, false]] = .ok registry ∧
        ∀ counts, ⟨ByteArr.fill 7, counts⟩ ∈
            HashOrder.insertion.votes (voteCountByJudgements HashOrder.insertion registry).entries →
          counts.1.toNat = 2 ∧ counts.2.toNat = 3 := by
  have hok : transition Scenario.primitives HashOrder.insertion Scenario.config Scenario.state
      ⟨⟨[Scenario.verdict [true, true, false, false, false]], [], []⟩⟩ = .ok (_, .ok _) := rfl
  obtain ⟨_, _, registry, hregistry, hcounts⟩ := verdict_backing (by decide) (by decide) hok
  refine ⟨_, _, hok, registry, hregistry, ?_⟩
  exact (hcounts _ (List.mem_singleton_self _) (by decide)).1

end CppJam.Disputes
