import CppJam.Disputes.Effects

/-!
# Soundness of faults

A fault should only punish a vote that contradicts how its report is judged. The
transition tests a fault against the past judgements and never against the
verdicts of the extrinsic. Faults are therefore sound exactly on the extrinsics
without a fault on a new report that they do not judge good.
-/

namespace CppJam.Disputes

open Bytes Checks Containers

variable {Report : Type} {p : Primitives Report} {config : Config} {s s' : State Report}
  {ext : DisputesExtrinsic}

/-- A new verdict with a super majority of positive votes. -/
def JudgedGood (config : Config) (s : State Report) (v : Verdict) : Prop :=
  ¬Judged s v.target ∧ v.positives = config.validatorsSuperMajority.toNat

/-- The vote of every fault contradicts how its report is judged, and the reports
that become good are those with a new verdict of enough positive votes. -/
structure FaultSound (config : Config) (s : State Report) (ext : DisputesExtrinsic)
    (s' : State Report) : Prop where
  /-- A fault that votes against its report is on a good report. -/
  negative : ∀ f ∈ ext.faults, f.vote = false → f.target ∈ s.psi.good ∨
    ∃ v ∈ ext.verdicts, v.target = f.target ∧ JudgedGood config s v
  /-- A fault that votes for its report is on a bad report. -/
  positive : ∀ f ∈ ext.faults, f.vote = true → f.target ∈ s.psi.bad ∨
    ∃ v ∈ ext.verdicts, v.target = f.target ∧ ¬Judged s v.target ∧ ∀ j ∈ v.votes, j.vote = false
  /-- The good set grows by exactly the reports judged good. -/
  good : ∀ r, r ∈ s'.psi.good ↔ r ∈ s.psi.good ∨
    ∃ v ∈ ext.verdicts, v.target = r ∧ JudgedGood config s v

/-- A fault on a new report for which the extrinsic has no verdict, or one without
a super majority of positive votes. -/
def StrayFault (config : Config) (s : State Report) (ext : DisputesExtrinsic)
    (f : Fault) : Prop :=
  ¬Judged s f.target ∧ ∀ v ∈ ext.verdicts, v.target = f.target →
    v.positives ≠ config.validatorsSuperMajority.toNat

instance (config : Config) (s : State Report) (ext : DisputesExtrinsic) (f : Fault) :
    Decidable (StrayFault config s ext f) :=
  inferInstanceAs (Decidable (_ ∧ _))

/-- A new verdict with a super majority on both sides, which counts as bad, and
without a fault. -/
def TiedVerdict (config : Config) (s : State Report) (ext : DisputesExtrinsic)
    (v : Verdict) : Prop :=
  ¬Judged s v.target ∧ v.positives = config.validatorsSuperMajority.toNat ∧
    v.negatives = config.validatorsSuperMajority.toNat ∧ ∀ f ∈ ext.faults, f.target ≠ v.target

instance (config : Config) (s : State Report) (ext : DisputesExtrinsic) (v : Verdict) :
    Decidable (TiedVerdict config s ext v) :=
  inferInstanceAs (Decidable (_ ∧ _ ∧ _ ∧ _))

/-- A new verdict with a super majority of positive votes has a fault or as many
negative votes. -/
theorem Accepted.fault_of_judgedGood (haccepted : Accepted p config s ext) {v : Verdict}
    (hv : v ∈ ext.verdicts) (hgood : JudgedGood config s v) :
    (∃ f ∈ ext.faults, f.target = v.target) ∨
      v.negatives = config.validatorsSuperMajority.toNat := by
  obtain ⟨hnew, hpositives⟩ := hgood
  have hsum := v.positives_add_negatives
  by_cases hvotes : v.votes = []
  · have henough := (haccepted.verdicts_valid v hv).enough
    simp only [hvotes, List.length_nil] at henough hsum
    exact Or.inr (by omega)
  · obtain ⟨hbound, hfor, hagainst⟩ := haccepted.tally_bounds hv
    rcases haccepted.counted_cases hv ⟨hnew, hvotes⟩ with
      ⟨hbad, hculprits⟩ | ⟨_, _, _, hfaults⟩ | ⟨_, hnot, hhalf, _⟩
    · have hnonzero := (haccepted.verdict_of_culprit hv (by omega)).2
      exact Or.inr (by omega)
    · exact Or.inl (exists_fault_of_faultCount hfaults)
    · omega

/-- A fault that is not stray is on a report judged good, before or by a verdict of the
extrinsic. -/
theorem Accepted.good_of_not_stray {ext : DisputesExtrinsic} (haccepted : Accepted p config s ext)
    {f : Fault} (hf : f ∈ ext.faults) (hstray : ¬StrayFault config s ext f) :
    f.target ∈ s.psi.good ∨ ∃ v ∈ ext.verdicts, v.target = f.target ∧ JudgedGood config s v := by
  have hvalid := haccepted.faults_valid f hf
  by_cases hjudged : Judged s f.target
  · rcases hjudged with hgood | hbad | hwonky
    · exact Or.inl hgood
    · exact absurd (Or.inl ⟨haccepted.faults_negative f hf, hbad⟩) hvalid.contradicts
    · exact absurd hwonky hvalid.notWonky
  · simp only [StrayFault, not_and, not_forall, not_not] at hstray
    obtain ⟨v, hv, htarget, hpositives⟩ := hstray hjudged
    exact Or.inr ⟨v, hv, htarget, htarget ▸ hjudged, hpositives⟩

/-- An accepted extrinsic is sound in its faults exactly when it has no fault on a
new report without a super majority of positive votes, and no tied verdict
without a fault. -/
theorem faultSound_iff {order : HashOrder} {input : Input} {out : OutputData}
    (hok : transition p order config s input = .ok (s', .ok out)) :
    FaultSound config s input.disputes s' ↔
      (∀ f ∈ input.disputes.faults, ¬StrayFault config s input.disputes f) ∧
      (∀ v ∈ input.disputes.verdicts, ¬TiedVerdict config s input.disputes v) := by
  obtain ⟨haccepted, hextends⟩ := transition_accepted hok
  constructor
  · intro hsound
    constructor
    · rintro f hf ⟨hnew, hstray⟩
      have hvote := haccepted.faults_negative f hf
      rcases hsound.negative f hf hvote with hgood | ⟨v, hv, htarget, hgood⟩
      · exact hnew (Or.inl hgood)
      · exact hstray v hv htarget hgood.2
    · rintro v hv ⟨hnew, hpositives, _, hnone⟩
      have hmem := (hsound.good v.target).mpr (Or.inr ⟨v, hv, rfl, hnew, hpositives⟩)
      rcases (hextends.good v.target).mp hmem with hgood | ⟨f, hf, htarget⟩
      · exact hnew (Or.inl hgood)
      · exact hnone f hf htarget
  · rintro ⟨hstray, htied⟩
    have hnegative : ∀ f ∈ input.disputes.faults, f.target ∈ s.psi.good ∨
        ∃ v ∈ input.disputes.verdicts, v.target = f.target ∧ JudgedGood config s v :=
      fun f hf => haccepted.good_of_not_stray hf (hstray f hf)
    refine ⟨fun f hf _ => hnegative f hf, ?_, ?_⟩
    · intro f hf hvote
      rw [haccepted.faults_negative f hf] at hvote
      cases hvote
    · intro r
      rw [hextends.good r]
      constructor
      · rintro (hgood | ⟨f, hf, rfl⟩)
        · exact Or.inl hgood
        · exact hnegative f hf
      · rintro (hgood | ⟨v, hv, rfl, hgood⟩)
        · exact Or.inl hgood
        · refine Or.inr ?_
          by_contra hnone
          have hnegatives := (haccepted.fault_of_judgedGood hv hgood).resolve_left hnone
          push Not at hnone
          exact htied v hv ⟨hgood.1, hgood.2, hnegatives, hnone⟩

/-- With a verdict of five positive votes a fault is sound. -/
theorem faultSound_good_verdict :
    ∃ s' out,
      transition Scenario.primitives HashOrder.insertion Scenario.config Scenario.state
        ⟨⟨[Scenario.verdict [true, true, true, true, true]], [], [Scenario.fault 1]⟩⟩ =
          .ok (s', .ok out) ∧
      FaultSound Scenario.config Scenario.state
        ⟨[Scenario.verdict [true, true, true, true, true]], [], [Scenario.fault 1]⟩ s' := by
  have hok : transition Scenario.primitives HashOrder.insertion Scenario.config Scenario.state
      ⟨⟨[Scenario.verdict [true, true, true, true, true]], [], [Scenario.fault 1]⟩⟩ =
        .ok (_, .ok _) := rfl
  exact ⟨_, _, hok, (faultSound_iff hok).mpr (by decide)⟩

/-- A fault alone in its extrinsic is accepted: its key is punished and its report
becomes good although nobody judged it. -/
theorem not_faultSound_lone_fault :
    ∃ s' out,
      transition Scenario.primitives HashOrder.insertion Scenario.config Scenario.state
        ⟨⟨[], [], [Scenario.fault 1]⟩⟩ = .ok (s', .ok out) ∧
      s'.psi.good = [ByteArr.fill 7] ∧ s'.psi.offenders = [ByteArr.fill 1] ∧
      ¬FaultSound Scenario.config Scenario.state ⟨[], [], [Scenario.fault 1]⟩ s' := by
  refine ⟨_, _, rfl, rfl, rfl, fun hsound => ?_⟩
  have hnegative := hsound.negative (Scenario.fault 1) List.mem_cons_self rfl
  simp [Scenario.state] at hnegative

end CppJam.Disputes
