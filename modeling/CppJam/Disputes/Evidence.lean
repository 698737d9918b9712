import CppJam.Disputes.Classification

/-!
# The evidence behind a verdict

A report judged bad needs two guarantors among the culprits, a report judged good
needs an auditor who voted against it among the faults and no culprit. The numbers
are taken from multimaps filled by other loops, and only the order of the culprits
makes the two guarantors different. A super majority against a report is tested
first, so the evidence is complete exactly for the verdicts without a super majority
on both sides at once.
-/

namespace CppJam.Disputes

open Bytes Checks Containers

variable {Report : Type} {p : Primitives Report} {order : HashOrder} {config : Config}
  {s s' : State Report} {ext : DisputesExtrinsic}

/-- The evidence that an extrinsic gives for a verdict, and its effect. -/
structure Evidenced (config : Config) (ext : DisputesExtrinsic) (s' : State Report)
    (v : Verdict) : Prop where
  /-- A super majority of judgements, all negative, comes with two culprits. -/
  bad : v.votes.length = config.validatorsSuperMajority.toNat →
    (∀ j ∈ v.votes, j.vote = false) →
    ∃ c₁ ∈ ext.culprits, ∃ c₂ ∈ ext.culprits,
      c₁.target = v.target ∧ c₂.target = v.target ∧ c₁.key ≠ c₂.key
  /-- A super majority of positive judgements comes with a negative fault and without a
  culprit. -/
  good : v.positives = config.validatorsSuperMajority.toNat →
    (∀ c ∈ ext.culprits, c.target ≠ v.target) ∧
      ∃ f ∈ ext.faults, f.target = v.target ∧ f.vote = false
  /-- The culprits of the report are punished. -/
  culprits_punished : ∀ c ∈ ext.culprits, c.target = v.target → c.key ∈ s'.psi.offenders
  /-- The auditors of the report with a fault are punished. -/
  faults_punished : ∀ f ∈ ext.faults, f.target = v.target → f.key ∈ s'.psi.offenders

/-- Of a list whose elements are related in order, two that pass a test are related. -/
private theorem exists_pair_of_two_le_countP {α : Type} {R : α → α → Prop} {q : α → Bool}
    {l : List α} (hpairwise : l.Pairwise R) (hcount : 2 ≤ l.countP q) :
    ∃ a ∈ l, ∃ b ∈ l, q a = true ∧ q b = true ∧ R a b := by
  have hfiltered := hpairwise.filter q
  have hmem : ∀ a ∈ l.filter q, a ∈ l ∧ q a = true := fun a ha => List.mem_filter.mp ha
  rw [List.countP_eq_length_filter] at hcount
  generalize l.filter q = passed at hfiltered hmem hcount
  match passed, hcount with
  | a :: b :: rest, _ =>
    obtain ⟨ha, hqa⟩ := hmem a List.mem_cons_self
    obtain ⟨hb, hqb⟩ := hmem b (List.mem_cons_of_mem a List.mem_cons_self)
    exact ⟨a, ha, b, hb, hqa, hqb, (List.pairwise_cons.mp hfiltered).1 b List.mem_cons_self⟩

/-- Two culprits of one report in an accepted extrinsic have different keys. -/
theorem Accepted.exists_two_culprits (haccepted : Accepted p config s ext) {r : WorkReportHash}
    (hcount : 2 ≤ ext.culpritCount r) :
    ∃ c₁ ∈ ext.culprits, ∃ c₂ ∈ ext.culprits,
      c₁.target = r ∧ c₂.target = r ∧ c₁.key ≠ c₂.key := by
  have hsorted := List.pairwise_map.mp haccepted.culprits_sorted
  obtain ⟨c₁, h₁, c₂, h₂, ht₁, ht₂, hlt⟩ := exists_pair_of_two_le_countP hsorted hcount
  exact ⟨c₁, h₁, c₂, h₂, of_decide_eq_true ht₁, of_decide_eq_true ht₂, hlt.ne⟩

/-- An accepted new verdict without a super majority on both sides is evidenced. -/
theorem Accepted.evidenced (haccepted : Accepted p config s ext)
    (hextends : Extends config s ext s') {v : Verdict} (hv : v ∈ ext.verdicts)
    (hnew : ¬Judged s v.target)
    (htie : ¬(v.positives = config.validatorsSuperMajority.toNat ∧
      v.negatives = config.validatorsSuperMajority.toNat)) :
    Evidenced config ext s' v := by
  have hsum := v.positives_add_negatives
  have henough := (haccepted.verdicts_valid v hv).enough
  have hcounted : Counted s v := by
    refine ⟨hnew, fun hvotes => htie ?_⟩
    rw [hvotes, List.length_nil] at hsum henough
    omega
  obtain ⟨hfor, hagainst⟩ := haccepted.tally_exact hv hcounted
  have hcases := haccepted.counted_cases hv hcounted
  rw [hfor, hagainst] at hcases
  constructor
  · intro hlength hnegative
    have hnone : v.positives = 0 := by
      rw [Verdict.positives, List.countP_eq_zero]
      intro j hj
      simp [hnegative j hj]
    exact haccepted.exists_two_culprits (by omega)
  · intro hpositives
    have hcounts : ext.culpritCount v.target = 0 ∧ 1 ≤ ext.faultCount v.target := by omega
    obtain ⟨f, hf, htarget⟩ := exists_fault_of_faultCount hcounts.2
    refine ⟨fun c hc htarget => ?_, f, hf, htarget, haccepted.faults_negative f hf⟩
    have hpos := culpritCount_pos_iff.mpr ⟨c, hc, htarget⟩
    omega
  · exact fun c hc _ => (hextends.offenders c.key).mpr (Or.inr (Or.inl ⟨c, hc, rfl⟩))
  · exact fun f hf _ => (hextends.offenders f.key).mpr (Or.inr (Or.inr ⟨f, hf, rfl⟩))

/-- **Evidence.** In an accepted extrinsic a new verdict comes with its evidence, and
the accused are punished, exactly when it does not have a super majority of positive
and one of negative judgements at once. -/
theorem evidenced_iff {input : Input} {out : OutputData}
    (hok : transition p order config s input = .ok (s', .ok out)) :
    ∀ v ∈ input.disputes.verdicts, ¬Judged s v.target →
      (Evidenced config input.disputes s' v ↔
        ¬(v.positives = config.validatorsSuperMajority.toNat ∧
          v.negatives = config.validatorsSuperMajority.toNat)) := by
  obtain ⟨haccepted, hextends⟩ := transition_accepted hok
  intro v hv hnew
  refine ⟨?_, haccepted.evidenced hextends hv hnew⟩
  rintro hevidence ⟨hpositives, hnegatives⟩
  have hnone := (hevidence.good hpositives).1
  by_cases hvotes : v.votes = []
  · have hsum := v.positives_add_negatives
    rw [hvotes, List.length_nil] at hsum
    have hlength : v.votes.length = config.validatorsSuperMajority.toNat := by
      rw [hvotes, List.length_nil]
      omega
    obtain ⟨c, hc, _, _, htarget, _, _⟩ := hevidence.bad hlength (by simp [hvotes])
    exact hnone c hc htarget
  · have hcounted : Counted s v := ⟨hnew, hvotes⟩
    have hcases := haccepted.counted_cases hv hcounted
    obtain ⟨hfor, hagainst⟩ := haccepted.tally_exact hv hcounted
    obtain ⟨c, hc, htarget⟩ := culpritCount_pos_iff.mp
      (show 0 < input.disputes.culpritCount v.target by omega)
    exact hnone c hc htarget

/-- Five negative votes with two culprits are evidenced. -/
theorem evidenced_bad_verdict :
    ∃ s' out,
      transition Scenario.primitives HashOrder.insertion Scenario.config Scenario.state
        ⟨⟨[Scenario.verdict [false, false, false, false, false]],
          [Scenario.culprit 1, Scenario.culprit 2], []⟩⟩ = .ok (s', .ok out) ∧
      Evidenced Scenario.config ⟨[Scenario.verdict [false, false, false, false, false]],
        [Scenario.culprit 1, Scenario.culprit 2], []⟩ s'
        (Scenario.verdict [false, false, false, false, false]) := by
  have hok : transition Scenario.primitives HashOrder.insertion Scenario.config Scenario.state
      ⟨⟨[Scenario.verdict [false, false, false, false, false]],
        [Scenario.culprit 1, Scenario.culprit 2], []⟩⟩ = .ok (_, .ok _) := rfl
  exact ⟨_, _, hok, (evidenced_iff hok _ (List.mem_singleton_self _) (by decide)).mpr (by decide)⟩

/-- The constants of the small network with another super majority. -/
def Scenario.configOfMajority (majority : UInt32) : Config :=
  { Scenario.config with validatorsSuperMajority := majority }

/-- With a super majority of zero a verdict without judgements is accepted without a
culprit. With a super majority of one a verdict of one positive and one negative
judgement is accepted with two culprits. -/
theorem not_evidenced_tie :
    (∃ s' out,
      transition Scenario.primitives HashOrder.insertion (Scenario.configOfMajority 0)
        Scenario.state ⟨⟨[Scenario.verdict []], [], []⟩⟩ = .ok (s', .ok out) ∧
      ¬Evidenced (Scenario.configOfMajority 0) ⟨[Scenario.verdict []], [], []⟩ s'
        (Scenario.verdict [])) ∧
    ∃ s' out,
      transition Scenario.primitives HashOrder.insertion (Scenario.configOfMajority 1)
        Scenario.state ⟨⟨[Scenario.verdict [true, false]],
          [Scenario.culprit 1, Scenario.culprit 2], []⟩⟩ = .ok (s', .ok out) ∧
      ¬Evidenced (Scenario.configOfMajority 1) ⟨[Scenario.verdict [true, false]],
        [Scenario.culprit 1, Scenario.culprit 2], []⟩ s' (Scenario.verdict [true, false]) := by
  refine ⟨⟨_, _, rfl, fun hevidence => ?_⟩, _, _, rfl, fun hevidence => ?_⟩
  · obtain ⟨c, hc, _⟩ := hevidence.bad rfl (by simp [Scenario.verdict])
    cases hc
  · exact (hevidence.good rfl).1 (Scenario.culprit 1) List.mem_cons_self rfl

end CppJam.Disputes
