import CppJam.Disputes.Effects

/-!
# Soundness of culprits

A culprit should only punish the guarantee of a report that is judged bad. The
transition tests that the report has a new verdict with a negative vote, which a
wonky verdict has as well. Culprits are therefore sound exactly on the
extrinsics without a culprit on such a report.
-/

namespace CppJam.Disputes

open Bytes Checks Containers

variable {Report : Type} {p : Primitives Report} {config : Config} {s s' : State Report}
  {ext : DisputesExtrinsic}

/-- A new verdict with a super majority of negative votes and no positive one. -/
def JudgedBad (config : Config) (s : State Report) (v : Verdict) : Prop :=
  ¬Judged s v.target ∧ v.positives = 0 ∧ v.negatives = config.validatorsSuperMajority.toNat

/-- Every culprit is on a report that the same extrinsic judges bad, only such
culprits are punished, and the bad set grows by exactly the reports judged bad. -/
structure CulpritSound (config : Config) (s : State Report) (ext : DisputesExtrinsic)
    (s' : State Report) : Prop where
  /-- The report of a culprit has a verdict of negative votes only. -/
  culprits : ∀ c ∈ ext.culprits, ∃ v ∈ ext.verdicts, v.target = c.target ∧ JudgedBad config s v
  /-- A new offender has a fault or is a guarantor of a report judged bad. -/
  offenders : ∀ key ∈ s'.psi.offenders, key ∈ s.psi.offenders ∨
    (∃ f ∈ ext.faults, f.key = key) ∨
    ∃ c ∈ ext.culprits, c.key = key ∧ ∃ v ∈ ext.verdicts, v.target = c.target ∧
      JudgedBad config s v
  /-- The bad set grows by exactly the reports judged bad. -/
  bad : ∀ r, r ∈ s'.psi.bad ↔ r ∈ s.psi.bad ∨
    ∃ v ∈ ext.verdicts, v.target = r ∧ JudgedBad config s v

/-- A culprit on a report whose verdict in the extrinsic has a positive vote or
more votes than the super majority. -/
def WeakCulprit (config : Config) (ext : DisputesExtrinsic) (c : Culprit) : Prop :=
  ∃ v ∈ ext.verdicts, v.target = c.target ∧
    (v.positives ≠ 0 ∨ v.votes.length ≠ config.validatorsSuperMajority.toNat)

instance (config : Config) (ext : DisputesExtrinsic) (c : Culprit) :
    Decidable (WeakCulprit config ext c) :=
  inferInstanceAs (Decidable (∃ v ∈ ext.verdicts, _))

/-- A new verdict judged bad that has votes has a culprit. -/
theorem Accepted.culprit_of_judgedBad (haccepted : Accepted p config s ext) {v : Verdict}
    (hv : v ∈ ext.verdicts) (hbad : JudgedBad config s v) (hvotes : v.votes ≠ []) :
    ∃ c ∈ ext.culprits, c.target = v.target := by
  obtain ⟨hnew, hpositives, hnegatives⟩ := hbad
  have hlength := List.length_pos_iff.mpr hvotes
  have hsum := v.positives_add_negatives
  obtain ⟨hbound, hfor, hagainst⟩ := haccepted.tally_bounds hv
  rw [← culpritCount_pos_iff]
  rcases haccepted.counted_cases hv ⟨hnew, hvotes⟩ with
    ⟨_, hculprits⟩ | ⟨_, _, _, _⟩ | ⟨_, _, _, _⟩ <;> omega

/-- A culprit that is not weak is on a report with a bad verdict of the extrinsic. -/
theorem Accepted.bad_of_not_weak {ext : DisputesExtrinsic} (haccepted : Accepted p config s ext)
    {c : Culprit} (hc : c ∈ ext.culprits) (hweak : ¬WeakCulprit config ext c) :
    ∃ v ∈ ext.verdicts, v.target = c.target ∧ JudgedBad config s v := by
  obtain ⟨v, hv, htarget, hcounted, _⟩ := haccepted.culprits_backed c hc
  simp only [WeakCulprit, not_exists, not_and, not_or, not_not] at hweak
  obtain ⟨hpositives, hlength⟩ := hweak v hv htarget
  have hsum := v.positives_add_negatives
  exact ⟨v, hv, htarget, hcounted.1, hpositives, by omega⟩

/-- An accepted extrinsic is sound in its culprits exactly when no culprit is on a
report whose verdict has a positive vote or too many votes, and no new verdict
is without votes. -/
theorem culpritSound_iff {order : HashOrder} {input : Input} {out : OutputData}
    (hok : transition p order config s input = .ok (s', .ok out)) :
    CulpritSound config s input.disputes s' ↔
      (∀ c ∈ input.disputes.culprits, ¬WeakCulprit config input.disputes c) ∧
      (∀ v ∈ input.disputes.verdicts, ¬Judged s v.target → v.votes ≠ []) := by
  obtain ⟨haccepted, hextends⟩ := transition_accepted hok
  constructor
  · intro hsound
    constructor
    · rintro c hc ⟨v, hv, htarget, hweak⟩
      obtain ⟨w, hw, hwtarget, _, hpositives, hnegatives⟩ := hsound.culprits c hc
      obtain rfl := haccepted.verdict_unique hv hw (htarget.trans hwtarget.symm)
      have hsum := v.positives_add_negatives
      omega
    · intro v hv hnew hvotes
      have henough := (haccepted.verdicts_valid v hv).enough
      have hsum := v.positives_add_negatives
      simp only [hvotes, List.length_nil] at henough hsum
      have hjudged : JudgedBad config s v := ⟨hnew, by omega, by omega⟩
      have hmem := (hsound.bad v.target).mpr (Or.inr ⟨v, hv, rfl, hjudged⟩)
      rcases (hextends.bad v.target).mp hmem with hbad | hculprit
      · exact hnew (Or.inr (Or.inl hbad))
      · have hcounted := (haccepted.verdict_of_culprit hv (culpritCount_pos_iff.mpr hculprit)).1
        exact hcounted.2 hvotes
  · rintro ⟨hweak, hvotes⟩
    have hculprits : ∀ c ∈ input.disputes.culprits,
        ∃ v ∈ input.disputes.verdicts, v.target = c.target ∧ JudgedBad config s v :=
      fun c hc => haccepted.bad_of_not_weak hc (hweak c hc)
    refine ⟨hculprits, ?_, ?_⟩
    · intro key hkey
      rcases (hextends.offenders key).mp hkey with hold | ⟨c, hc, rfl⟩ | hfault
      · exact Or.inl hold
      · exact Or.inr (Or.inr ⟨c, hc, rfl, hculprits c hc⟩)
      · exact Or.inr (Or.inl hfault)
    · intro r
      rw [hextends.bad r]
      constructor
      · rintro (hbad | ⟨c, hc, rfl⟩)
        · exact Or.inl hbad
        · exact Or.inr (hculprits c hc)
      · rintro (hbad | ⟨v, hv, rfl, hjudged⟩)
        · exact Or.inl hbad
        · exact Or.inr (haccepted.culprit_of_judgedBad hv hjudged (hvotes v hv hjudged.1))

/-- With a verdict of five negative votes two culprits are sound. -/
theorem culpritSound_bad_verdict :
    ∃ s' out,
      transition Scenario.primitives HashOrder.insertion Scenario.config Scenario.state
        ⟨⟨[Scenario.verdict [false, false, false, false, false]],
          [Scenario.culprit 1, Scenario.culprit 2], []⟩⟩ = .ok (s', .ok out) ∧
      CulpritSound Scenario.config Scenario.state
        ⟨[Scenario.verdict [false, false, false, false, false]],
          [Scenario.culprit 1, Scenario.culprit 2], []⟩ s' := by
  have hok : transition Scenario.primitives HashOrder.insertion Scenario.config Scenario.state
      ⟨⟨[Scenario.verdict [false, false, false, false, false]],
        [Scenario.culprit 1, Scenario.culprit 2], []⟩⟩ = .ok (_, .ok _) := rfl
  exact ⟨_, _, hok, (culpritSound_iff hok).mpr (by decide)⟩

/-- A culprit on a report with a wonky verdict is accepted: the guarantor is
punished and the report becomes bad. -/
theorem not_culpritSound_wonky_verdict :
    ∃ s' out,
      transition Scenario.primitives HashOrder.insertion Scenario.config Scenario.state
        ⟨⟨[Scenario.verdict [true, true, false, false, false]], [Scenario.culprit 1], []⟩⟩ =
          .ok (s', .ok out) ∧
      s'.psi.bad = [ByteArr.fill 7] ∧ s'.psi.offenders = [ByteArr.fill 1] ∧
      ¬CulpritSound Scenario.config Scenario.state
        ⟨[Scenario.verdict [true, true, false, false, false]], [Scenario.culprit 1], []⟩ s' := by
  refine ⟨_, _, rfl, rfl, rfl, fun hsound => ?_⟩
  obtain ⟨v, hv, _, _, hpositives, _⟩ :=
    hsound.culprits (Scenario.culprit 1) List.mem_cons_self
  obtain rfl := List.mem_singleton.mp hv
  exact absurd hpositives (by decide)

end CppJam.Disputes
