import CppJam.Disputes.Effects

/-!
# Replaying a block

A block that was accepted with a culprit or a fault is rejected when it is
applied again, since its keys are offenders by then. Without culprits and faults
all its new verdicts are wonky; on replay they are past verdicts and nothing
changes. A core that is left after the first application is left by the second.
-/

namespace CppJam.Disputes

open Bytes Checks Containers

variable {Report : Type} {p : Primitives Report} {config : Config} {s s' : State Report}
  {ext : DisputesExtrinsic}

/-- A past judgement stays one. -/
theorem Extends.judged (hextends : Extends config s ext s') {r : WorkReportHash}
    (hjudged : Judged s r) : Judged s' r := by
  rcases hjudged with hgood | hbad | hwonky
  · exact Or.inl ((hextends.good r).mpr (Or.inl hgood))
  · exact Or.inr (Or.inl ((hextends.bad r).mpr (Or.inl hbad)))
  · exact Or.inr (Or.inr ((hextends.wonky r).mpr (Or.inl hwonky)))

/-- An extrinsic that is accepted again has no culprit. -/
theorem Extends.culprits_eq_nil (hextends : Extends config s ext s')
    (hagain : Accepted p config s' ext) : ext.culprits = [] := by
  rw [List.eq_nil_iff_forall_not_mem]
  intro c hc
  refine (hagain.culprits_valid c hc).unpunished ?_
  exact (hextends.offenders c.key).mpr (Or.inr (Or.inl ⟨c, hc, rfl⟩))

/-- An extrinsic that is accepted again has no fault. -/
theorem Extends.faults_eq_nil (hextends : Extends config s ext s')
    (hagain : Accepted p config s' ext) : ext.faults = [] := by
  rw [List.eq_nil_iff_forall_not_mem]
  intro f hf
  refine (hagain.faults_valid f hf).unpunished ?_
  exact (hextends.offenders f.key).mpr (Or.inr (Or.inr ⟨f, hf, rfl⟩))

/-- Without culprits and faults every new verdict is wonky. -/
theorem Accepted.isWonky (haccepted : Accepted p config s ext) (hculprits : ext.culprits = [])
    (hfaults : ext.faults = []) {v : Verdict} (hv : v ∈ ext.verdicts) (hcounted : Counted s v) :
    IsWonky config s v := by
  have hbacked := haccepted.verdicts_backed v hv hcounted
  refine ⟨hcounted, ?_⟩
  simp only [TallyBacked, DisputesExtrinsic.culpritCount, DisputesExtrinsic.faultCount, hculprits,
    hfaults, List.countP_nil] at hbacked
  split at hbacked <;> simp_all

/-- On replay no verdict is new. -/
theorem Extends.not_counted (hextends : Extends config s ext s')
    (haccepted : Accepted p config s ext) (hagain : Accepted p config s' ext) {v : Verdict}
    (hv : v ∈ ext.verdicts) : ¬Counted s' v := by
  rintro ⟨hnew, hvotes⟩
  have hcounted : Counted s v := ⟨fun hjudged => hnew (hextends.judged hjudged), hvotes⟩
  have hwonky := haccepted.isWonky (hextends.culprits_eq_nil hagain)
    (hextends.faults_eq_nil hagain) hv hcounted
  exact hnew (Or.inr (Or.inr ((hextends.wonky v.target).mpr (Or.inr ⟨v, hv, hwonky, rfl⟩))))

/-- An extrinsic that is accepted again leaves the four sets as they are. -/
theorem outcome_replay {rho : List (Option (AvailabilityAssignment Report))}
    (haccepted : Accepted p config s ext)
    (hagain : Accepted p config (stateTick s (outcome config s ext) rho) ext) :
    (outcome config (stateTick s (outcome config s ext) rho) ext).newGoodSet =
      (outcome config s ext).newGoodSet ∧
    (outcome config (stateTick s (outcome config s ext) rho) ext).newBadSet =
      (outcome config s ext).newBadSet ∧
    (outcome config (stateTick s (outcome config s ext) rho) ext).newWonkySet =
      (outcome config s ext).newWonkySet ∧
    (outcome config (stateTick s (outcome config s ext) rho) ext).offences.newPunishSet =
      (outcome config s ext).offences.newPunishSet := by
  have hextends := stateTick_extends config s ext rho
  have hculprits := hextends.culprits_eq_nil hagain
  have hfaults := hextends.faults_eq_nil hagain
  have hnone : ext.verdicts.filter
      (fun v => IsWonky config (stateTick s (outcome config s ext) rho) v) = [] := by
    rw [List.filter_eq_nil_iff]
    intro v hv
    simp only [decide_eq_true_eq]
    exact fun hwonky => hextends.not_counted haccepted hagain hv hwonky.1
  have hkeys : reportedKeys ext = [] := by
    rw [List.eq_nil_iff_forall_not_mem]
    intro key
    simp [mem_reportedKeys, hculprits, hfaults]
  have hsame (t : OrderedSet) {l : List (ByteArr 32)} (hl : l = []) :
      (asSet (asVec t)).insertRange l = t := by
    rw [asSet_asVec, hl]
    rfl
  refine ⟨hsame _ ?_, hsame _ ?_, hsame _ ?_, hsame _ hkeys⟩
  · rw [hfaults, List.map_nil]
  · rw [hculprits, List.map_nil]
  · rw [hnone, List.map_nil]

/-- A row that is left or cleared once is left by clearing it again. -/
theorem clearRow_replay {j j' : Judgment} (hbad : j'.newBadSet = j.newBadSet)
    (hwonky : j'.newWonkySet = j.newWonkySet) {row row' : Option (AvailabilityAssignment Report)}
    (hrow : clearRow p config j row = .ok row') : clearRow p config j' row' = .ok row' := by
  cases row with
  | none =>
    cases hrow
    rfl
  | some assignment =>
    cases hencode : p.encodeWithConfig assignment.report config with
    | none => simp [clearRow, hencode] at hrow
    | some encoded =>
      simp only [clearRow, hencode] at hrow
      split_ifs at hrow with hjudged
      · cases hrow
        rfl
      · cases hrow
        simp only [clearRow, hencode, hbad, hwonky, if_neg hjudged]

/-- Storing the same sets and cores again changes nothing. -/
theorem stateTick_replay {j j' : Judgment} {rho : List (Option (AvailabilityAssignment Report))}
    (hgood : j'.newGoodSet = j.newGoodSet) (hbad : j'.newBadSet = j.newBadSet)
    (hwonky : j'.newWonkySet = j.newWonkySet)
    (hpunish : j'.offences.newPunishSet = j.offences.newPunishSet) :
    stateTick (stateTick s j rho) j' rho = stateTick s j rho := by
  simp [stateTick, hgood, hbad, hwonky, hpunish]

/-- Applying a block a second time leaves the state of the first application, for
any enumeration orders in the two applications. -/
theorem transition_replay {o₁ o₂ : HashOrder} {input : Input}
    {out : Output ErrorCode OutputData}
    (hfirst : transition p o₁ config s input = .ok (s', out)) :
    ∃ out', transition p o₂ config s' input = .ok (s', out') := by
  cases out with
  | err code =>
    obtain rfl := transition_rejected hfirst
    have hstate := transition_state_order p o₁ o₂ config s' input
    rw [hfirst] at hstate
    cases hsecond : transition p o₂ config s' input with
    | error cause => simp [hsecond, Except.map] at hstate
    | ok result =>
      rw [hsecond] at hstate
      obtain ⟨state, out'⟩ := result
      cases hstate
      exact ⟨out', rfl⟩
  | ok data =>
    obtain ⟨hlength, haccepted, rho, hrho, rfl, _⟩ := transition_eq_ok_iff.mp hfirst
    by_cases hagain : Accepted p config
        (stateTick s (outcome config s input.disputes) rho) input.disputes
    · obtain ⟨hgood, hbad, hwonky, hpunish⟩ := outcome_replay haccepted hagain
      refine ⟨_, transition_eq_ok_iff.mpr ⟨hlength, hagain, rho, ?_, ?_, rfl⟩⟩
      · exact mapM_fixed (fun _ _ hrow => clearRow_replay hbad hwonky hrow) hrho
      · exact stateTick_replay hgood hbad hwonky hpunish
    · obtain ⟨code, hrejected⟩ := transition_of_not_accepted hlength hagain o₂
      exact ⟨_, hrejected⟩

/-- A block with a wonky verdict is accepted, clears the core of its report and is
accepted again without effect. -/
theorem transition_replay_scenario :
    ∃ s' out out',
      transition Scenario.primitives HashOrder.insertion Scenario.config Scenario.state
        ⟨⟨[Scenario.verdict [true, true, false, false, false]], [], []⟩⟩ = .ok (s', out) ∧
      s'.rho = [none, none] ∧
      transition Scenario.primitives HashOrder.insertion Scenario.config s'
        ⟨⟨[Scenario.verdict [true, true, false, false, false]], [], []⟩⟩ = .ok (s', out') := by
  have hfirst : transition Scenario.primitives HashOrder.insertion Scenario.config Scenario.state
      ⟨⟨[Scenario.verdict [true, true, false, false, false]], [], []⟩⟩ = .ok (_, _) := rfl
  obtain ⟨out', hsecond⟩ := transition_replay hfirst
  exact ⟨_, _, out', hfirst, rfl, hsecond⟩

end CppJam.Disputes
