import CppJam.Disputes.Classification

/-!
# Clearing of cores

After the analysis the transition clears every core whose report is in the new bad or
wonky set. It does not look at the verdicts again. A core is nevertheless cleared when
the extrinsic judges its report bad or wonky and kept when it judges the report good or
does not judge it, since nothing else adds a report to the two sets.
-/

namespace CppJam.Disputes

open Bytes Checks Containers

variable {Report : Type} {p : Primitives Report} {order : HashOrder} {config : Config}
  {s s' : State Report} {ext : DisputesExtrinsic}

/-- Core `i` holds an assignment whose report has hash `r`. -/
def HoldsReport (p : Primitives Report) (config : Config) (s : State Report) (i : ℕ)
    (assignment : AvailabilityAssignment Report) (r : WorkReportHash) : Prop :=
  s.rho[i]? = some (some assignment) ∧
    (p.encodeWithConfig assignment.report config).map p.mathcalH = some r

/-- The reports that a new verdict adds to the two sets from which cores are cleared. -/
theorem Accepted.judged_by_verdict (haccepted : Accepted p config s ext)
    (hextends : Extends config s ext s') {v : Verdict} (hv : v ∈ ext.verdicts)
    (hnew : ¬Judged s v.target) :
    (v.HasKind config .bad → v.target ∈ s'.psi.bad) ∧
    (v.HasKind config .wonky → v.target ∈ s'.psi.wonky) ∧
    (v.HasKind config .good → v.target ∉ s'.psi.bad ∧ v.target ∉ s'.psi.wonky) := by
  have hclass {kind : VerdictKind} (hkind : v.HasKind config kind) :
      Counted s v ∧ classify config v.tally = .ok kind :=
    ⟨⟨hnew, hkind.1⟩, (haccepted.classify_iff hv ⟨hnew, hkind.1⟩).mpr hkind⟩
  refine ⟨fun hbad => ?_, fun hwonky => ?_, fun hgood => ?_⟩
  · obtain ⟨hcounted, hclass⟩ := hclass hbad
    have hbacked := haccepted.verdicts_backed v hv hcounted
    simp only [TallyBacked, hclass] at hbacked
    obtain ⟨c, hc, htarget⟩ := culpritCount_pos_iff.mp (show 0 < ext.culpritCount v.target by omega)
    exact (hextends.bad v.target).mpr (Or.inr ⟨c, hc, htarget⟩)
  · exact (hextends.wonky v.target).mpr (Or.inr ⟨v, hv, hclass hwonky, rfl⟩)
  · obtain ⟨hcounted, hclass⟩ := hclass hgood
    have hbacked := haccepted.verdicts_backed v hv hcounted
    simp only [TallyBacked, hclass] at hbacked
    constructor
    · intro hbad
      rcases (hextends.bad v.target).mp hbad with hold | hculprit
      · exact hnew (Or.inr (Or.inl hold))
      · have hpos := culpritCount_pos_iff.mpr hculprit
        omega
    · intro hwonky
      rcases (hextends.wonky v.target).mp hwonky with hold | ⟨w, hw, hiswonky, htarget⟩
      · exact hnew (Or.inr (Or.inr hold))
      · obtain rfl := haccepted.verdict_unique hw hv htarget
        rw [hiswonky.2] at hclass
        cases hclass

/-- A report without a new verdict is added to neither of the two sets. -/
theorem Accepted.not_judged_without_verdict (haccepted : Accepted p config s ext)
    (hextends : Extends config s ext s') {r : WorkReportHash}
    (hnone : ∀ v ∈ ext.verdicts, v.target = r → Judged s r) (hbad : r ∉ s.psi.bad)
    (hwonky : r ∉ s.psi.wonky) : r ∉ s'.psi.bad ∧ r ∉ s'.psi.wonky := by
  constructor
  · intro hmem
    rcases (hextends.bad r).mp hmem with hold | ⟨c, hc, rfl⟩
    · exact hbad hold
    · obtain ⟨v, hv, htarget, hcounted, _⟩ := haccepted.culprits_backed c hc
      exact hcounted.1 (htarget ▸ hnone v hv htarget)
  · intro hmem
    rcases (hextends.wonky r).mp hmem with hold | ⟨v, hv, hiswonky, rfl⟩
    · exact hwonky hold
    · exact hiswonky.1.1 (hnone v hv rfl)

/-- Which cores an accepted block clears, and what it leaves. -/
structure CoresCleared (p : Primitives Report) (config : Config) (s : State Report)
    (ext : DisputesExtrinsic) (s' : State Report) : Prop where
  length_eq : s'.rho.length = s.rho.length
  /-- Every report on a core was hashed. -/
  hashed : ∀ i assignment, s.rho[i]? = some (some assignment) →
    ∃ r, HoldsReport p config s i assignment r
  /-- A report that a new verdict judges bad or wonky leaves its core. -/
  cleared : ∀ i assignment r, HoldsReport p config s i assignment r →
    ∀ v ∈ ext.verdicts, v.target = r → ¬Judged s r →
      v.HasKind config .bad ∨ v.HasKind config .wonky → s'.rho[i]? = some none
  /-- A report that a new verdict judges good stays. -/
  kept : ∀ i assignment r, HoldsReport p config s i assignment r →
    ∀ v ∈ ext.verdicts, v.target = r → ¬Judged s r →
      v.HasKind config .good → s'.rho[i]? = some (some assignment)
  /-- A report without a new verdict stays unless it was bad or wonky before. -/
  untouched : ∀ i assignment r, HoldsReport p config s i assignment r →
    (∀ v ∈ ext.verdicts, v.target = r → Judged s r) → r ∉ s.psi.bad → r ∉ s.psi.wonky →
      s'.rho[i]? = some (some assignment)
  /-- An empty core stays empty. -/
  empty : ∀ i : ℕ, s.rho[i]? = some none → s'.rho[i]? = some none
  tau : s'.tau = s.tau
  kappa : s'.kappa = s.kappa
  lambda : s'.lambda = s.lambda

/-- A row of a known report is cleared exactly when the report is in one of the two
sets. -/
theorem clearRow_of_hash {j : Judgment} {assignment : AvailabilityAssignment Report}
    {r : WorkReportHash} {row : Option (AvailabilityAssignment Report)}
    (hhash : (p.encodeWithConfig assignment.report config).map p.mathcalH = some r)
    (hrow : clearRow p config j (some assignment) = .ok row) :
    row = if r ∈ j.newBadSet ∨ r ∈ j.newWonkySet then none else some assignment := by
  obtain ⟨encoded, hencoded, rfl⟩ := Option.map_eq_some_iff.mp hhash
  simp only [clearRow, hencoded] at hrow
  split_ifs at hrow ⊢ <;> cases hrow <;> rfl

/-- **Clearing of cores.** An accepted block clears exactly the cores whose report its
new verdicts judge bad or wonky, among those whose report was not bad or wonky before,
and leaves the slot and the validators. -/
theorem coresCleared {input : Input} {out : OutputData}
    (hok : transition p order config s input = .ok (s', .ok out)) :
    CoresCleared p config s input.disputes s' := by
  obtain ⟨_, haccepted, rho, hrho, rfl, _⟩ := transition_eq_ok_iff.mp hok
  have hextends := stateTick_extends config s input.disputes rho
  have hrow {i : ℕ} {assignment : AvailabilityAssignment Report} {r : WorkReportHash}
      (hholds : HoldsReport p config s i assignment r) :
      rho[i]? = some (if r ∈ (outcome config s input.disputes).newBadSet ∨
        r ∈ (outcome config s input.disputes).newWonkySet then none else some assignment) := by
    obtain ⟨row, hget, hclear⟩ := mapM_getElem? hrho hholds.1
    rw [hget, clearRow_of_hash hholds.2 hclear]
  constructor
  · exact (mapM_eq_ok_iff.mp hrho).length_eq.symm
  · intro i assignment hget
    obtain ⟨row, _, hclear⟩ := mapM_getElem? hrho hget
    cases hencoded : p.encodeWithConfig assignment.report config with
    | none => simp [clearRow, hencoded] at hclear
    | some encoded => exact ⟨p.mathcalH encoded, hget, by rw [hencoded]; rfl⟩
  · rintro i assignment r hholds v hv rfl hnew hkind
    obtain ⟨hbad, hwonky, _⟩ := haccepted.judged_by_verdict hextends hv hnew
    exact (hrow hholds).trans (congrArg some (if_pos (hkind.imp hbad hwonky)))
  · rintro i assignment r hholds v hv rfl hnew hkind
    obtain ⟨hbad, hwonky⟩ := (haccepted.judged_by_verdict hextends hv hnew).2.2 hkind
    exact (hrow hholds).trans (congrArg some (if_neg (not_or.mpr ⟨hbad, hwonky⟩)))
  · intro i assignment r hholds hnone hbad hwonky
    have hneither := haccepted.not_judged_without_verdict hextends hnone hbad hwonky
    exact (hrow hholds).trans (congrArg some (if_neg (not_or.mpr hneither)))
  · intro i hget
    obtain ⟨row, hrow, hclear⟩ := mapM_getElem? hrho hget
    cases hclear
    exact hrow
  · rfl
  · rfl
  · rfl

/-- A wonky verdict clears the core of its report. -/
theorem coresCleared_wonky_verdict :
    ∃ s' out,
      transition Scenario.primitives HashOrder.insertion Scenario.config Scenario.state
        ⟨⟨[Scenario.verdict [true, true, false, false, false]], [], []⟩⟩ = .ok (s', .ok out) ∧
      CoresCleared Scenario.primitives Scenario.config Scenario.state
        ⟨[Scenario.verdict [true, true, false, false, false]], [], []⟩ s' ∧
      s'.rho = [none, none] := by
  have hok : transition Scenario.primitives HashOrder.insertion Scenario.config Scenario.state
      ⟨⟨[Scenario.verdict [true, true, false, false, false]], [], []⟩⟩ = .ok (_, .ok _) := rfl
  exact ⟨_, _, hok, coresCleared hok, rfl⟩

end CppJam.Disputes
