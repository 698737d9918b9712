import CppJam.Disputes.Effects

/-!
# Verdicts on reports that were judged before

A comment in the verdict loop demands that no verdict is on a report judged in the
past, and the loop drops such a verdict after its checks instead of rejecting it.
An extrinsic with past verdicts is therefore accepted exactly when its verdicts
pass their checks and the extrinsic without the past verdicts is accepted, with
the same result.
-/

namespace CppJam.Disputes

open Bytes Checks Containers

variable {Report : Type} {p : Primitives Report} {order : HashOrder} {config : Config}
  {s s' : State Report} {ext : DisputesExtrinsic}

/-- The extrinsic without the verdicts on reports judged before. -/
def DisputesExtrinsic.dropPast (s : State Report) (ext : DisputesExtrinsic) :
    DisputesExtrinsic :=
  ⟨ext.verdicts.filter (fun v => ¬Judged s v.target), ext.culprits, ext.faults⟩

/-- The verdicts pass the checks of the verdict loop. -/
structure VerdictsPass (p : Primitives Report) (config : Config) (s : State Report)
    (verdicts : List Verdict) : Prop where
  /-- Targets strictly increase. -/
  sorted : (verdicts.map Verdict.target).Pairwise (· < ·)
  /-- Every verdict is valid on its own. -/
  valid : ∀ v ∈ verdicts, VerdictValid p config s v

/-- A verdict is kept when its report is new. -/
theorem mem_dropPast_verdicts {v : Verdict} :
    v ∈ (ext.dropPast s).verdicts ↔ v ∈ ext.verdicts ∧ ¬Judged s v.target := by
  simp [DisputesExtrinsic.dropPast]

/-- Verdicts that pass still pass without those on past reports. -/
theorem VerdictsPass.dropPast (hpass : VerdictsPass p config s ext.verdicts) :
    VerdictsPass p config s (ext.dropPast s).verdicts where
  sorted := hpass.sorted.sublist (List.filter_sublist.map Verdict.target)
  valid v hv := hpass.valid v (mem_dropPast_verdicts.mp hv).1

/-- An extrinsic is accepted exactly when its verdicts pass their checks and it is
accepted without those on past reports. -/
theorem accepted_iff_dropPast :
    Accepted p config s ext ↔
      VerdictsPass p config s ext.verdicts ∧ Accepted p config s (ext.dropPast s) := by
  constructor
  · intro h
    have hpass : VerdictsPass p config s ext.verdicts := ⟨h.verdicts_sorted, h.verdicts_valid⟩
    refine ⟨hpass, ⟨⟨⟨hpass.dropPast.sorted, hpass.dropPast.valid, h.culprits_sorted,
      h.culprits_valid⟩, h.faults_sorted, h.faults_valid, ?_⟩, ?_⟩, h.faults_negative⟩
    · intro c hc
      obtain ⟨v, hv, htarget, hcounted, hne⟩ := h.culprits_backed c hc
      exact ⟨v, mem_dropPast_verdicts.mpr ⟨hv, hcounted.1⟩, htarget, hcounted, hne⟩
    · intro v hv hcounted
      exact h.verdicts_backed v (mem_dropPast_verdicts.mp hv).1 hcounted
  · rintro ⟨hpass, h⟩
    refine ⟨⟨⟨⟨hpass.sorted, hpass.valid, h.culprits_sorted, h.culprits_valid⟩,
      h.faults_sorted, h.faults_valid, ?_⟩, ?_⟩, h.faults_negative⟩
    · intro c hc
      obtain ⟨v, hv, hbacked⟩ := h.culprits_backed c hc
      exact ⟨v, (mem_dropPast_verdicts.mp hv).1, hbacked⟩
    · intro v hv hcounted
      exact h.verdicts_backed v (mem_dropPast_verdicts.mpr ⟨hv, hcounted.1⟩) hcounted

/-- Verdicts on past reports do not change the outcome. -/
theorem outcome_dropPast (config : Config) (s : State Report) (ext : DisputesExtrinsic) :
    outcome config s (ext.dropPast s) = outcome config s ext := by
  have hwonky : (ext.dropPast s).verdicts.filter (fun v => IsWonky config s v) =
      ext.verdicts.filter (fun v => IsWonky config s v) := by
    rw [DisputesExtrinsic.dropPast, List.filter_filter]
    apply List.filter_congr
    intro v _
    by_cases hnew : IsWonky config s v
    · simp [hnew, hnew.1.1]
    · simp [hnew]
  rw [outcome, outcome, hwonky]
  rfl

/-- An input is accepted exactly when its verdicts pass their checks and it is
accepted, with the same result, without those on past reports. -/
theorem transition_dropPast_iff {input : Input} {out : OutputData} :
    transition p order config s input = .ok (s', .ok out) ↔
      VerdictsPass p config s input.disputes.verdicts ∧
        transition p order config s ⟨input.disputes.dropPast s⟩ = .ok (s', .ok out) := by
  rw [transition_eq_ok_iff, transition_eq_ok_iff, accepted_iff_dropPast, outcome_dropPast]
  constructor
  · rintro ⟨hlength, ⟨hpass, haccepted⟩, hrest⟩
    exact ⟨hpass, hlength, haccepted, hrest⟩
  · rintro ⟨hpass, hlength, haccepted, hrest⟩
    exact ⟨hlength, ⟨hpass, haccepted⟩, hrest⟩

/-- The transition accepts the input only if its verdicts are on new reports. -/
def JudgesNewReports (p : Primitives Report) (order : HashOrder) (config : Config)
    (s : State Report) (input : Input) : Prop :=
  ∀ s' out, transition p order config s input = .ok (s', .ok out) →
    ∀ v ∈ input.disputes.verdicts, ¬Judged s v.target

/-- Every check passes, where verdicts on past reports are checked on their own and then
left out. -/
structure PassesWithoutPast (p : Primitives Report) (config : Config) (s : State Report)
    (ext : DisputesExtrinsic) : Prop where
  /-- Epochs are counted. -/
  epoch : config.epochLength.toNat ≠ 0
  /-- All verdicts pass the checks of the verdict loop. -/
  verdicts : VerdictsPass p config s ext.verdicts
  /-- The rest is acceptable. -/
  rest : Accepted p config s (ext.dropPast s)
  /-- Every report on a core can be encoded. -/
  encodes : ∀ assignment, some assignment ∈ s.rho →
    (p.encodeWithConfig assignment.report config).isSome

/-- One core can be cleared exactly when its report can be encoded. -/
theorem clearRow_total_iff (p : Primitives Report) (config : Config) (j : Judgment)
    (row : Option (AvailabilityAssignment Report)) :
    (∃ row', clearRow p config j row = .ok row') ↔
      ∀ assignment, row = some assignment →
        (p.encodeWithConfig assignment.report config).isSome := by
  cases row with
  | none => simp [clearRow]
  | some assignment =>
    cases hencoded : p.encodeWithConfig assignment.report config with
    | none => simp [clearRow, hencoded]
    | some encoded =>
      simp only [clearRow, hencoded, Option.some.injEq, forall_eq', Option.isSome_some, iff_true]
      split_ifs <;> exact ⟨_, rfl⟩

/-- The cores can be cleared exactly when every report on a core can be encoded. -/
theorem exists_clearRow_iff (p : Primitives Report) (config : Config) (j : Judgment)
    (rho : List (Option (AvailabilityAssignment Report))) :
    (∃ rho', rho.mapM (clearRow p config j) = .ok rho') ↔
      ∀ assignment, some assignment ∈ rho →
        (p.encodeWithConfig assignment.report config).isSome := by
  constructor
  · rintro ⟨rho', hrho⟩ assignment hmem
    obtain ⟨row', _, hrow⟩ := ok_of_mapM hrho hmem
    exact (clearRow_total_iff p config j _).mp ⟨row', hrow⟩ assignment rfl
  · intro hencodes
    obtain ⟨rho', hrho, _⟩ := mapM_total (Q := fun _ => True) (l := rho)
      (f := clearRow p config j) fun row hrow => by
        have htotal := (clearRow_total_iff p config j row).mpr
          fun assignment heq => hencodes assignment (heq ▸ hrow)
        simpa using htotal
    exact ⟨rho', hrho⟩

/-- No report is judged a second time exactly on the inputs that have no verdict on a
past report, or that fail a check on what remains without such verdicts. -/
theorem judgesNewReports_iff (p : Primitives Report) (order : HashOrder) (config : Config)
    (s : State Report) (input : Input) :
    JudgesNewReports p order config s input ↔
      ((∃ v ∈ input.disputes.verdicts, Judged s v.target) →
        ¬PassesWithoutPast p config s input.disputes) := by
  constructor
  · rintro hnew ⟨v, hv, hjudged⟩ ⟨hepoch, hpass, hrest, hencodes⟩
    have haccepted := accepted_iff_dropPast.mpr ⟨hpass, hrest⟩
    obtain ⟨rho, hrho⟩ := (exists_clearRow_iff p config (outcome config s _) s.rho).mpr hencodes
    exact hnew _ _ (transition_eq_ok_iff.mpr ⟨hepoch, haccepted, rho, hrho, rfl, rfl⟩) v hv hjudged
  · intro hcondition s' out hok v hv hjudged
    obtain ⟨hepoch, haccepted, rho, hrho, _⟩ := transition_eq_ok_iff.mp hok
    obtain ⟨hpass, hrest⟩ := accepted_iff_dropPast.mp haccepted
    exact hcondition ⟨v, hv, hjudged⟩
      ⟨hepoch, hpass, hrest, (exists_clearRow_iff ..).mp ⟨rho, hrho⟩⟩

/-- The small network after report 7 was judged good. -/
def Scenario.judgedState : State Byte :=
  ⟨⟨[ByteArr.fill 7], [], [], []⟩, [none, none], 12, validators, validators⟩

/-- A verdict of five negative votes on a report already judged good is accepted and
changes nothing. -/
theorem not_judgesNewReports_good_report :
    transition Scenario.primitives HashOrder.insertion Scenario.config Scenario.judgedState
        ⟨⟨[Scenario.verdict [false, false, false, false, false]], [], []⟩⟩ =
      .ok (Scenario.judgedState, .ok ⟨[]⟩) ∧
    ¬JudgesNewReports Scenario.primitives HashOrder.insertion Scenario.config
      Scenario.judgedState
      ⟨⟨[Scenario.verdict [false, false, false, false, false]], [], []⟩⟩ := by
  refine ⟨rfl, fun hnew => ?_⟩
  exact hnew _ _ rfl _ (List.mem_singleton_self _) (Or.inl (List.mem_singleton_self _))

end CppJam.Disputes
