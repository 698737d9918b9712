import CppJam.Disputes.Acceptance

/-!
# The three validating loops

Each loop over verdicts, culprits and faults succeeds exactly when its keys
strictly increase and every element is valid on its own, and then leaves its
registry as a plain fold would.
-/

namespace CppJam.Disputes

open Bytes Checks Containers

variable {Report : Type}

/-- A judgement passes when its index increases, is in range, and its signature
verifies. -/
private theorem checkJudgement_eq_ok (p : Primitives Report) (validators : List ValidatorData)
    (w : WorkReportHash) (prev : Option ℕ) (u : Unit) (j : Judgement) (out : Option ℕ × Unit) :
    checkJudgement p validators w (prev, u) j = .ok out ↔
      ¬OptionalGe prev j.index.toNat ∧
      (∃ validator, validators[j.index.toNat]? = some validator ∧
        ed25519Verify p j.signature validator.ed25519 (judgementMessage j.vote) w = true) ∧
      (some j.index.toNat, u) = out := by
  cases hv : validators[j.index.toNat]? with
  | none => simp [checkJudgement, hv]
  | some validator => simp [checkJudgement, hv]

/-- The judgements of a verdict pass when indices increase and all signatures
verify. -/
private theorem checkJudgements_eq_ok (p : Primitives Report) (validators : List ValidatorData)
    (w : WorkReportHash) (votes : List Judgement) :
    (∃ out, votes.foldlM (checkJudgement p validators w) (none, ()) = .ok out) ↔
      (votes.map (fun j => j.index.toNat)).Pairwise (· < ·) ∧
      ∀ j ∈ votes, ∃ validator, validators[j.index.toNat]? = some validator ∧
        ed25519Verify p j.signature validator.ed25519 (judgementMessage j.vote) w = true := by
  have hloop := foldlM_increasing_iff (fun u _ => u) (checkJudgement_eq_ok p validators w)
    votes () ()
  simpa using hloop

/-- A verdict passes when its target increases and it is valid on its own. -/
private theorem checkVerdict_eq_ok (p : Primitives Report) (config : Config) (s : State Report)
    (prev : Option WorkReportHash) (registry : List (WorkReportHash × Judgement)) (v : Verdict)
    (out : Option WorkReportHash × List (WorkReportHash × Judgement)) :
    checkVerdict p config s (prev, registry) v = .ok out ↔
      ¬OptionalGe prev v.target ∧ VerdictValid p config s v ∧
        (some v.target, register s registry v) = out := by
  have hvotes := checkJudgements_eq_ok p (validatorsSet config s v.age) v.target v.votes
  simp only [checkVerdict, bind_eq_ok, failIf_eq_ok, pure_eq_ok, not_and_or, not_not, not_lt]
  constructor
  · rintro ⟨_, hage, _, hprev, _, henough, loop, hloop, hout⟩
    obtain ⟨hincreasing, hsigned⟩ := hvotes.mp ⟨loop, hloop⟩
    exact ⟨hprev, ⟨hage, henough, hincreasing, hsigned⟩, hout⟩
  · rintro ⟨hprev, hvalid, hout⟩
    obtain ⟨loop, hloop⟩ := hvotes.mpr ⟨hvalid.increasing, hvalid.signed⟩
    exact ⟨(), hvalid.age, (), hprev, (), hvalid.enough, loop, hloop, hout⟩

/-- The verdict loop succeeds on increasing targets and valid verdicts. -/
theorem checkVerdicts_eq_ok {p : Primitives Report} {config : Config} {s : State Report}
    {verdicts : List Verdict} {registry : List (WorkReportHash × Judgement)} :
    checkVerdicts p config s verdicts = .ok registry ↔
      (verdicts.map Verdict.target).Pairwise (· < ·) ∧
      (∀ v ∈ verdicts, VerdictValid p config s v) ∧ judgementsRegistry s verdicts = registry := by
  have hloop := foldlM_increasing_iff (register s) (checkVerdict_eq_ok p config s)
    verdicts [] registry
  simpa [checkVerdicts, judgementsRegistry] using hloop

/-- A culprit passes when its key increases and it is valid on its own. -/
private theorem checkCulprit_eq_ok (p : Primitives Report) (s : State Report)
    (prev : Option Ed25519Public) (registry : Multimap WorkReportHash Culprit) (c : Culprit)
    (out : Option Ed25519Public × Multimap WorkReportHash Culprit) :
    checkCulprit p s (prev, registry) c = .ok out ↔
      ¬OptionalGe prev c.key ∧ CulpritValid p s c ∧
        (some c.key, registry.emplace c.target c) = out := by
  simp only [checkCulprit, bind_eq_ok, failIf_eq_ok, pure_eq_ok, not_not]
  constructor
  · rintro ⟨_, hsigned, _, hbad, _, hcurrent, _, hprev, _, hpunished, hout⟩
    exact ⟨hprev, ⟨hsigned, hbad, hcurrent, hpunished⟩, hout⟩
  · rintro ⟨hprev, hvalid, hout⟩
    exact ⟨(), hvalid.signed, (), hvalid.notBad, (), hvalid.current, (), hprev, (),
      hvalid.unpunished, hout⟩

/-- The culprit loop succeeds on increasing keys and valid culprits. -/
theorem checkCulprits_eq_ok {p : Primitives Report} {s : State Report}
    {culprits : List Culprit} {registry : Multimap WorkReportHash Culprit} :
    checkCulprits p s culprits = .ok registry ↔
      (culprits.map Culprit.key).Pairwise (· < ·) ∧ (∀ c ∈ culprits, CulpritValid p s c) ∧
        culpritsRegistry culprits = registry := by
  have hloop := foldlM_increasing_iff (fun m c => m.emplace c.target c) (checkCulprit_eq_ok p s)
    culprits Multimap.empty registry
  simpa [checkCulprits, culpritsRegistry] using hloop

/-- A fault passes when its key increases and it is valid on its own. -/
private theorem checkFault_eq_ok (p : Primitives Report) (s : State Report)
    (prev : Option Ed25519Public) (registry : Multimap WorkReportHash Fault) (f : Fault)
    (out : Option Ed25519Public × Multimap WorkReportHash Fault) :
    checkFault p s (prev, registry) f = .ok out ↔
      ¬OptionalGe prev f.key ∧ FaultValid p s f ∧
        (some f.key, registry.emplace f.target f) = out := by
  simp only [checkFault, bind_eq_ok, failIf_eq_ok, pure_eq_ok, not_not]
  constructor
  · rintro ⟨_, hwonky, _, hcontra, _, hcurrent, _, hsigned, _, hprev, _, hpunished, hout⟩
    exact ⟨hprev, ⟨hwonky, hcontra, hcurrent, hsigned, hpunished⟩, hout⟩
  · rintro ⟨hprev, hvalid, hout⟩
    exact ⟨(), hvalid.notWonky, (), hvalid.contradicts, (), hvalid.current, (), hvalid.signed,
      (), hprev, (), hvalid.unpunished, hout⟩

/-- The fault loop succeeds on increasing keys and valid faults. -/
theorem checkFaults_eq_ok {p : Primitives Report} {s : State Report}
    {faults : List Fault} {registry : Multimap WorkReportHash Fault} :
    checkFaults p s faults = .ok registry ↔
      (faults.map Fault.key).Pairwise (· < ·) ∧ (∀ f ∈ faults, FaultValid p s f) ∧
        faultsRegistry faults = registry := by
  have hloop := foldlM_increasing_iff (fun m f => m.emplace f.target f) (checkFault_eq_ok p s)
    faults Multimap.empty registry
  simpa [checkFaults, faultsRegistry] using hloop

end CppJam.Disputes
