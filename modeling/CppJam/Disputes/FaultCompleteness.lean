import CppJam.Disputes.Effects

/-!
# Completeness of faults

`fault_verdict_wrong` should only be returned for an extrinsic with a fault that
agrees with how its report is judged, and never at a fault that rightly votes for a
report judged bad. The first pass over the faults looks at the past judgements. The
second one, after the tallies, returns at the first fault that votes for its report,
whatever the verdict on the report is. The conditions below say on which inputs this
makes no difference.
-/

namespace CppJam.Disputes

open Bytes Checks Containers

variable {Report : Type} {p : Primitives Report} {order : HashOrder} {config : Config}
  {s s' : State Report} {ext : DisputesExtrinsic}

/-- The fault agrees with a past judgement of its report. -/
def AgreesWithPast (s : State Report) (f : Fault) : Prop :=
  (f.vote = false ∧ f.target ∈ s.psi.bad) ∨ (f.vote = true ∧ f.target ∈ s.psi.good)

/-- The report is good, in the past or by a verdict of the extrinsic. -/
def GoodOutcome (config : Config) (s : State Report) (ext : DisputesExtrinsic)
    (workReport : WorkReportHash) : Prop :=
  workReport ∈ s.psi.good ∨ ∃ v ∈ ext.verdicts, v.target = workReport ∧
    v.positives = config.validatorsSuperMajority.toNat

/-- The report is bad, in the past or by a verdict of the extrinsic. -/
def BadOutcome (s : State Report) (ext : DisputesExtrinsic) (workReport : WorkReportHash) : Prop :=
  workReport ∈ s.psi.bad ∨ ∃ v ∈ ext.verdicts, v.target = workReport ∧
    ∀ j ∈ v.votes, j.vote = false

instance (config : Config) (s : State Report) (ext : DisputesExtrinsic)
    (workReport : WorkReportHash) : Decidable (GoodOutcome config s ext workReport) :=
  inferInstanceAs (Decidable (_ ∨ _))

instance (s : State Report) (ext : DisputesExtrinsic) (workReport : WorkReportHash) :
    Decidable (BadOutcome s ext workReport) :=
  inferInstanceAs (Decidable (_ ∨ _))

/-- The fault agrees with how its report is judged: it votes for a good report or
against a bad one. -/
def AgreesWithOutcome (config : Config) (s : State Report) (ext : DisputesExtrinsic)
    (f : Fault) : Prop :=
  (f.vote = true ∧ GoodOutcome config s ext f.target) ∨
    (f.vote = false ∧ BadOutcome s ext f.target)

instance (config : Config) (s : State Report) (ext : DisputesExtrinsic) (f : Fault) :
    Decidable (AgreesWithOutcome config s ext f) :=
  inferInstanceAs (Decidable (_ ∨ _))

/-- The fault votes for a bad report, with a valid signature of a current validator who is
not punished yet. -/
structure VotesForBad (p : Primitives Report) (s : State Report) (ext : DisputesExtrinsic)
    (f : Fault) : Prop where
  positive : f.vote = true
  bad : BadOutcome s ext f.target
  signed : ed25519Verify p f.signature f.key (judgementMessage f.vote) f.target = true
  current : IsCurrentValidator s f.key
  unpunished : f.key ∉ s.psi.offenders

/-- The offences and the good set before the second pass over the faults. -/
def beforeFaults (s : State Report) (culprits : Multimap WorkReportHash Culprit) :
    Offences × OrderedSet :=
  (((MultimapGroups.groups culprits).foldl analyseCulprits
    (⟨[], asSet s.psi.offenders⟩, asSet s.psi.bad)).1, asSet s.psi.good)

/-- `fault_verdict_wrong` is returned in the round of the fault: by the first pass, or by
the second one, which visits the faults of one report after the other. -/
def RejectedAt (p : Primitives Report) (s : State Report) (ext : DisputesExtrinsic)
    (f : Fault) : Prop :=
  (∃ loop, FailsAt (checkFault p s) ext.faults (none, Multimap.empty) .faultVerdictWrong loop f) ∨
  ∃ culprits faults, checkCulprits p s ext.culprits = .ok culprits ∧
    checkFaults p s ext.faults = .ok faults ∧
    ∃ st group o, FailsAt analyseFaults (MultimapGroups.groups faults) (beforeFaults s culprits)
        .faultVerdictWrong st group ∧
      FailsAt analyseFault group.2 st.1 .faultVerdictWrong o f

/-- `fault_verdict_wrong` is returned only for an extrinsic with a fault that agrees
with how its report is judged, and never at a fault that rightly votes for a bad report. -/
structure FaultComplete (p : Primitives Report) (order : HashOrder) (config : Config)
    (s : State Report) (input : Input) : Prop where
  /-- Some fault agrees with the outcome. -/
  agrees : ∀ s', transition p order config s input = .ok (s', .err .faultVerdictWrong) →
    ∃ f ∈ input.disputes.faults, AgreesWithOutcome config s input.disputes f
  /-- The error is not returned at a vote for a bad report. -/
  spares : ∀ s', transition p order config s input = .ok (s', .err .faultVerdictWrong) →
    ∀ f ∈ input.disputes.faults, VotesForBad p s input.disputes f →
      ¬RejectedAt p s input.disputes f

/-! ## The first pass -/

/-- The verdict loop never returns `fault_verdict_wrong`. -/
private theorem checkVerdicts_ne_faultVerdictWrong (verdicts : List Verdict) :
    checkVerdicts p config s verdicts ≠ .error .faultVerdictWrong := by
  intro herror
  simp only [checkVerdicts, bind_eq_error, pure_ne_error, and_false, exists_false,
    or_false] at herror
  obtain ⟨v, _, loop, hv⟩ := exists_of_foldlM_eq_error herror
  simp only [checkVerdict, bind_eq_error, failIf_eq_error, reduceCtorEq, and_false, pure_ne_error,
    exists_false, or_false, false_or] at hv
  obtain ⟨_, _, _, _, _, _, hvotes⟩ := hv
  obtain ⟨j, _, prev, hj⟩ := exists_of_foldlM_eq_error hvotes
  cases hvalidator : (validatorsSet config s v.age)[j.index.toNat]? <;>
    simp [checkJudgement, hvalidator, bind_eq_error, map_eq_error, failIf_eq_error] at hj

/-- The culprit loop never returns `fault_verdict_wrong`. -/
private theorem checkCulprits_ne_faultVerdictWrong (culprits : List Culprit) :
    checkCulprits p s culprits ≠ .error .faultVerdictWrong := by
  intro herror
  simp only [checkCulprits, bind_eq_error, pure_ne_error, and_false, exists_false,
    or_false] at herror
  obtain ⟨c, _, loop, hc⟩ := exists_of_foldlM_eq_error herror
  simp [checkCulprit, bind_eq_error, map_eq_error, failIf_eq_error] at hc

/-- The second test of the culprits never returns `fault_verdict_wrong`. -/
private theorem checkCulpritVerdicts_ne_faultVerdictWrong
    {votes : AList (fun _ : WorkReportHash => UInt16 × UInt16)} {reports : List WorkReportHash} :
    reports.foldlM (checkCulpritVerdict votes) () ≠ .error .faultVerdictWrong := by
  intro herror
  obtain ⟨r, _, _, hr⟩ := exists_of_foldlM_eq_error herror
  cases hlookup : votes.lookup r <;> simp [checkCulpritVerdict, hlookup, failIf_eq_error] at hr

/-- The analysis of the tallies never returns `fault_verdict_wrong`. -/
private theorem analyseVerdicts_ne_faultVerdictWrong {culprits : Multimap WorkReportHash Culprit}
    {faults : Multimap WorkReportHash Fault} {wonky : OrderedSet}
    {entries : List (Σ _ : WorkReportHash, UInt16 × UInt16)} :
    entries.foldlM (analyseVerdict config culprits faults) wonky ≠ .error .faultVerdictWrong := by
  intro herror
  obtain ⟨entry, _, wonky, hentry⟩ := exists_of_foldlM_eq_error herror
  simp only [analyseVerdict, bind_eq_error] at hentry
  rcases hentry with hclass | ⟨kind, _, hkind⟩
  · simp only [classify] at hclass
    split_ifs at hclass
    simp at hclass
  · cases kind <;> simp [bind_eq_error, map_eq_error, failIf_eq_error, pure_ne_error] at hkind

/-- The extrinsic passes every test up to a fault that agrees with a past judgement. -/
structure StopsAtPast (p : Primitives Report) (config : Config) (s : State Report)
    (ext : DisputesExtrinsic) (f : Fault) : Prop extends ReachesFaults p config s ext where
  /-- The faults before it pass. -/
  passed : ∃ front back, ext.faults = front ++ f :: back ∧
    (front.map Fault.key).Pairwise (· < ·) ∧ ∀ g ∈ front, FaultValid p s g
  notWonky : f.target ∉ s.psi.wonky
  agrees : AgreesWithPast s f

/-- A fault that agrees with a past judgement agrees with the outcome. -/
theorem AgreesWithPast.outcome {f : Fault} (hpast : AgreesWithPast s f) :
    AgreesWithOutcome config s ext f := by
  rcases hpast with ⟨hvote, hbad⟩ | ⟨hvote, hgood⟩
  · exact Or.inr ⟨hvote, Or.inl hbad⟩
  · exact Or.inl ⟨hvote, Or.inl hgood⟩

/-- The test of one fault returns `fault_verdict_wrong` when the fault agrees with a past
judgement. -/
private theorem checkFault_eq_faultVerdictWrong
    {loop : Option Ed25519Public × Multimap WorkReportHash Fault} {f : Fault} :
    checkFault p s loop f = .error .faultVerdictWrong ↔
      f.target ∉ s.psi.wonky ∧ AgreesWithPast s f := by
  simp only [checkFault, bind_eq_error, failIf_eq_error, failIf_eq_ok, reduceCtorEq, and_false,
    pure_ne_error, exists_false, or_false, false_or, and_true, exists_const, AgreesWithPast]

/-- A part of the faults passes the first pass when it is sorted and valid. -/
private theorem exists_checkFault_loop {faults : List Fault} :
    (∃ loop, faults.foldlM (checkFault p s) (none, Multimap.empty) = .ok loop) ↔
      (faults.map Fault.key).Pairwise (· < ·) ∧ ∀ f ∈ faults, FaultValid p s f := by
  constructor
  · rintro ⟨loop, hloop⟩
    have hok : checkFaults p s faults = .ok loop.2 := by
      rw [checkFaults, hloop]
      rfl
    obtain ⟨hsorted, hvalid, _⟩ := checkFaults_eq_ok.mp hok
    exact ⟨hsorted, hvalid⟩
  · rintro ⟨hsorted, hvalid⟩
    have hok := checkFaults_eq_ok.mpr ⟨hsorted, hvalid, rfl⟩
    simp only [checkFaults, bind_eq_ok] at hok
    obtain ⟨loop, hloop, _⟩ := hok
    exact ⟨loop, hloop⟩

/-- Where the first pass returns `fault_verdict_wrong`. -/
private theorem firstPass_failsAt {f : Fault} :
    (∃ loop, FailsAt (checkFault p s) ext.faults (none, Multimap.empty) .faultVerdictWrong
        loop f) ↔
      (∃ front back, ext.faults = front ++ f :: back ∧
        (front.map Fault.key).Pairwise (· < ·) ∧ ∀ g ∈ front, FaultValid p s g) ∧
      f.target ∉ s.psi.wonky ∧ AgreesWithPast s f := by
  constructor
  · rintro ⟨loop, front, back, hfaults, hfront, hf⟩
    obtain ⟨hsorted, hvalid⟩ := exists_checkFault_loop.mp ⟨loop, hfront⟩
    exact ⟨⟨front, back, hfaults, hsorted, hvalid⟩, checkFault_eq_faultVerdictWrong.mp hf⟩
  · rintro ⟨⟨front, back, hfaults, hpassed⟩, hf⟩
    obtain ⟨loop, hfront⟩ := exists_checkFault_loop.mpr hpassed
    exact ⟨loop, front, back, hfaults, hfront, checkFault_eq_faultVerdictWrong.mpr hf⟩

/-- The first pass returns `fault_verdict_wrong` in the round of some fault. -/
private theorem checkFaults_eq_faultVerdictWrong :
    checkFaults p s ext.faults = .error .faultVerdictWrong ↔
      ∃ f loop, FailsAt (checkFault p s) ext.faults (none, Multimap.empty) .faultVerdictWrong
        loop f := by
  simp only [checkFaults, bind_eq_error, pure_ne_error, and_false, exists_false, or_false,
    foldlM_eq_error_iff_failsAt]
  exact exists_comm

/-! ## The second pass -/

/-- The first fault of the extrinsic with a positive vote, by report and then by key. -/
structure FirstPositive (ext : DisputesExtrinsic) (f : Fault) : Prop where
  mem : f ∈ ext.faults
  positive : f.vote = true
  first : ∀ g ∈ ext.faults, g.vote = true →
    f.target < g.target ∨ f.target = g.target ∧ f.key ≤ g.key

/-- The faults in the order of the second pass. -/
private theorem faultsRegistry_pairwise
    (hsorted : (ext.faults.map Fault.key).Pairwise (· < ·)) :
    ((faultsRegistry ext.faults).items.map Prod.snd).Pairwise
      fun f g => f.target < g.target ∨ f.target = g.target ∧ f.key < g.key := by
  have hordered : ext.faults.Pairwise fun f g => f.target = g.target → f.key < g.key := by
    refine List.Pairwise.imp ?_ (List.pairwise_map.mp hsorted)
    exact fun hlt _ => hlt
  have hitems := Multimap.foldl_emplace_pairwise Fault.target id ext.faults
    (R := fun f g => f.key < g.key) hordered
  have hkeys : ∀ e ∈ (faultsRegistry ext.faults).items, e.1 = e.2.target := by
    intro e he
    have hperm := Multimap.foldl_emplace_items_perm Fault.target id ext.faults Multimap.empty
    have hmem := hperm.mem_iff.mp he
    simp only [Multimap.empty, List.nil_append, List.mem_map] at hmem
    obtain ⟨f, _, rfl⟩ := hmem
    rfl
  rw [List.pairwise_map]
  refine List.Pairwise.imp_of_mem (fun {x y} hx hy hxy => ?_) hitems
  rwa [← hkeys x hx, ← hkeys y hy]

/-- There is only one first positive fault. -/
private theorem FirstPositive.unique (hsorted : (ext.faults.map Fault.key).Pairwise (· < ·))
    {f g : Fault} (hf : FirstPositive ext f) (hg : FirstPositive ext g) : f = g := by
  have hkeys : f.key = g.key := by
    rcases hf.first g hg.mem hg.positive with hlt | ⟨heq, hle⟩
    · rcases hg.first f hf.mem hf.positive with hlt' | ⟨heq', _⟩
      · exact absurd hlt' hlt.asymm
      · exact absurd heq' hlt.ne'
    · rcases hg.first f hf.mem hf.positive with hlt' | ⟨_, hle'⟩
      · exact absurd heq hlt'.ne'
      · exact hle.antisymm hle'
  exact List.inj_on_of_nodup_map (hsorted.imp ne_of_lt) hf.mem hg.mem hkeys

/-- The second pass visits the first positive fault before the other positive ones. -/
private theorem find?_eq_firstPositive (hsorted : (ext.faults.map Fault.key).Pairwise (· < ·))
    {f : Fault} :
    ((faultsRegistry ext.faults).items.map Prod.snd).find? Fault.vote = some f ↔
      FirstPositive ext f := by
  have hfound {g : Fault}
      (hg : ((faultsRegistry ext.faults).items.map Prod.snd).find? Fault.vote = some g) :
      FirstPositive ext g := by
    obtain ⟨hvote, front, back, hitems, hfront⟩ := List.find?_eq_some_iff_append.mp hg
    have hpairwise := faultsRegistry_pairwise hsorted
    rw [hitems, List.pairwise_append, List.pairwise_cons] at hpairwise
    refine ⟨mem_faultsRegistry_values.mp (by simp [hitems]), hvote, fun h hh hpositive => ?_⟩
    have hmem := mem_faultsRegistry_values.mpr hh
    rw [hitems, List.mem_append, List.mem_cons] at hmem
    rcases hmem with hbefore | rfl | hafter
    · have hnegative := hfront h hbefore
      simp [hpositive] at hnegative
    · exact Or.inr ⟨rfl, le_rfl⟩
    · exact (hpairwise.2.1.1 h hafter).imp_right fun hlt => ⟨hlt.1, hlt.2.le⟩
  refine ⟨hfound, fun hf => ?_⟩
  cases hg : ((faultsRegistry ext.faults).items.map Prod.snd).find? Fault.vote with
  | none =>
    have hnone := List.find?_eq_none.mp hg f (mem_faultsRegistry_values.mpr hf.mem)
    exact absurd hf.positive hnone
  | some g => rw [hf.unique hsorted (hfound hg)]

/-- Analysing one fault fails when its vote is positive. -/
private theorem analyseFault_eq_error (o : Offences) (f : Fault) (code : ErrorCode) :
    analyseFault o f = .error code ↔
      (if f.vote then some .faultVerdictWrong else none) = some code := by
  simp only [analyseFault, bind_eq_error, failIf_eq_error, pure_ne_error, and_false, exists_false,
    or_false]
  split_ifs with hvote <;> simp [hvote]

/-- Analysing the faults of one report fails when one of them has a positive vote. -/
private theorem analyseFaults_eq_error (st : Offences × OrderedSet)
    (group : WorkReportHash × List Fault) (code : ErrorCode) :
    analyseFaults st group = .error code ↔
      (group.2.find? Fault.vote).map (fun _ => ErrorCode.faultVerdictWrong) = some code := by
  simp only [analyseFaults, bind_eq_error, pure_ne_error, and_false, exists_false, or_false]
  rw [foldlM_eq_error_iff analyseFault_eq_error]
  induction group.2 with
  | nil => simp
  | cons f faults ih => cases hvote : f.vote <;> simp [hvote, ih]

/-- Where the second pass returns `fault_verdict_wrong`. -/
private theorem secondPass_failsAt {m : Multimap WorkReportHash Fault}
    {st : Offences × OrderedSet} {f : Fault} :
    (∃ st' group o, FailsAt analyseFaults (MultimapGroups.groups m) st .faultVerdictWrong
        st' group ∧ FailsAt analyseFault group.2 st'.1 .faultVerdictWrong o f) ↔
      (m.items.map Prod.snd).find? Fault.vote = some f := by
  have hgroup (l : List Fault) (o : Offences) :
      (∃ o', FailsAt analyseFault l o .faultVerdictWrong o' f) ↔ l.find? Fault.vote = some f := by
    rw [exists_failsAt_iff analyseFault_eq_error, List.find?_eq_some_iff_append]
    constructor
    · rintro ⟨front, back, hl, hfront, hf⟩
      exact ⟨by simpa using hf, front, back, hl, by simpa using hfront⟩
    · rintro ⟨hf, front, back, hl, hfront⟩
      exact ⟨front, back, hl, by simpa using hfront, by simp [hf]⟩
  rw [← MultimapGroups.groups_values, List.find?_flatMap, List.findSome?_eq_some_iff]
  constructor
  · rintro ⟨st', group, o, houter, hinner⟩
    obtain ⟨front, back, hgroups, hfront, _⟩ :=
      (exists_failsAt_iff analyseFaults_eq_error).mp ⟨st', houter⟩
    exact ⟨front, group, back, hgroups, (hgroup group.2 st'.1).mp ⟨o, hinner⟩,
      fun g hg => by simpa using hfront g hg⟩
  · rintro ⟨front, group, back, hgroups, hfound, hfront⟩
    obtain ⟨st', houter⟩ := (exists_failsAt_iff (e := .faultVerdictWrong) (r := st)
      analyseFaults_eq_error).mpr
      ⟨front, back, hgroups, fun g hg => by simp [hfront g hg], by simp [hfound]⟩
    obtain ⟨o, hinner⟩ := (hgroup group.2 st'.1).mpr hfound
    exact ⟨st', group, o, houter, hinner⟩

/-- The second pass fails only with `fault_verdict_wrong`, at a fault with a positive vote. -/
theorem secondPass_eq_error {m : Multimap WorkReportHash Fault} {st : Offences × OrderedSet}
    {code : ErrorCode} :
    (MultimapGroups.groups m).foldlM analyseFaults st = .error code ↔
      code = .faultVerdictWrong ∧ ∃ f ∈ m.items.map Prod.snd, f.vote = true := by
  rw [foldlM_eq_error_iff analyseFaults_eq_error, ← List.find?_isSome,
    ← MultimapGroups.groups_values, List.find?_flatMap]
  induction MultimapGroups.groups m with
  | nil => simp
  | cons group groups ih =>
    cases hfound : group.2.find? Fault.vote with
    | none => simp [hfound, ih]
    | some f => simp [hfound, eq_comm (a := code)]

/-- Past the validating tests an error comes from the analysis of verdicts or, behind it,
from that of faults. -/
theorem ReachesAnalysis.judge_eq_error_iff_stages (hreaches : ReachesAnalysis p config s ext)
    (order : HashOrder) {code : ErrorCode} :
    judge p order config s ext = .error code ↔
      (order.votes (voteCountByJudgements order (judgementsRegistry s ext.verdicts)).entries).foldlM
          (analyseVerdict config (culpritsRegistry ext.culprits) (faultsRegistry ext.faults))
          (asSet s.psi.wonky) = .error code ∨
        ∃ wonky,
          (order.votes (voteCountByJudgements order
              (judgementsRegistry s ext.verdicts)).entries).foldlM
            (analyseVerdict config (culpritsRegistry ext.culprits) (faultsRegistry ext.faults))
            (asSet s.psi.wonky) = .ok wonky ∧
          (MultimapGroups.groups (faultsRegistry ext.faults)).foldlM analyseFaults
            (((MultimapGroups.groups (culpritsRegistry ext.culprits)).foldl analyseCulprits
              (⟨[], asSet s.psi.offenders⟩, asSet s.psi.bad)).1, asSet s.psi.good) =
            .error code := by
  have hverdicts := checkVerdicts_eq_ok.mpr
    ⟨hreaches.verdicts_sorted, hreaches.verdicts_valid, rfl⟩
  have hculprits := checkCulprits_eq_ok.mpr
    ⟨hreaches.culprits_sorted, hreaches.culprits_valid, rfl⟩
  have hfaults := checkFaults_eq_ok.mpr ⟨hreaches.faults_sorted, hreaches.faults_valid, rfl⟩
  have horphan := checkCulpritVerdicts_eq_ok (u := ()).mpr
    ((culprits_backed_iff hreaches.verdicts_sorted order).mpr hreaches.culprits_backed)
  simp only [judge, bind_eq_error, hverdicts, hculprits, hfaults, horphan, reduceCtorEq, false_or,
    Except.ok.injEq, exists_eq_left', pure_ne_error, and_false, exists_false, or_false, true_and,
    exists_const]

/-! ## Both passes -/

/-- `fault_verdict_wrong` comes from a fault that agrees with a past judgement, or
from a positive fault of an extrinsic that passes all earlier tests. -/
theorem judge_eq_faultVerdictWrong_iff :
    judge p order config s ext = .error .faultVerdictWrong ↔
      (ReachesFaults p config s ext ∧ checkFaults p s ext.faults = .error .faultVerdictWrong) ∨
      (PassesChecks p config s ext ∧ ∃ f ∈ ext.faults, f.vote = true) := by
  simp only [judge, bind_eq_error, checkVerdicts_ne_faultVerdictWrong,
    checkCulprits_ne_faultVerdictWrong, checkCulpritVerdicts_ne_faultVerdictWrong,
    analyseVerdicts_ne_faultVerdictWrong, pure_ne_error, and_false, exists_false, or_false,
    false_or, checkVerdicts_eq_ok, checkCulprits_eq_ok, checkFaults_eq_ok,
    checkCulpritVerdicts_eq_ok, foldlM_eq_ok_iff (analyseVerdict_eq_ok config _ _),
    secondPass_eq_error, true_and]
  constructor
  · rintro ⟨_, ⟨hvs, hvv, rfl⟩, _, ⟨hcs, hcv, rfl⟩, hfaults⟩
    have hreaches : ReachesFaults p config s ext := ⟨hvs, hvv, hcs, hcv⟩
    rcases hfaults with hfirst | ⟨_, ⟨hfs, hfv, rfl⟩, _, horphan, _, ⟨hbacked, rfl⟩, hsecond⟩
    · exact Or.inl ⟨hreaches, hfirst⟩
    · refine Or.inr ⟨⟨⟨hreaches, hfs, hfv, (culprits_backed_iff hvs order).mp horphan⟩,
        (verdicts_backed_iff hvs order).mp hbacked⟩, ?_⟩
      simpa [mem_faultsRegistry_values] using hsecond
  · rintro (⟨hreaches, hfirst⟩ | ⟨hpasses, hpositive⟩)
    · exact ⟨_, ⟨hreaches.verdicts_sorted, hreaches.verdicts_valid, rfl⟩, _,
        ⟨hreaches.culprits_sorted, hreaches.culprits_valid, rfl⟩, Or.inl hfirst⟩
    · refine ⟨_, ⟨hpasses.verdicts_sorted, hpasses.verdicts_valid, rfl⟩, _,
        ⟨hpasses.culprits_sorted, hpasses.culprits_valid, rfl⟩, Or.inr ⟨_,
        ⟨hpasses.faults_sorted, hpasses.faults_valid, rfl⟩, (),
        (culprits_backed_iff hpasses.verdicts_sorted order).mpr hpasses.culprits_backed, _,
        ⟨(verdicts_backed_iff hpasses.verdicts_sorted order).mpr hpasses.verdicts_backed, rfl⟩, ?_⟩⟩
      simpa [mem_faultsRegistry_values] using hpositive

/-- Where an extrinsic with `fault_verdict_wrong` is rejected: at a fault that agrees with a
past judgement, or behind all earlier tests at the first positive fault. -/
theorem rejectedAt_iff (herror : judge p order config s ext = .error .faultVerdictWrong)
    {f : Fault} :
    RejectedAt p s ext f ↔
      StopsAtPast p config s ext f ∨ (PassesChecks p config s ext ∧ FirstPositive ext f) := by
  unfold RejectedAt
  rw [firstPass_failsAt]
  simp only [secondPass_failsAt]
  rcases judge_eq_faultVerdictWrong_iff.mp herror with ⟨hreaches, hfirst⟩ | ⟨hpasses, hpositive⟩
  · -- the first pass fails, so the second one is not reached
    constructor
    · rintro (⟨hpassed, hwonky, hagrees⟩ | ⟨_, _, _, hok, _⟩)
      · exact Or.inl ⟨hreaches, hpassed, hwonky, hagrees⟩
      · exact absurd hfirst (not_error_of_ok hok _)
    · rintro (hstops | ⟨hpasses, _⟩)
      · exact Or.inl ⟨hstops.passed, hstops.notWonky, hstops.agrees⟩
      · have hok := checkFaults_eq_ok.mpr ⟨hpasses.faults_sorted, hpasses.faults_valid, rfl⟩
        exact absurd hfirst (not_error_of_ok hok _)
  · have hculprits := checkCulprits_eq_ok.mpr
      ⟨hpasses.culprits_sorted, hpasses.culprits_valid, rfl⟩
    have hfaults := checkFaults_eq_ok.mpr ⟨hpasses.faults_sorted, hpasses.faults_valid, rfl⟩
    have hvalid (hpassed : ∃ front back, ext.faults = front ++ f :: back ∧
        (front.map Fault.key).Pairwise (· < ·) ∧ ∀ g ∈ front, FaultValid p s g) :
        ¬AgreesWithPast s f := by
      obtain ⟨front, back, hsplit, _⟩ := hpassed
      exact (hpasses.faults_valid f (by simp [hsplit])).contradicts
    constructor
    · rintro (⟨hpassed, _, hagrees⟩ | ⟨_, _, _, hok, hfound⟩)
      · exact absurd hagrees (hvalid hpassed)
      · cases hfaults.symm.trans hok
        exact Or.inr ⟨hpasses, (find?_eq_firstPositive hpasses.faults_sorted).mp hfound⟩
    · rintro (hstops | ⟨_, hf⟩)
      · exact absurd hstops.agrees (hvalid hstops.passed)
      · exact Or.inr ⟨_, _, hculprits, hfaults,
          (find?_eq_firstPositive hpasses.faults_sorted).mpr hf⟩

/-- An extrinsic with a positive fault has a first one. -/
theorem exists_firstPositive (hsorted : (ext.faults.map Fault.key).Pairwise (· < ·))
    (hpositive : ∃ f ∈ ext.faults, f.vote = true) : ∃ f, FirstPositive ext f := by
  obtain ⟨f, hf, hvote⟩ := hpositive
  have hfound : (((faultsRegistry ext.faults).items.map Prod.snd).find? Fault.vote).isSome :=
    List.find?_isSome.mpr ⟨f, mem_faultsRegistry_values.mpr hf, hvote⟩
  obtain ⟨g, hg⟩ := Option.isSome_iff_exists.mp hfound
  exact ⟨g, (find?_eq_firstPositive hsorted).mp hg⟩

/-- The transition is complete in its faults exactly on the inputs of which the
following holds. If the extrinsic passes all tests before the second pass over the
faults and has a positive fault, then one of its faults agrees with the outcome, and
its first positive fault is not on a bad report. If the first pass returns at a fault
because of a past judgement, then this fault does not rightly vote for a bad report. -/
theorem faultComplete_iff (p : Primitives Report) (order : HashOrder) (config : Config)
    (s : State Report) (input : Input) :
    FaultComplete p order config s input ↔
      (config.epochLength.toNat ≠ 0 →
        (∀ f, PassesChecks p config s input.disputes → FirstPositive input.disputes f →
          (∃ g ∈ input.disputes.faults, AgreesWithOutcome config s input.disputes g) ∧
            ¬BadOutcome s input.disputes f.target) ∧
        ∀ f, StopsAtPast p config s input.disputes f → ¬VotesForBad p s input.disputes f) := by
  constructor
  · intro hcomplete hlength
    constructor
    · intro f hpasses hf
      have herror : judge p order config s input.disputes = .error .faultVerdictWrong :=
        judge_eq_faultVerdictWrong_iff.mpr (Or.inr ⟨hpasses, f, hf.mem, hf.positive⟩)
      have herr := transition_eq_err_iff.mpr ⟨hlength, herror, rfl⟩
      refine ⟨hcomplete.agrees s herr, fun hbad => ?_⟩
      have hvalid := hpasses.faults_valid f hf.mem
      exact hcomplete.spares s herr f hf.mem
        ⟨hf.positive, hbad, hvalid.signed, hvalid.current, hvalid.unpunished⟩
        ((rejectedAt_iff herror).mpr (Or.inr ⟨hpasses, hf⟩))
    · intro f hstops hvotes
      obtain ⟨front, back, hsplit, _⟩ := hstops.passed
      have hfirst := checkFaults_eq_faultVerdictWrong.mpr
        ⟨f, firstPass_failsAt.mpr ⟨hstops.passed, hstops.notWonky, hstops.agrees⟩⟩
      have herror : judge p order config s input.disputes = .error .faultVerdictWrong :=
        judge_eq_faultVerdictWrong_iff.mpr (Or.inl ⟨hstops.toReachesFaults, hfirst⟩)
      exact hcomplete.spares s (transition_eq_err_iff.mpr ⟨hlength, herror, rfl⟩) f
        (by simp [hsplit]) hvotes ((rejectedAt_iff herror).mpr (Or.inl hstops))
  · intro hcondition
    constructor
    · intro s' herr
      obtain ⟨hlength, herror, _⟩ := transition_eq_err_iff.mp herr
      rcases judge_eq_faultVerdictWrong_iff.mp herror with ⟨_, hfirst⟩ | ⟨hpasses, hpositive⟩
      · obtain ⟨f, hfails⟩ := checkFaults_eq_faultVerdictWrong.mp hfirst
        obtain ⟨⟨front, back, hsplit, _⟩, _, hpast⟩ := firstPass_failsAt.mp hfails
        exact ⟨f, by simp [hsplit], hpast.outcome⟩
      · obtain ⟨f, hf⟩ := exists_firstPositive hpasses.faults_sorted hpositive
        exact ((hcondition hlength).1 f hpasses hf).1
    · intro s' herr f _ hvotes hrejected
      obtain ⟨hlength, herror, _⟩ := transition_eq_err_iff.mp herr
      rcases (rejectedAt_iff herror).mp hrejected with hstops | ⟨hpasses, hf⟩
      · exact (hcondition hlength).2 f hstops hvotes
      · exact ((hcondition hlength).1 f hpasses hf).2 hvotes.bad

/-- A verdict of five negative votes with two culprits, and a fault of a third
validator that voted for the report. -/
def Scenario.accusedAuditor : Input :=
  ⟨⟨[verdict [false, false, false, false, false]], [culprit 1, culprit 2],
    [⟨ByteArr.fill 7, true, ByteArr.fill 3, ByteArr.fill 0⟩]⟩⟩

/-- A fault that votes for a report judged bad is rejected with
`fault_verdict_wrong`. -/
theorem not_faultComplete_bad_verdict :
    transition Scenario.primitives HashOrder.insertion Scenario.config Scenario.state
        Scenario.accusedAuditor = .ok (Scenario.state, .err .faultVerdictWrong) ∧
      (∀ f ∈ Scenario.accusedAuditor.disputes.faults,
        FaultValid Scenario.primitives Scenario.state f ∧
        VotesForBad Scenario.primitives Scenario.state Scenario.accusedAuditor.disputes f) ∧
      ¬FaultComplete Scenario.primitives HashOrder.insertion Scenario.config Scenario.state
        Scenario.accusedAuditor := by
  refine ⟨rfl, ?_, fun hcomplete => ?_⟩
  · intro f hf
    obtain rfl := List.mem_singleton.mp hf
    exact ⟨⟨by decide, by decide, by decide, rfl, by decide⟩,
      ⟨rfl, by decide, rfl, by decide, by decide⟩⟩
  · have hagrees := hcomplete.agrees Scenario.state rfl
    revert hagrees
    decide

end CppJam.Disputes
