import CppJam.Disputes.FaultCompleteness

/-!
# Which error is returned

The analysis of verdicts walks an unordered map and returns at the first verdict with a
defect. Every defective verdict is the first one in some enumeration, so the error code
of a rejected extrinsic is well defined exactly when all its defective verdicts have the
same defect, or when an earlier test has already failed.
-/

namespace CppJam.Disputes

open Bytes Checks Containers

variable {Report : Type} {p : Primitives Report} {config : Config} {s : State Report}
  {ext : DisputesExtrinsic}

/-- The error for which the analysis rejects a tally: its votes are split badly, or the
culprits and faults of the report are not those that its class needs. -/
def tallyDefect (config : Config) (culprits faults : ℕ) (counts : UInt16 × UInt16) :
    Option ErrorCode :=
  match classify config counts with
  | .error code => some code
  | .ok .bad => if culprits < 2 then some .notEnoughCulprits else none
  | .ok .good =>
    if culprits ≠ 0 then some .culpritsVerdictNotBad
    else if faults < 1 then some .notEnoughFaults
    else none
  | .ok .wonky => none

/-- The error for which the analysis rejects a new verdict. -/
def Verdict.defect (config : Config) (ext : DisputesExtrinsic) (v : Verdict) : Option ErrorCode :=
  tallyDefect config (ext.culpritCount v.target) (ext.faultCount v.target) v.tally

/-- All new verdicts with a defect have the same one. -/
def OneDefect (config : Config) (s : State Report) (ext : DisputesExtrinsic) : Prop :=
  ∀ v ∈ ext.verdicts, ∀ w ∈ ext.verdicts, Counted s v → Counted s w →
    ∀ code₁ ∈ v.defect config ext, ∀ code₂ ∈ w.defect config ext, code₁ = code₂

/-- The analysis of one tally fails by its defect. -/
theorem analyseVerdict_eq_error (config : Config) (culprits : Multimap WorkReportHash Culprit)
    (faults : Multimap WorkReportHash Fault) (wonky : OrderedSet)
    (entry : Σ _ : WorkReportHash, UInt16 × UInt16) (code : ErrorCode) :
    analyseVerdict config culprits faults wonky entry = .error code ↔
      tallyDefect config (culprits.count entry.1) (faults.count entry.1) entry.2 = some code := by
  unfold analyseVerdict tallyDefect
  cases hclass : classify config entry.2 with
  | error c => simp [bind_eq_error]
  | ok kind =>
    cases kind with
    | bad =>
      simp only [bind_eq_error, failIf_eq_error, reduceCtorEq, false_or, Except.ok.injEq,
        exists_eq_left', pure_ne_error, and_false, exists_false, or_false]
      split_ifs with hfew <;> simp [hfew]
    | good =>
      simp only [bind_eq_error, failIf_eq_error, reduceCtorEq, false_or, Except.ok.injEq,
        exists_eq_left', pure_ne_error, and_false, exists_false, or_false, failIf_eq_ok]
      split_ifs with hculprits hfew <;> simp_all
    | wonky => simp [bind_eq_error, pure_ne_error]

/-- The second test of the culprits fails when a culprit has no new verdict with a
negative vote, and always with the same error. -/
theorem checkCulpritVerdicts_eq_error
    (hsorted : (ext.verdicts.map Verdict.target).Pairwise (· < ·)) (order : HashOrder)
    {code : ErrorCode} :
    (culpritsRegistry ext.culprits).keys.foldlM (checkCulpritVerdict
        (voteCountByJudgements order (judgementsRegistry s ext.verdicts))) () = .error code ↔
      code = .culpritsVerdictNotBad ∧ ¬∀ c ∈ ext.culprits, ∃ v ∈ ext.verdicts,
        v.target = c.target ∧ Counted s v ∧ v.tally.2 ≠ 0 := by
  rw [← culprits_backed_iff hsorted order, ← checkCulpritVerdicts_eq_ok (u := ())]
  cases hchecked : (culpritsRegistry ext.culprits).keys.foldlM (checkCulpritVerdict
      (voteCountByJudgements order (judgementsRegistry s ext.verdicts))) () with
  | ok u => simp
  | error e =>
    obtain ⟨r, _, _, hr⟩ := exists_of_foldlM_eq_error hchecked
    have he : e = .culpritsVerdictNotBad := by
      cases hlookup : (voteCountByJudgements order
          (judgementsRegistry s ext.verdicts)).lookup r with
      | none =>
        simp only [checkCulpritVerdict, hlookup, Except.error.injEq] at hr
        exact hr.symm
      | some counts =>
        simp only [checkCulpritVerdict, hlookup, failIf_eq_error] at hr
        exact hr.2.symm
    simp [he, eq_comm]

/-- An error before the analysis of verdicts is the same for every enumeration order. -/
theorem judge_error_of_not_reachesAnalysis (hnot : ¬ReachesAnalysis p config s ext)
    {o₁ o₂ : HashOrder} {code : ErrorCode} (h₁ : judge p o₁ config s ext = .error code) :
    judge p o₂ config s ext = .error code := by
  cases hverdicts : checkVerdicts p config s ext.verdicts with
  | error e => simpa [judge, hverdicts, bind_eq_error] using h₁
  | ok registry =>
    cases hculprits : checkCulprits p s ext.culprits with
    | error e => simpa [judge, hverdicts, hculprits, bind_eq_error] using h₁
    | ok culprits =>
      cases hfaults : checkFaults p s ext.faults with
      | error e => simpa [judge, hverdicts, hculprits, hfaults, bind_eq_error] using h₁
      | ok faults =>
        obtain ⟨hvs, hvv, rfl⟩ := checkVerdicts_eq_ok.mp hverdicts
        obtain ⟨hcs, hcv, rfl⟩ := checkCulprits_eq_ok.mp hculprits
        obtain ⟨hfs, hfv, _⟩ := checkFaults_eq_ok.mp hfaults
        have hfails (order : HashOrder) :=
          (checkCulpritVerdicts_eq_error hvs order).mpr
            ⟨rfl, fun hbacked => hnot ⟨⟨hvs, hvv, hcs, hcv⟩, hfs, hfv, hbacked⟩⟩
        simpa [judge, hverdicts, hculprits, hfaults, hfails, bind_eq_error] using h₁

/-! ## The first defect -/

/-- The first defect that the analysis meets in its enumeration. -/
def firstDefect (order : HashOrder) (config : Config) (s : State Report)
    (ext : DisputesExtrinsic) : Option ErrorCode :=
  (order.votes (voteCountByJudgements order (judgementsRegistry s ext.verdicts)).entries).findSome?
    (fun entry => tallyDefect config (ext.culpritCount entry.1) (ext.faultCount entry.1) entry.2)

/-- The analysis fails with the first defect. -/
theorem analyseVerdicts_eq_error (order : HashOrder) {wonky : OrderedSet} {code : ErrorCode} :
    (order.votes (voteCountByJudgements order (judgementsRegistry s ext.verdicts)).entries).foldlM
        (analyseVerdict config (culpritsRegistry ext.culprits) (faultsRegistry ext.faults)) wonky =
        .error code ↔
      firstDefect order config s ext = some code := by
  rw [foldlM_eq_error_iff (analyseVerdict_eq_error config _ _)]
  simp only [culpritsRegistry_count, faultsRegistry_count, firstDefect]

/-- The first defect is that of a new verdict. -/
theorem exists_verdict_of_firstDefect
    (hsorted : (ext.verdicts.map Verdict.target).Pairwise (· < ·)) {order : HashOrder}
    {code : ErrorCode} (hfirst : firstDefect order config s ext = some code) :
    ∃ v ∈ ext.verdicts, Counted s v ∧ v.defect config ext = some code := by
  obtain ⟨⟨r, counts⟩, hentry, hdefect⟩ := List.exists_of_findSome?_eq_some hfirst
  obtain ⟨v, hv, rfl, hcounted, rfl⟩ := (mem_votes_entries hsorted order).mp hentry
  exact ⟨v, hv, hcounted, hdefect⟩

/-- There is no first defect when no new verdict has a defect. -/
theorem firstDefect_eq_none_iff (hsorted : (ext.verdicts.map Verdict.target).Pairwise (· < ·))
    {order : HashOrder} :
    firstDefect order config s ext = none ↔
      ∀ v ∈ ext.verdicts, Counted s v → v.defect config ext = none := by
  simp only [firstDefect, List.findSome?_eq_none_iff, mem_votes_entries hsorted order]
  constructor
  · intro hnone v hv hcounted
    exact hnone ⟨v.target, v.tally⟩ ⟨v, hv, rfl, hcounted, rfl⟩
  · rintro hnone ⟨_, _⟩ ⟨v, hv, rfl, hcounted, rfl⟩
    exact hnone v hv hcounted

/-- A tally without a defect is backed by culprits and faults. -/
theorem tallyBacked_of_no_defect {culprits faults : ℕ} {counts : UInt16 × UInt16}
    (hnone : tallyDefect config culprits faults counts = none) :
    TallyBacked config culprits faults counts := by
  unfold tallyDefect at hnone
  unfold TallyBacked
  cases hclass : classify config counts with
  | error code => simp [hclass] at hnone
  | ok kind =>
    cases kind with
    | bad =>
      simp only [hclass] at hnone ⊢
      split_ifs at hnone with hfew
      omega
    | good =>
      simp only [hclass] at hnone ⊢
      split_ifs at hnone with hculprits hfaults
      exact ⟨not_not.mp hculprits, not_lt.mp hfaults⟩
    | wonky => trivial

/-- Without a first defect every test before the analysis of faults is passed. -/
theorem ReachesAnalysis.passesChecks (hreaches : ReachesAnalysis p config s ext)
    {order : HashOrder} (hnone : firstDefect order config s ext = none) :
    PassesChecks p config s ext := by
  refine ⟨hreaches, fun v hv hcounted => tallyBacked_of_no_defect ?_⟩
  exact (firstDefect_eq_none_iff hreaches.verdicts_sorted).mp hnone v hv hcounted

/-- Past the earlier tests the error is the first defect; without one it is
`fault_verdict_wrong`, for a fault that votes for its report. -/
theorem ReachesAnalysis.judge_eq_error (hreaches : ReachesAnalysis p config s ext)
    (order : HashOrder) {code : ErrorCode} :
    judge p order config s ext = .error code ↔
      firstDefect order config s ext = some code ∨
        (firstDefect order config s ext = none ∧ (∃ f ∈ ext.faults, f.vote = true) ∧
          code = .faultVerdictWrong) := by
  rw [hreaches.judge_eq_error_iff_stages order, analyseVerdicts_eq_error]
  constructor
  · rintro (hfirst | ⟨wonky, hok, hsecond⟩)
    · exact Or.inl hfirst
    · obtain ⟨rfl, f, hf, hvote⟩ := secondPass_eq_error.mp hsecond
      refine Or.inr ⟨?_, ⟨f, mem_faultsRegistry_values.mp hf, hvote⟩, rfl⟩
      rw [Option.eq_none_iff_forall_ne_some]
      intro e hfirst
      rw [← analyseVerdicts_eq_error, hok] at hfirst
      cases hfirst
  · rintro (hfirst | ⟨hnone, ⟨f, hf, hvote⟩, rfl⟩)
    · exact Or.inl hfirst
    · have hjudge : judge p order config s ext = .error .faultVerdictWrong :=
        judge_eq_faultVerdictWrong_iff.mpr (Or.inr ⟨hreaches.passesChecks hnone, f, hf, hvote⟩)
      rwa [hreaches.judge_eq_error_iff_stages order, analyseVerdicts_eq_error] at hjudge

/-! ## Enumeration orders -/

/-- The enumeration that visits the given tally first. -/
def HashOrder.startWith (order : HashOrder) (entry : Σ _ : WorkReportHash, UInt16 × UInt16) :
    HashOrder where
  judgements := order.judgements
  judgements_perm := order.judgements_perm
  votes l := if entry ∈ l then entry :: l.erase entry else l
  votes_perm l := by
    split_ifs with hentry
    · exact (List.perm_cons_erase hentry).symm
    · exact List.Perm.refl l

/-- Every defect of a new verdict is the first one in some enumeration. -/
theorem firstDefect_startWith (hsorted : (ext.verdicts.map Verdict.target).Pairwise (· < ·))
    (order : HashOrder) {v : Verdict} (hv : v ∈ ext.verdicts) (hcounted : Counted s v)
    {code : ErrorCode} (hdefect : v.defect config ext = some code) :
    firstDefect (order.startWith ⟨v.target, v.tally⟩) config s ext = some code := by
  have hentry : (⟨v.target, v.tally⟩ : Σ _ : WorkReportHash, UInt16 × UInt16) ∈
      (voteCountByJudgements order (judgementsRegistry s ext.verdicts)).entries := by
    rw [← (order.votes_perm _).mem_iff]
    exact (mem_votes_entries hsorted order).mpr ⟨v, hv, rfl, hcounted, rfl⟩
  have hvotes : (order.startWith ⟨v.target, v.tally⟩).votes
      (voteCountByJudgements order (judgementsRegistry s ext.verdicts)).entries =
        ⟨v.target, v.tally⟩ :: _ := if_pos hentry
  unfold firstDefect
  rw [show voteCountByJudgements (order.startWith ⟨v.target, v.tally⟩)
    (judgementsRegistry s ext.verdicts) =
      voteCountByJudgements order (judgementsRegistry s ext.verdicts) from rfl, hvotes,
    List.findSome?_cons]
  rw [Verdict.defect] at hdefect
  rw [hdefect]

/-- The transition returns one error code, whatever the enumeration order. -/
def ErrorStable (p : Primitives Report) (config : Config) (s : State Report) (input : Input) :
    Prop :=
  ∃ code, ∀ order, transition p order config s input = .ok (s, .err code)

/-- With one defect two errors of the same extrinsic are equal. -/
theorem judge_error_unique
    (hone : ReachesAnalysis p config s ext → OneDefect config s ext) {o₁ o₂ : HashOrder}
    {c₁ c₂ : ErrorCode} (h₁ : judge p o₁ config s ext = .error c₁)
    (h₂ : judge p o₂ config s ext = .error c₂) : c₁ = c₂ := by
  by_cases hreaches : ReachesAnalysis p config s ext
  · have hsorted := hreaches.verdicts_sorted
    have hnever {o o' : HashOrder} {code : ErrorCode} (hnone : firstDefect o config s ext = none)
        (hfirst : firstDefect o' config s ext = some code) : False := by
      obtain ⟨v, hv, hcounted, hdefect⟩ := exists_verdict_of_firstDefect hsorted hfirst
      rw [(firstDefect_eq_none_iff hsorted).mp hnone v hv hcounted] at hdefect
      cases hdefect
    rcases (hreaches.judge_eq_error o₁).mp h₁ with hfirst₁ | ⟨hnone₁, _, rfl⟩ <;>
      rcases (hreaches.judge_eq_error o₂).mp h₂ with hfirst₂ | ⟨hnone₂, _, rfl⟩
    · obtain ⟨v, hv, hcounted, hdefect⟩ := exists_verdict_of_firstDefect hsorted hfirst₁
      obtain ⟨w, hw, hwcounted, hwdefect⟩ := exists_verdict_of_firstDefect hsorted hfirst₂
      exact hone hreaches v hv w hw hcounted hwcounted c₁ hdefect c₂ hwdefect
    · exact (hnever hnone₂ hfirst₁).elim
    · exact (hnever hnone₁ hfirst₂).elim
    · rfl
  · have h : judge p o₂ config s ext = .error c₁ :=
      judge_error_of_not_reachesAnalysis hreaches h₁
    rw [h₂] at h
    exact (Except.error.inj h).symm

/-- **Reported error.** A rejected input has one error code for all enumeration orders
exactly when it fails before the analysis of verdicts or all its defective verdicts have
the same defect. -/
theorem errorStable_iff {input : Input}
    (hrejected : ∃ order code, transition p order config s input = .ok (s, .err code)) :
    ErrorStable p config s input ↔
      (ReachesAnalysis p config s input.disputes → OneDefect config s input.disputes) := by
  obtain ⟨order, code, hrejected⟩ := hrejected
  obtain ⟨hlength, hjudge, _⟩ := transition_eq_err_iff.mp hrejected
  constructor
  · rintro ⟨stable, hstable⟩ hreaches v hv w hw hcounted hwcounted code₁ hcode₁ code₂ hcode₂
    have hreported {u : Verdict} {c : ErrorCode} (hu : u ∈ input.disputes.verdicts)
        (hucounted : Counted s u) (hdefect : u.defect config input.disputes = some c) :
        c = stable := by
      have hfirst := firstDefect_startWith hreaches.verdicts_sorted order hu hucounted hdefect
      have hfails := (hreaches.judge_eq_error _).mpr (Or.inl hfirst)
      obtain ⟨_, hsame, _⟩ := transition_eq_err_iff.mp (hstable (order.startWith _))
      rw [hfails] at hsame
      exact Except.error.inj hsame
    rw [hreported hv hcounted hcode₁, hreported hw hwcounted hcode₂]
  · intro hone
    have hnot : ¬Accepted p config s input.disputes := by
      intro haccepted
      rw [judge_eq_ok_iff.mpr ⟨haccepted, rfl⟩] at hjudge
      cases hjudge
    refine ⟨code, fun other => ?_⟩
    obtain ⟨code', hother⟩ := transition_of_not_accepted hlength hnot other
    rw [hother, judge_error_unique hone hjudge (transition_eq_err_iff.mp hother).2.1]

/-- The error for a single verdict with a bad split is stable. -/
theorem errorStable_bad_split :
    ErrorStable Scenario.primitives Scenario.config Scenario.state
      ⟨⟨[Scenario.verdict [true, false, false, false, false]], [], []⟩⟩ := by
  refine (errorStable_iff ⟨HashOrder.insertion, .badVoteSplit, rfl⟩).mpr ?_
  intro _ v hv w hw _ _ code₁ hcode₁ code₂ hcode₂
  obtain rfl := List.mem_singleton.mp hv
  obtain rfl := List.mem_singleton.mp hw
  exact Option.mem_unique hcode₁ hcode₂

/-- Enumeration of the tallies from the last to the first. -/
def HashOrder.reversed : HashOrder :=
  { HashOrder.insertion with votes := List.reverse, votes_perm := List.reverse_perm }

/-- A badly split verdict on report 7, and five negative votes without culprits on
report 8. -/
def Scenario.twoDefects : Input :=
  ⟨⟨[verdict [true, false, false, false, false],
    { verdict [false, false, false, false, false] with target := ByteArr.fill 8 }], [], []⟩⟩

/-- With two defective verdicts the error depends on the enumeration order. -/
theorem not_errorStable_two_defects :
    transition Scenario.primitives HashOrder.insertion Scenario.config Scenario.state
      Scenario.twoDefects = .ok (Scenario.state, .err .notEnoughCulprits) ∧
    transition Scenario.primitives HashOrder.reversed Scenario.config Scenario.state
      Scenario.twoDefects = .ok (Scenario.state, .err .badVoteSplit) ∧
    ¬ErrorStable Scenario.primitives Scenario.config Scenario.state Scenario.twoDefects := by
  refine ⟨rfl, rfl, ?_⟩
  rintro ⟨code, hstable⟩
  cases hstable HashOrder.insertion
  cases hstable HashOrder.reversed

end CppJam.Disputes
