import CppJam.Disputes.Counting
import CppJam.Disputes.ValidatingLoops

/-!
# The transition computes the accepted outcome

The stages of the transition succeed exactly on accepted extrinsics and then
produce the outcome, for every enumeration order of the unordered containers.
Everything else that is proved about the disputes transition goes through
`transition_eq_ok_iff`.
-/

namespace CppJam.Disputes

open Bytes Checks Containers

variable {Report : Type}

/-- The second test of the culprits passes when every report of the registry has
a tally with a negative vote. -/
theorem checkCulpritVerdicts_eq_ok
    {votes : AList (fun _ : WorkReportHash => UInt16 × UInt16)} {reports : List WorkReportHash}
    {u : Unit} : reports.foldlM (checkCulpritVerdict votes) () = .ok u ↔
      ∀ r ∈ reports, ∃ counts, votes.lookup r = some counts ∧ counts.2 ≠ 0 := by
  have hbody : ∀ (u : Unit) (r : WorkReportHash) (u' : Unit),
      checkCulpritVerdict votes u r = .ok u' ↔
        (∃ counts, votes.lookup r = some counts ∧ counts.2 ≠ 0) ∧ u = u' := by
    intro u r u'
    cases hr : votes.lookup r with
    | none => simp [checkCulpritVerdict, hr]
    | some counts => simp [checkCulpritVerdict, hr]
  have hloop := foldlM_eq_ok_iff hbody reports () u
  simpa using hloop

/-- What the analysis of one tally does to the wonky set. -/
def addWonky (config : Config) (wonky : OrderedSet)
    (entry : Σ _ : WorkReportHash, UInt16 × UInt16) : OrderedSet :=
  if classify config entry.2 = .ok .wonky then wonky.emplace entry.1 else wonky

/-- A tally passes the analysis when it is backed by culprits and faults. -/
theorem analyseVerdict_eq_ok (config : Config) (culprits : Multimap WorkReportHash Culprit)
    (faults : Multimap WorkReportHash Fault) (wonky : OrderedSet)
    (entry : Σ _ : WorkReportHash, UInt16 × UInt16) (out : OrderedSet) :
    analyseVerdict config culprits faults wonky entry = .ok out ↔
      TallyBacked config (culprits.count entry.1) (faults.count entry.1) entry.2 ∧
        addWonky config wonky entry = out := by
  cases hclass : classify config entry.2 with
  | error e => simp [analyseVerdict, TallyBacked, hclass]
  | ok kind =>
    cases kind with
    | bad =>
      have hcount : ¬culprits.count entry.1 < 2 ↔ 2 ≤ culprits.count entry.1 := not_lt
      simp only [TallyBacked, addWonky, hclass, ← hcount]
      simp [analyseVerdict, hclass]
    | good =>
      have hcount : ¬faults.count entry.1 < 1 ↔ 1 ≤ faults.count entry.1 := not_lt
      simp only [TallyBacked, addWonky, hclass, ← hcount]
      simp [analyseVerdict, hclass, and_assoc]
    | wonky => simp [analyseVerdict, TallyBacked, addWonky, hclass]

/-- The wonky set gains the reports with wonky tallies. -/
private theorem mem_foldl_addWonky {config : Config} {wonky : OrderedSet} {r : WorkReportHash}
    {entries : List (Σ _ : WorkReportHash, UInt16 × UInt16)} :
    r ∈ entries.foldl (addWonky config) wonky ↔
      r ∈ wonky ∨ ∃ e ∈ entries, classify config e.2 = .ok .wonky ∧ e.1 = r := by
  induction entries generalizing wonky with
  | nil => simp
  | cons e entries ih =>
    rw [List.foldl_cons, ih, addWonky]
    split_ifs with hwonky
    · simp [hwonky, or_assoc, eq_comm]
    · simp [hwonky]

/-- Report the offenders of one report and add the report to a set. -/
private def reportGroup {α : Type} (key : α → Ed25519Public) (st : Offences × OrderedSet)
    (group : WorkReportHash × List α) : Offences × OrderedSet :=
  (group.2.foldl (fun o a => o.report (key a)) st.1, st.2.emplace group.1)

/-- Reporting a list of keys appends them to the mark and punishes them. -/
private theorem foldl_report {α : Type} (key : α → Ed25519Public) (l : List α) (o : Offences) :
    l.foldl (fun o a => o.report (key a)) o =
      ⟨o.offendersMark ++ l.map key, o.newPunishSet.insertRange (l.map key)⟩ := by
  induction l generalizing o with
  | nil => simp [KeyedSet.insertRange]
  | cons a l ih =>
    rw [List.foldl_cons, ih]
    simp [Offences.report, KeyedSet.insertRange]

/-- Reporting the groups of a multimap reports its values in order and adds its
keys to the set. -/
private theorem foldl_reportGroup {α : Type} (key : α → Ed25519Public)
    (m : Multimap WorkReportHash α) (o : Offences) (set : OrderedSet) :
    (MultimapGroups.groups m).foldl (reportGroup key) (o, set) =
      (⟨o.offendersMark ++ m.items.map (fun e => key e.2),
          o.newPunishSet.insertRange (m.items.map (fun e => key e.2))⟩,
        set.insertRange ((MultimapGroups.groups m).map Prod.fst)) := by
  have hgroups : ∀ (groups : List (WorkReportHash × List α)) (o : Offences) (set : OrderedSet),
      groups.foldl (reportGroup key) (o, set) =
        ((groups.flatMap Prod.snd).foldl (fun o a => o.report (key a)) o,
          set.insertRange (groups.map Prod.fst)) := by
    intro groups
    induction groups with
    | nil => simp [KeyedSet.insertRange]
    | cons g groups ih =>
      intro o set
      rw [List.foldl_cons, reportGroup, ih]
      simp [KeyedSet.insertRange]
  rw [hgroups, MultimapGroups.groups_values, foldl_report]
  simp [Function.comp_def]

/-- The faults of a multimap pass the analysis when all vote negatively. -/
private theorem analyseFaults_eq_ok {m : Multimap WorkReportHash Fault}
    {st out : Offences × OrderedSet} :
    (MultimapGroups.groups m).foldlM analyseFaults st = .ok out ↔
      (∀ f ∈ m.items.map Prod.snd, f.vote = false) ∧
        (MultimapGroups.groups m).foldl (reportGroup Fault.key) st = out := by
  have hfault : ∀ (o : Offences) (f : Fault) (o' : Offences),
      analyseFault o f = .ok o' ↔ f.vote = false ∧ o.report f.key = o' := by
    intro o f o'
    simp [analyseFault]
  have hbody : ∀ (st : Offences × OrderedSet) (g : WorkReportHash × List Fault)
      (st' : Offences × OrderedSet),
      analyseFaults st g = .ok st' ↔
        (∀ f ∈ g.2, f.vote = false) ∧ reportGroup Fault.key st g = st' := by
    intro st g st'
    simp only [analyseFaults, bind_eq_ok, pure_eq_ok, foldlM_eq_ok_iff hfault, reportGroup]
    constructor
    · rintro ⟨o, ⟨hall, rfl⟩, hout⟩
      exact ⟨hall, hout⟩
    · rintro ⟨hall, hout⟩
      exact ⟨_, ⟨hall, rfl⟩, hout⟩
  rw [foldlM_eq_ok_iff hbody, ← MultimapGroups.groups_values]
  simp only [List.mem_flatMap, forall_exists_index, and_imp]
  constructor
  · rintro ⟨hall, hout⟩
    exact ⟨fun f g hg hf => hall g hg f hf, hout⟩
  · rintro ⟨hall, hout⟩
    exact ⟨fun g hg f hf => hall f g hg hf, hout⟩

/-- Adding the keys of the groups of a multimap is adding the targets that the
multimap was filled with. -/
private theorem insertRange_groups {α : Type} {m : Multimap WorkReportHash α}
    {targets : List WorkReportHash} (hkeys : ∀ r, r ∈ m.keys ↔ r ∈ targets) (set : OrderedSet) :
    set.insertRange ((MultimapGroups.groups m).map Prod.fst) = set.insertRange targets := by
  apply KeyedSet.eq_of_mem_iff
  intro r
  rw [KeyedSet.mem_insertRange_id, KeyedSet.mem_insertRange_id, MultimapGroups.mem_groups_keys,
    hkeys]

/-- The good set after the fault loop. -/
private theorem newGoodSet_eq (config : Config) (s : State Report) (ext : DisputesExtrinsic) :
    (asSet s.psi.good).insertRange
        ((MultimapGroups.groups (faultsRegistry ext.faults)).map Prod.fst) =
      (outcome config s ext).newGoodSet :=
  insertRange_groups (fun r => by simp [mem_faultsRegistry_keys]) _

/-- The bad set after the culprit loop. -/
private theorem newBadSet_eq (config : Config) (s : State Report) (ext : DisputesExtrinsic) :
    (asSet s.psi.bad).insertRange
        ((MultimapGroups.groups (culpritsRegistry ext.culprits)).map Prod.fst) =
      (outcome config s ext).newBadSet :=
  insertRange_groups (fun r => by simp [mem_culpritsRegistry_keys]) _

/-- The wonky set after the loop over the tallies, in any enumeration order. -/
private theorem newWonkySet_eq (config : Config) {s : State Report} {ext : DisputesExtrinsic}
    (hsorted : (ext.verdicts.map Verdict.target).Pairwise (· < ·)) (order : HashOrder) :
    (order.votes (voteCountByJudgements order
        (judgementsRegistry s ext.verdicts)).entries).foldl (addWonky config) (asSet s.psi.wonky) =
      (outcome config s ext).newWonkySet := by
  apply KeyedSet.eq_of_mem_iff
  intro r
  rw [mem_foldl_addWonky, outcome, KeyedSet.mem_insertRange_id]
  apply or_congr Iff.rfl
  simp only [List.mem_map, List.mem_filter, decide_eq_true_eq]
  constructor
  · rintro ⟨e, he, hclass, rfl⟩
    obtain ⟨v, hv, htarget, hcounted, htally⟩ := (mem_votes_entries hsorted order).mp he
    exact ⟨v, ⟨hv, hcounted, by rw [htally]; exact hclass⟩, htarget⟩
  · rintro ⟨v, ⟨hv, hcounted, hclass⟩, rfl⟩
    exact ⟨⟨v.target, v.tally⟩, (mem_votes_entries hsorted order).mpr ⟨v, hv, rfl, hcounted, rfl⟩,
      hclass, rfl⟩

/-- The culprits pass their second test when each has a new verdict with a
negative vote. -/
theorem culprits_backed_iff {s : State Report} {ext : DisputesExtrinsic}
    (hsorted : (ext.verdicts.map Verdict.target).Pairwise (· < ·)) (order : HashOrder) :
    (∀ r ∈ (culpritsRegistry ext.culprits).keys, ∃ counts,
      (voteCountByJudgements order (judgementsRegistry s ext.verdicts)).lookup r = some counts ∧
        counts.2 ≠ 0) ↔
      ∀ c ∈ ext.culprits, ∃ v ∈ ext.verdicts,
        v.target = c.target ∧ Counted s v ∧ v.tally.2 ≠ 0 := by
  simp only [mem_culpritsRegistry_keys, lookup_voteCountByJudgements hsorted order]
  constructor
  · intro h c hc
    obtain ⟨_, ⟨v, hv, htarget, hcounted, rfl⟩, hne⟩ := h c.target ⟨c, hc, rfl⟩
    exact ⟨v, hv, htarget, hcounted, hne⟩
  · rintro h _ ⟨c, hc, rfl⟩
    obtain ⟨v, hv, htarget, hcounted, hne⟩ := h c hc
    exact ⟨v.tally, ⟨v, hv, htarget, hcounted, rfl⟩, hne⟩

/-- The tallies pass the analysis when every new verdict is backed. -/
theorem verdicts_backed_iff {config : Config} {s : State Report} {ext : DisputesExtrinsic}
    (hsorted : (ext.verdicts.map Verdict.target).Pairwise (· < ·)) (order : HashOrder) :
    (∀ e ∈ order.votes (voteCountByJudgements order (judgementsRegistry s ext.verdicts)).entries,
      TallyBacked config ((culpritsRegistry ext.culprits).count e.1)
        ((faultsRegistry ext.faults).count e.1) e.2) ↔
      ∀ v ∈ ext.verdicts, Counted s v →
        TallyBacked config (ext.culpritCount v.target) (ext.faultCount v.target) v.tally := by
  simp only [mem_votes_entries hsorted order, culpritsRegistry_count, faultsRegistry_count]
  constructor
  · intro h v hv hcounted
    exact h ⟨v.target, v.tally⟩ ⟨v, hv, rfl, hcounted, rfl⟩
  · rintro h ⟨_, _⟩ ⟨v, hv, rfl, hcounted, rfl⟩
    exact h v hv hcounted

/-- The results of the analysing loops, put together, are the outcome. -/
private theorem analysis_eq_outcome (config : Config) {s : State Report} {ext : DisputesExtrinsic}
    (hsorted : (ext.verdicts.map Verdict.target).Pairwise (· < ·)) (order : HashOrder) :
    let afterCulprits := (MultimapGroups.groups (culpritsRegistry ext.culprits)).foldl
      analyseCulprits (⟨[], asSet s.psi.offenders⟩, asSet s.psi.bad)
    let afterFaults := (MultimapGroups.groups (faultsRegistry ext.faults)).foldl
      (reportGroup Fault.key) (afterCulprits.1, asSet s.psi.good)
    (⟨afterFaults.2, afterCulprits.2,
      (order.votes (voteCountByJudgements order (judgementsRegistry s ext.verdicts)).entries).foldl
        (addWonky config) (asSet s.psi.wonky), afterFaults.1⟩ : Judgment) =
      outcome config s ext := by
  intro afterCulprits afterFaults
  have hculprits := foldl_reportGroup Culprit.key (culpritsRegistry ext.culprits)
    ⟨[], asSet s.psi.offenders⟩ (asSet s.psi.bad)
  have hculprits : afterCulprits = _ := hculprits
  have hfaults := foldl_reportGroup Fault.key (faultsRegistry ext.faults) afterCulprits.1
    (asSet s.psi.good)
  have hfaults : afterFaults = _ := hfaults
  rw [hfaults, hculprits, newWonkySet_eq config hsorted order]
  simp only [newGoodSet_eq config, newBadSet_eq config]
  simp [outcome, reportedKeys, KeyedSet.insertRange]

/-- The stages succeed exactly on accepted extrinsics and compute the outcome. -/
theorem judge_eq_ok_iff {p : Primitives Report} {order : HashOrder} {config : Config}
    {s : State Report} {ext : DisputesExtrinsic} {j : Judgment} :
    judge p order config s ext = .ok j ↔ Accepted p config s ext ∧ outcome config s ext = j := by
  simp only [judge, bind_eq_ok, pure_eq_ok, checkVerdicts_eq_ok, checkCulprits_eq_ok,
    checkFaults_eq_ok, checkCulpritVerdicts_eq_ok,
    foldlM_eq_ok_iff (analyseVerdict_eq_ok config _ _), analyseFaults_eq_ok]
  constructor
  · rintro ⟨_, ⟨hvs, hvv, rfl⟩, _, ⟨hcs, hcv, rfl⟩, _, ⟨hfs, hfv, rfl⟩, _, horphan, _,
      ⟨hbacked, rfl⟩, _, ⟨hnegative, rfl⟩, rfl⟩
    have hreaches : ReachesAnalysis p config s ext :=
      ⟨⟨hvs, hvv, hcs, hcv⟩, hfs, hfv, (culprits_backed_iff hvs order).mp horphan⟩
    refine ⟨⟨⟨hreaches, (verdicts_backed_iff hvs order).mp hbacked⟩, ?_⟩,
      (analysis_eq_outcome config hvs order).symm⟩
    exact fun f hf => hnegative f (mem_faultsRegistry_values.mpr hf)
  · rintro ⟨h, rfl⟩
    refine ⟨_, ⟨h.verdicts_sorted, h.verdicts_valid, rfl⟩, _,
      ⟨h.culprits_sorted, h.culprits_valid, rfl⟩, _, ⟨h.faults_sorted, h.faults_valid, rfl⟩, (),
      (culprits_backed_iff h.verdicts_sorted order).mpr h.culprits_backed, _,
      ⟨(verdicts_backed_iff h.verdicts_sorted order).mpr h.verdicts_backed, rfl⟩, _,
      ⟨?_, rfl⟩, analysis_eq_outcome config h.verdicts_sorted order⟩
    exact fun f hf => h.faults_negative f (mem_faultsRegistry_values.mp hf)

/-- The transition accepts exactly the accepted extrinsics whose assigned
reports can be encoded, and moves to the outcome. -/
theorem transition_eq_ok_iff {p : Primitives Report} {order : HashOrder} {config : Config}
    {s s' : State Report} {input : Input} {out : OutputData} :
    transition p order config s input = .ok (s', .ok out) ↔
      config.epochLength.toNat ≠ 0 ∧ Accepted p config s input.disputes ∧
      ∃ rho, s.rho.mapM (clearRow p config (outcome config s input.disputes)) = .ok rho ∧
        stateTick s (outcome config s input.disputes) rho = s' ∧
        (⟨reportedKeys input.disputes⟩ : OutputData) = out := by
  simp only [transition, settle_eq_ok, transitionBody, bind_eq_ok, failIf_eq_ok, mapError_eq_ok,
    judge_eq_ok_iff, pure_eq_ok, Prod.mk.injEq]
  constructor
  · rintro ⟨_, hlength, _, ⟨haccepted, rfl⟩, rho, hrho, hstate, hout⟩
    exact ⟨hlength, haccepted, rho, hrho, hstate, hout⟩
  · rintro ⟨hlength, haccepted, rho, hrho, hstate, hout⟩
    exact ⟨(), hlength, _, ⟨haccepted, rfl⟩, rho, hrho, hstate, hout⟩

/-- A failed test rejects the block and leaves the state unchanged. -/
theorem transition_of_judge_error {p : Primitives Report} {order : HashOrder} {config : Config}
    {s : State Report} {input : Input} {code : ErrorCode}
    (hjudge : judge p order config s input.disputes = .error code) :
    transition p order config s input =
      if config.epochLength.toNat = 0 then .error .undefinedBehaviour
      else .ok (s, .err code) := by
  split_ifs with hlength <;>
    simp [transition, transitionBody, failIf, hlength, hjudge, Except.mapError, Bind.bind,
      Except.bind, settle]

/-- A block is rejected with the error of the failed test only. -/
theorem transition_eq_err_iff {p : Primitives Report} {order : HashOrder} {config : Config}
    {s s' : State Report} {input : Input} {code : ErrorCode} :
    transition p order config s input = .ok (s', .err code) ↔
      config.epochLength.toNat ≠ 0 ∧ judge p order config s input.disputes = .error code ∧
        s = s' := by
  cases hjudge : judge p order config s input.disputes with
  | error c =>
    rw [transition_of_judge_error hjudge]
    split_ifs with hlength <;> simp [hlength, and_comm]
  | ok j =>
    by_cases hlength : config.epochLength.toNat = 0
    · simp [transition, transitionBody, failIf, hlength, Bind.bind, Except.bind, settle]
    · cases hrho : s.rho.mapM (clearRow p config j) <;>
        simp [transition, transitionBody, failIf, hlength, hjudge, hrho, Except.mapError,
          Bind.bind, Except.bind, Pure.pure, Except.pure, settle]

/-- An extrinsic that is not accepted is rejected. -/
theorem transition_of_not_accepted {p : Primitives Report} {config : Config} {s : State Report}
    {input : Input} (hlength : config.epochLength.toNat ≠ 0)
    (hnot : ¬Accepted p config s input.disputes) (order : HashOrder) :
    ∃ code, transition p order config s input = .ok (s, .err code) := by
  cases hjudge : judge p order config s input.disputes with
  | ok j => exact absurd (judge_eq_ok_iff.mp hjudge).1 hnot
  | error code => exact ⟨code, by rw [transition_of_judge_error hjudge, if_neg hlength]⟩

/-! ## A small network

Concrete data for inputs on which the statements below are evaluated: six
validators whose every signature verifies, and reports of one octet. -/

namespace Scenario

/-- Constants of a network with six validators. -/
def config : Config := ⟨6, 5, 12, 3, 2, 8, 80⟩

/-- Signatures always verify; a report is encoded by its octet, and hashes
repeat the first octet. -/
def primitives : Primitives Byte :=
  ⟨fun _ _ _ => true, fun m => ByteArr.fill (m.headD 0), fun r _ => some [r]⟩

/-- The six validators. -/
def validators : List ValidatorData :=
  [1, 2, 3, 4, 5, 6].map (fun k => ⟨ByteArr.fill k, ByteArr.fill k⟩)

/-- A state of epoch 1 without past judgements and with a report on core 0. -/
def state : State Byte := ⟨⟨[], [], [], []⟩, [some ⟨7, 100⟩, none], 12, validators, validators⟩

/-- A verdict of the current epoch on report 7 with the given votes. -/
def verdict (votes : List Bool) : Verdict :=
  ⟨ByteArr.fill 7, 1, votes.zipIdx.map (fun e => ⟨e.1, UInt16.ofNat e.2, ByteArr.fill 0⟩)⟩

/-- A culprit for report 7. -/
def culprit (k : Byte) : Culprit := ⟨ByteArr.fill 7, ByteArr.fill k, ByteArr.fill 0⟩

/-- A fault that votes against report 7. -/
def fault (k : Byte) : Fault := ⟨ByteArr.fill 7, false, ByteArr.fill k, ByteArr.fill 0⟩

end Scenario

end CppJam.Disputes
