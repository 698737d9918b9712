import CppJam.Checks
import CppJam.Containers.Grouping
import CppJam.Containers.KeyedSet
import CppJam.Disputes.MultimapGroups
import CppJam.Disputes.State

/-!
# The disputes transition

The stages of `disputes::transition` in source order: three validating loops
over verdicts, culprits and faults that fill the registries, the tally of the
registered judgements, the second test of the culprits, the analysis of
verdicts, culprits and faults that extends the four sets, and the clearing of
cores. A failed test ends the transition with its error code.
-/

namespace CppJam.Disputes

open Bytes Checks Containers

variable {Report : Type}

/-- `std::set` of hashes or keys, which are their own keys. -/
abbrev OrderedSet := KeyedSet (id : ByteArr 32 → ByteArr 32)

/-- `asSet`. -/
def asSet (l : List (ByteArr 32)) : OrderedSet := KeyedSet.ofRange l

/-- `asVec`. -/
def asVec (s : OrderedSet) : List (ByteArr 32) := s.items

/-- `kJamValid`: message of a judgement that a report is valid. -/
def kJamValid : ByteArr 9 := ⟨['j', 'a', 'm', '_', 'v', 'a', 'l', 'i', 'd'].map Char.toUInt8, rfl⟩

/-- `kJamInvalid`: message of a judgement that a report is invalid. -/
def kJamInvalid : ByteArr 11 :=
  ⟨['j', 'a', 'm', '_', 'i', 'n', 'v', 'a', 'l', 'i', 'd'].map Char.toUInt8, rfl⟩

/-- `kJamGuarantee`: message of a guarantee. -/
def kJamGuarantee : ByteArr 13 :=
  ⟨['j', 'a', 'm', '_', 'g', 'u', 'a', 'r', 'a', 'n', 't', 'e', 'e'].map Char.toUInt8, rfl⟩

/-- The message that a judgement with the given vote signs. -/
def judgementMessage (vote : Bool) : List Byte :=
  if vote then kJamValid.bytes else kJamInvalid.bytes

/-- `ed25519_verify`: the signed payload is the message followed by the hash. -/
def ed25519Verify (p : Primitives Report) (sig : Ed25519Signature) (pub : Ed25519Public)
    (message : List Byte) (workReport : WorkReportHash) : Bool :=
  p.verify sig (message ++ workReport.bytes) pub

/-- `current_epoch`. -/
def currentEpoch (config : Config) (s : State Report) : ℕ :=
  s.tau.toNat / config.epochLength.toNat

/-- `previous_epoch`, which at epoch 0 is epoch 0 itself. -/
def previousEpoch (config : Config) (s : State Report) : ℕ :=
  if currentEpoch config s ≠ 0 then currentEpoch config s - 1 else 0

/-- The validator set that a verdict's age selects. -/
def validatorsSet (config : Config) (s : State Report) (age : UInt32) : List ValidatorData :=
  if age.toNat = currentEpoch config s then s.kappa else s.lambda

/-- The report is in one of the three sets of past judgements. -/
def Judged (s : State Report) (workReport : WorkReportHash) : Prop :=
  workReport ∈ s.psi.good ∨ workReport ∈ s.psi.bad ∨ workReport ∈ s.psi.wonky

instance (s : State Report) (workReport : WorkReportHash) : Decidable (Judged s workReport) :=
  inferInstanceAs (Decidable (_ ∨ _ ∨ _))

/-- Some validator of the current epoch has the key. -/
def IsCurrentValidator (s : State Report) (key : Ed25519Public) : Prop :=
  ∃ v ∈ s.kappa, v.ed25519 = key

instance (s : State Report) (key : Ed25519Public) : Decidable (IsCurrentValidator s key) :=
  inferInstanceAs (Decidable (∃ v ∈ s.kappa, _))

/-- Check one judgement of a verdict. The loop variable is
`prev_validator_index`. -/
def checkJudgement (p : Primitives Report) (validators : List ValidatorData)
    (workReport : WorkReportHash) (loop : Option ℕ × Unit) (judgement : Judgement) :
    Except ErrorCode (Option ℕ × Unit) := do
  failIf (OptionalGe loop.1 judgement.index.toNat) .judgementsNotSortedUnique
  match validators[judgement.index.toNat]? with
  | none => .error .badValidatorIndex
  | some validator =>
    failIf (¬ed25519Verify p judgement.signature validator.ed25519
      (judgementMessage judgement.vote) workReport) .badSignature
    return (some judgement.index.toNat, ())

/-- Check one verdict and register its judgements unless the report was judged
before. The loop variables are `prev_work_report` and `judgements_registry`. -/
def checkVerdict (p : Primitives Report) (config : Config) (s : State Report)
    (loop : Option WorkReportHash × List (WorkReportHash × Judgement)) (verdict : Verdict) :
    Except ErrorCode (Option WorkReportHash × List (WorkReportHash × Judgement)) := do
  failIf (verdict.age.toNat ≠ currentEpoch config s ∧
    verdict.age.toNat ≠ previousEpoch config s) .badJudgementAge
  failIf (OptionalGe loop.1 verdict.target) .verdictsNotSortedUnique
  failIf (verdict.votes.length < config.validatorsSuperMajority.toNat) .notEnoughCulprits
  let _ ← verdict.votes.foldlM
    (checkJudgement p (validatorsSet config s verdict.age) verdict.target) (none, ())
  return (some verdict.target,
    if Judged s verdict.target then loop.2
    else loop.2 ++ verdict.votes.map (fun judgement => (verdict.target, judgement)))

/-- Check all verdicts; the result is `judgements_registry` as filled. -/
def checkVerdicts (p : Primitives Report) (config : Config) (s : State Report)
    (verdicts : List Verdict) : Except ErrorCode (List (WorkReportHash × Judgement)) := do
  let loop ← verdicts.foldlM (checkVerdict p config s) (none, [])
  return loop.2

/-- Check one culprit and register it. The loop variables are
`prev_validator_key` and `culprits_registry`. -/
def checkCulprit (p : Primitives Report) (s : State Report)
    (loop : Option Ed25519Public × Multimap WorkReportHash Culprit) (culprit : Culprit) :
    Except ErrorCode (Option Ed25519Public × Multimap WorkReportHash Culprit) := do
  failIf (¬ed25519Verify p culprit.signature culprit.key kJamGuarantee.bytes culprit.target)
    .badSignature
  failIf (culprit.target ∈ s.psi.bad) .alreadyJudged
  failIf (¬IsCurrentValidator s culprit.key) .badValidatorIndex
  failIf (OptionalGe loop.1 culprit.key) .culpritsNotSortedUnique
  failIf (culprit.key ∈ s.psi.offenders) .offenderAlreadyReported
  return (some culprit.key, loop.2.emplace culprit.target culprit)

/-- Check all culprits; the result is `culprits_registry`. -/
def checkCulprits (p : Primitives Report) (s : State Report) (culprits : List Culprit) :
    Except ErrorCode (Multimap WorkReportHash Culprit) := do
  let loop ← culprits.foldlM (checkCulprit p s) (none, Multimap.empty)
  return loop.2

/-- Check one fault and register it. The loop variables are
`prev_validator_key` and `faults_registry`. -/
def checkFault (p : Primitives Report) (s : State Report)
    (loop : Option Ed25519Public × Multimap WorkReportHash Fault) (fault : Fault) :
    Except ErrorCode (Option Ed25519Public × Multimap WorkReportHash Fault) := do
  failIf (fault.target ∈ s.psi.wonky) .alreadyJudged
  failIf ((fault.vote = false ∧ fault.target ∈ s.psi.bad) ∨
    (fault.vote = true ∧ fault.target ∈ s.psi.good)) .faultVerdictWrong
  failIf (¬IsCurrentValidator s fault.key) .badValidatorIndex
  failIf (¬ed25519Verify p fault.signature fault.key (judgementMessage fault.vote) fault.target)
    .badSignature
  failIf (OptionalGe loop.1 fault.key) .faultsNotSortedUnique
  failIf (fault.key ∈ s.psi.offenders) .offenderAlreadyReported
  return (some fault.key, loop.2.emplace fault.target fault)

/-- Check all faults; the result is `faults_registry`. -/
def checkFaults (p : Primitives Report) (s : State Report) (faults : List Fault) :
    Except ErrorCode (Multimap WorkReportHash Fault) := do
  let loop ← faults.foldlM (checkFault p s) (none, Multimap.empty)
  return loop.2

/-- Count one judgement in a `(voted_for, voted_against)` pair of 16-bit
counters. -/
def countVote (counts : UInt16 × UInt16) (judgement : Judgement) : UInt16 × UInt16 :=
  if judgement.vote then (counts.1 + 1, counts.2) else (counts.1, counts.2 + 1)

/-- `vote_count_by_judgements`, filled in the enumeration order of the registry. -/
def voteCountByJudgements (order : HashOrder) (registry : List (WorkReportHash × Judgement)) :
    AList (fun _ : WorkReportHash => UInt16 × UInt16) :=
  groupFold countVote (0, 0) (order.judgements registry)

/-- Check one report of the culprits once more, for orphan and non-bad culprits. -/
def checkCulpritVerdict (votes : AList (fun _ : WorkReportHash => UInt16 × UInt16))
    (_ : Unit) (workReport : WorkReportHash) : Except ErrorCode Unit :=
  match votes.lookup workReport with
  | none => .error .culpritsVerdictNotBad
  | some counts => failIf (counts.2 = 0) .culpritsVerdictNotBad

/-- `enum Verdict`: the outcome of a tally. -/
inductive VerdictKind where
  | bad
  | good
  | wonky
  deriving DecidableEq

/-- Classify a tally, comparing the 16-bit counters with the 32-bit
`validators_super_majority`. -/
def classify (config : Config) (counts : UInt16 × UInt16) : Except ErrorCode VerdictKind :=
  if counts.2.toNat = config.validatorsSuperMajority.toNat then .ok .bad
  else if counts.1.toNat = config.validatorsSuperMajority.toNat then .ok .good
  else if counts.1.toNat = config.validatorsSuperMajority.toNat / 2 ∧ counts.2 ≠ 0 then .ok .wonky
  else .error .badVoteSplit

/-- Analyse one tally: a bad report needs two culprits, a good one a fault and
no culprit, and a wonky one goes to the new wonky set. -/
def analyseVerdict (config : Config) (culprits : Multimap WorkReportHash Culprit)
    (faults : Multimap WorkReportHash Fault) (newWonkySet : OrderedSet)
    (entry : Σ _ : WorkReportHash, UInt16 × UInt16) : Except ErrorCode OrderedSet := do
  match ← classify config entry.2 with
  | .bad =>
    failIf (culprits.count entry.1 < 2) .notEnoughCulprits
    return newWonkySet
  | .good =>
    failIf (culprits.count entry.1 ≠ 0) .culpritsVerdictNotBad
    failIf (faults.count entry.1 < 1) .notEnoughFaults
    return newWonkySet
  | .wonky => return newWonkySet.emplace entry.1

/-- `offenders_mark` and `new_punish_set`. -/
structure Offences where
  /-- Keys in the order they are reported. -/
  offendersMark : List Ed25519Public
  /-- The punished keys. -/
  newPunishSet : OrderedSet

/-- Report one key. -/
def Offences.report (o : Offences) (key : Ed25519Public) : Offences :=
  ⟨o.offendersMark ++ [key], o.newPunishSet.emplace key⟩

/-- Analyse the culprits of one report. -/
def analyseCulprits (st : Offences × OrderedSet) (group : WorkReportHash × List Culprit) :
    Offences × OrderedSet :=
  (group.2.foldl (fun o culprit => o.report culprit.key) st.1, st.2.emplace group.1)

/-- Analyse one fault. -/
def analyseFault (o : Offences) (fault : Fault) : Except ErrorCode Offences := do
  failIf (fault.vote = true) .faultVerdictWrong
  return o.report fault.key

/-- Analyse the faults of one report. -/
def analyseFaults (st : Offences × OrderedSet) (group : WorkReportHash × List Fault) :
    Except ErrorCode (Offences × OrderedSet) := do
  let o ← group.2.foldlM analyseFault st.1
  return (o, st.2.emplace group.1)

/-- The four new sets and the mark. -/
structure Judgment where
  newGoodSet : OrderedSet
  newBadSet : OrderedSet
  newWonkySet : OrderedSet
  offences : Offences

/-- All stages of the transition up to the clearing of cores. -/
def judge (p : Primitives Report) (order : HashOrder) (config : Config) (s : State Report)
    (ext : DisputesExtrinsic) : Except ErrorCode Judgment := do
  let registry ← checkVerdicts p config s ext.verdicts
  let culprits ← checkCulprits p s ext.culprits
  let faults ← checkFaults p s ext.faults
  let votes := voteCountByJudgements order registry
  culprits.keys.foldlM (checkCulpritVerdict votes) ()
  let newWonkySet ← (order.votes votes.entries).foldlM (analyseVerdict config culprits faults)
    (asSet s.psi.wonky)
  let afterCulprits := (MultimapGroups.groups culprits).foldl analyseCulprits
    (⟨[], asSet s.psi.offenders⟩, asSet s.psi.bad)
  let afterFaults ← (MultimapGroups.groups faults).foldlM analyseFaults
    (afterCulprits.1, asSet s.psi.good)
  return ⟨afterFaults.2, afterCulprits.2, newWonkySet, afterFaults.1⟩

/-- Clear one core whose report is in the new bad or wonky set. Hashing the
report fails when it cannot be encoded. -/
def clearRow (p : Primitives Report) (config : Config) (j : Judgment)
    (row : Option (AvailabilityAssignment Report)) :
    Except Abort (Option (AvailabilityAssignment Report)) :=
  match row with
  | none => .ok none
  | some assignment =>
    match p.encodeWithConfig assignment.report config with
    | none => .error .badResultAccess
    | some encoded =>
      let workReport := p.mathcalH encoded
      if workReport ∈ j.newBadSet ∨ workReport ∈ j.newWonkySet then .ok none else .ok row

/-- The state after an accepted extrinsic whose cores are `rho`. -/
def stateTick (s : State Report) (j : Judgment)
    (rho : List (Option (AvailabilityAssignment Report))) : State Report :=
  { s with
    psi := ⟨asVec j.newGoodSet, asVec j.newBadSet, asVec j.newWonkySet,
      asVec j.offences.newPunishSet⟩
    rho := rho }

/-- The body of `disputes::transition`. Dividing by an epoch length of zero is
undefined. -/
def transitionBody (p : Primitives Report) (order : HashOrder) (config : Config)
    (s : State Report) (input : Input) :
    Except (Exit ErrorCode) (State Report × OutputData) := do
  failIf (config.epochLength.toNat = 0) (.abort .undefinedBehaviour)
  let j ← (judge p order config s input.disputes).mapError .reject
  let rho ← (s.rho.mapM (clearRow p config j)).mapError .abort
  return (stateTick s j rho, ⟨j.offences.offendersMark⟩)

/-- `disputes::transition`. -/
def transition (p : Primitives Report) (order : HashOrder) (config : Config) (s : State Report)
    (input : Input) : Except Abort (State Report × Output ErrorCode OutputData) :=
  settle s (transitionBody p order config s input)

end CppJam.Disputes
