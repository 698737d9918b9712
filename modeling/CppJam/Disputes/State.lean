import CppJam.Types
import Mathlib.Data.List.Perm.Basic

/-!
# State and extrinsic of the disputes transition

The records of `disputes-types.hpp`, the error codes of the transition, and what
the transition takes from elsewhere: Ed25519 verification, the encoder of work
reports with the hash of its output, and the order in which the standard
library enumerates its unordered containers.
-/

namespace CppJam.Disputes

open Bytes

/-- `Judgement`: one validator's vote on a report. -/
structure Judgement where
  /-- `true` for a valid report. -/
  vote : Bool
  /-- Position of the validator in its validator set. -/
  index : UInt16
  /-- Signature of the vote. -/
  signature : Ed25519Signature
  deriving DecidableEq

/-- `Verdict`: the judgements on one report. -/
structure Verdict where
  /-- Hash of the judged report. -/
  target : WorkReportHash
  /-- Epoch whose validator set judged. -/
  age : UInt32
  /-- The judgements. -/
  votes : List Judgement
  deriving DecidableEq

/-- `Culprit`: a guarantee of a report found invalid. -/
structure Culprit where
  /-- Hash of the guaranteed report. -/
  target : WorkReportHash
  /-- Key of the guarantor. -/
  key : Ed25519Public
  /-- Signature of the guarantee. -/
  signature : Ed25519Signature
  deriving DecidableEq

/-- `Fault`: a judgement that contradicts a report's judged validity. -/
structure Fault where
  /-- Hash of the judged report. -/
  target : WorkReportHash
  /-- The contradicting vote. -/
  vote : Bool
  /-- Key of the auditor. -/
  key : Ed25519Public
  /-- Signature of the vote. -/
  signature : Ed25519Signature
  deriving DecidableEq

/-- `DisputesExtrinsic`. -/
structure DisputesExtrinsic where
  /-- Verdicts, in report-hash order. -/
  verdicts : List Verdict
  /-- Culprits, in key order. -/
  culprits : List Culprit
  /-- Faults, in key order. -/
  faults : List Fault
  deriving DecidableEq

/-- `DisputesRecords`: the judged reports and the punished keys. -/
structure DisputesRecords where
  /-- Reports judged valid. -/
  good : List WorkReportHash
  /-- Reports judged invalid. -/
  bad : List WorkReportHash
  /-- Reports that could not be judged. -/
  wonky : List WorkReportHash
  /-- Keys of validators found to have misjudged or misguaranteed. -/
  offenders : List Ed25519Public
  deriving DecidableEq

/-- `AvailabilityAssignment`: a report on a core. The report itself is only
passed to the encoder. -/
structure AvailabilityAssignment (Report : Type) where
  /-- The work report. -/
  report : Report
  /-- Timeslot at which the report times out. -/
  timeout : UInt32
  deriving DecidableEq

/-- `State` of the disputes transition. -/
structure State (Report : Type) where
  /-- Records of past disputes. -/
  psi : DisputesRecords
  /-- The report assigned to each core. -/
  rho : List (Option (AvailabilityAssignment Report))
  /-- Most recent timeslot. -/
  tau : UInt32
  /-- Validators of the current epoch. -/
  kappa : List ValidatorData
  /-- Validators of the previous epoch. -/
  lambda : List ValidatorData
  deriving DecidableEq

/-- `Input` of the disputes transition. -/
structure Input where
  /-- The disputes extrinsic. -/
  disputes : DisputesExtrinsic
  deriving DecidableEq

/-- `OutputData` of the disputes transition. -/
structure OutputData where
  /-- Keys of the new offenders. -/
  offendersMark : List Ed25519Public
  deriving DecidableEq

/-- `ErrorCode` of the disputes transition. -/
inductive ErrorCode where
  | alreadyJudged
  | badVoteSplit
  | verdictsNotSortedUnique
  | judgementsNotSortedUnique
  | culpritsNotSortedUnique
  | faultsNotSortedUnique
  | notEnoughCulprits
  | notEnoughFaults
  | culpritsVerdictNotBad
  | faultVerdictWrong
  | offenderAlreadyReported
  | badJudgementAge
  | badValidatorIndex
  | badSignature
  deriving DecidableEq

/-- What the transition calls and this repository does not implement. -/
structure Primitives (Report : Type) where
  /-- `crypto::ed25519::verify(signature, message, key)`. -/
  verify : Ed25519Signature → List Byte → Ed25519Public → Bool
  /-- `mathcal_H`, the Blake2b hash. -/
  mathcalH : List Byte → OpaqueHash
  /-- `encode_with_config`; `none` when the encoder fails. -/
  encodeWithConfig : Report → Config → Option (List Byte)

/-- An enumeration order for the two unordered containers of the transition: a
permutation of the inserted elements, chosen by hash function and library. -/
structure HashOrder where
  /-- Enumeration of `judgements_registry` after inserting the given entries. -/
  judgements : List (WorkReportHash × Judgement) → List (WorkReportHash × Judgement)
  /-- Every judgement is enumerated once. -/
  judgements_perm : ∀ l, (judgements l).Perm l
  /-- Enumeration of `vote_count_by_judgements` with the given entries. -/
  votes : List (Σ _ : WorkReportHash, UInt16 × UInt16) →
    List (Σ _ : WorkReportHash, UInt16 × UInt16)
  /-- Every tally is enumerated once. -/
  votes_perm : ∀ l, (votes l).Perm l

/-- Enumeration in insertion order. -/
def HashOrder.insertion : HashOrder :=
  ⟨id, fun _ => List.Perm.refl _, id, fun _ => List.Perm.refl _⟩

end CppJam.Disputes
