import CppJam.Common
import CppJam.Containers.Smallest

/-!
# Data of the block production protocol

State, input and output of `safrole::transition`. A ticket carries an identifier
that its ring proof implies and an attempt number; the accumulator keeps tickets
by identifier. The ring signature scheme and the hash are parameters.
-/

namespace CppJam.Safrole

open Bytes Containers

/-- `RingCommitment`, the type of `gamma_z`. -/
abbrev RingCommitment := ByteArr 144

/-- `RingSignature`, the type of a ticket's proof. -/
abbrev RingSignature := ByteArr 784

/-- `BandersnatchKeys`. -/
abbrev BandersnatchKeys := List BandersnatchPublic

/-- `ValidatorsData`. -/
abbrev ValidatorsData := List ValidatorData

/-- `TicketBody`. -/
structure TicketBody where
  /-- Identifier of the ticket. -/
  id : OpaqueHash
  /-- Entry index of the validator's ticket. -/
  attempt : UInt8
  deriving DecidableEq

/-- `TicketEnvelope`: an entry index with a proof of ticket validity. -/
structure TicketEnvelope where
  /-- Entry index. -/
  attempt : UInt8
  /-- Ring proof. -/
  signature : RingSignature
  deriving DecidableEq

/-- `TicketsOrKeys`: the sealing-key series. -/
inductive TicketsOrKeys where
  /-- A series of tickets. -/
  | tickets (tickets : List TicketBody)
  /-- A fallback series of keys. -/
  | keys (keys : List BandersnatchPublic)
  deriving DecidableEq

/-- The entropy buffer `eta`. -/
structure Entropy where
  /-- The randomness accumulator. -/
  eta0 : OpaqueHash
  /-- The accumulator at the end of the last epoch. -/
  eta1 : OpaqueHash
  /-- The accumulator at the end of the epoch before. -/
  eta2 : OpaqueHash
  /-- The accumulator at the end of the epoch before that. -/
  eta3 : OpaqueHash
  deriving DecidableEq

/-- `State`. -/
structure State where
  /-- Most recent block's timeslot. -/
  tau : UInt32
  /-- Entropy buffer. -/
  eta : Entropy
  /-- Validators of the previous epoch. -/
  lambda : ValidatorsData
  /-- Validators of the current epoch. -/
  kappa : ValidatorsData
  /-- Validators of the next epoch. -/
  gammaK : ValidatorsData
  /-- Scheduled validators. -/
  iota : ValidatorsData
  /-- Ticket accumulator of the sealing-key contest. -/
  gammaA : List TicketBody
  /-- Sealing-key series of the current epoch. -/
  gammaS : TicketsOrKeys
  /-- Ring commitment. -/
  gammaZ : RingCommitment
  /-- Offenders. -/
  postOffenders : List Ed25519Public
  deriving DecidableEq

/-- `Input`. -/
structure Input where
  /-- Timeslot of the block. -/
  slot : UInt32
  /-- Entropy of the block. -/
  entropy : OpaqueHash
  /-- Tickets extrinsic. -/
  extrinsic : List TicketEnvelope
  deriving DecidableEq

/-- `EpochMark`. -/
structure EpochMark where
  /-- Randomness of the next epoch. -/
  entropy : OpaqueHash
  /-- Randomness of the current epoch's tickets. -/
  ticketsEntropy : OpaqueHash
  /-- Keys of the next epoch's validators. -/
  validators : BandersnatchKeys
  deriving DecidableEq

/-- `OutputData`. -/
structure OutputData where
  /-- Present in the first block of an epoch. -/
  epochMark : Option EpochMark
  /-- The winning tickets. -/
  ticketsMark : Option (List TicketBody)
  deriving DecidableEq

/-- `ErrorCode`: the codes that the transition returns. -/
inductive ErrorCode where
  | badSlot
  | unexpectedTicket
  | badTicketOrder
  | badTicketProof
  | badTicketAttempt
  | duplicateTicket
  deriving DecidableEq

/-- What the transition takes from the crypto libraries and the generated types. -/
structure Primitives where
  /-- `mathcal_H`. -/
  mathcalH : List Byte → OpaqueHash
  /-- `jam_bandersnatch_ring_commitment` for a ring of the given size. -/
  ringCommitment : UInt32 → BandersnatchKeys → RingCommitment
  /-- `jam_bandersnatch_ring_verifier_verify` for a ring of the given size. -/
  ringVerify : UInt32 → RingCommitment → List Byte → RingSignature → Option OpaqueHash
  /-- `TicketsBodies::configSize`. -/
  ticketsConfigSize : Config → ℕ

/-- `std::set<TicketBody, TicketBodyLess>`. -/
abbrev TicketSet := KeyedSet TicketBody.id

end CppJam.Safrole
