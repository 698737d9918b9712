import CppJam.Checks
import CppJam.Safrole.State

/-!
# The block production transition

The stages of `safrole::transition` in source order: the slot and extrinsic
tests, the rotation of validator keys and entropy at an epoch change, the loop
over the tickets, the sealing-key series and the two marks. Slots, epochs and
phases are 32-bit numbers.
-/

namespace CppJam.Safrole

open Bytes Checks Containers

/-- `X_T`: the context of ticket proofs. -/
def xT : ByteArr 15 :=
  ⟨['j', 'a', 'm', '_', 't', 'i', 'c', 'k', 'e', 't', '_', 's', 'e', 'a', 'l'].map
    Char.toUInt8, rfl⟩

/-- `K`: the greatest number of tickets in one extrinsic. -/
def K : ℕ := 16

/-- `Y`: the number of slots into an epoch at which ticket submission ends. The
product is taken in 32 bits. -/
def Y (config : Config) : ℕ := config.epochLength.toNat * 5 % 2 ^ 32 / 6

/-- `bandersnatch_keys`. -/
def bandersnatchKeys (validators : ValidatorsData) : BandersnatchKeys :=
  validators.map ValidatorData.bandersnatch

/-- `Ring::commitment`, empty unless there is a key for every member. Taking the
address of the first key of an empty ring is undefined. -/
def ringCommitment (crypto : Primitives) (count : UInt32) (pks : BandersnatchKeys) :
    Except Abort (Option RingCommitment) :=
  if pks.length ≠ count.toNat then .ok none
  else if pks = [] then .error .undefinedBehaviour
  else .ok (some (crypto.ringCommitment count pks))

/-- `mathcal_O`. -/
def mathcalO (crypto : Primitives) (config : Config) (pks : BandersnatchKeys) :
    Except Abort RingCommitment := do
  match ← ringCommitment crypto config.validatorsCount pks with
  | some commitment => return commitment
  | none => .error .badOptionalAccess

/-- `bandersnatch`: the identifier that a ring proof implies. -/
def bandersnatch (crypto : Primitives) (config : Config) (gammaZ : RingCommitment)
    (input : List Byte) (signature : RingSignature) : Option OpaqueHash :=
  crypto.ringVerify config.validatorsCount gammaZ input signature

/-- `Epoch`. -/
structure Epoch where
  /-- Index of the epoch. -/
  epoch : ℕ
  /-- Slot within the epoch. -/
  phase : ℕ

/-- The epoch and the phase of a slot. -/
def Epoch.ofSlot (config : Config) (slot : UInt32) : Epoch :=
  ⟨slot.toNat / config.epochLength.toNat, slot.toNat % config.epochLength.toNat⟩

/-- `change_epoch`. -/
def ChangeEpoch (config : Config) (s : State) (input : Input) : Prop :=
  (Epoch.ofSlot config input.slot).epoch ≠ (Epoch.ofSlot config s.tau).epoch

instance (config : Config) (s : State) (input : Input) : Decidable (ChangeEpoch config s input) :=
  inferInstanceAs (Decidable (_ ≠ _))

/-- `phi`: the keys of offenders are replaced by zeros. -/
def phi (postOffenders : List Ed25519Public) (k : ValidatorsData) : ValidatorsData :=
  k.map (fun validator =>
    if contains postOffenders validator.ed25519 then ValidatorData.zero else validator)

/-- `gamma_tick_k`, `kappa_tick`, `lambda_tick` and `gamma_tick_z`. -/
structure RotatedKeys where
  gammaK : ValidatorsData
  kappa : ValidatorsData
  lambda : ValidatorsData
  gammaZ : RingCommitment

/-- Rotate the validator keys at an epoch change. -/
def rotateKeys (crypto : Primitives) (config : Config) (s : State) (input : Input) :
    Except Abort RotatedKeys :=
  if ChangeEpoch config s input then do
    let gammaZ ← mathcalO crypto config (bandersnatchKeys (phi s.postOffenders s.iota))
    return ⟨phi s.postOffenders s.iota, s.gammaK, s.kappa, gammaZ⟩
  else .ok ⟨s.gammaK, s.kappa, s.lambda, s.gammaZ⟩

/-- Mix the block's entropy in, and rotate the history at an epoch change. -/
def rotateEntropy (crypto : Primitives) (config : Config) (s : State) (input : Input) : Entropy :=
  let etaTick0 := crypto.mathcalH (frown s.eta.eta0 input.entropy).bytes
  if ChangeEpoch config s input then ⟨etaTick0, s.eta.eta0, s.eta.eta1, s.eta.eta2⟩
  else ⟨etaTick0, s.eta.eta1, s.eta.eta2, s.eta.eta3⟩

/-- The message that a ticket proof signs. -/
def ticketMessage (eta2 : OpaqueHash) (attempt : UInt8) : List Byte :=
  (frown xT (doubleplus eta2 attempt)).bytes

/-- `gamma_tick_a` before the tickets: the accumulator restarts in a new epoch. -/
def startTickets (config : Config) (s : State) (input : Input) : TicketSet :=
  if ChangeEpoch config s input then KeyedSet.empty else KeyedSet.ofRange s.gammaA

/-- Insert a ticket and drop the greatest one beyond the epoch length. -/
def insertTicket (config : Config) (tickets : TicketSet) (ticket : TicketBody) : TicketSet :=
  tickets.emplaceBounded config.epochLength.toNat ticket

/-- Check one ticket and insert it. The loop variables are `prev_ticket` and
`gamma_tick_a`. -/
def acceptTicket (crypto : Primitives) (config : Config) (gammaZ : RingCommitment)
    (eta2 : OpaqueHash) (loop : Option TicketBody × TicketSet) (envelope : TicketEnvelope) :
    Except ErrorCode (Option TicketBody × TicketSet) :=
  match bandersnatch crypto config gammaZ (ticketMessage eta2 envelope.attempt)
      envelope.signature with
  | none => .error .badTicketProof
  | some ticketId => do
    let ticket : TicketBody := ⟨ticketId, envelope.attempt⟩
    failIf (config.ticketsPerValidator.toNat ≤ envelope.attempt.toNat) .badTicketAttempt
    failIf (contains loop.2.items ticket) .duplicateTicket
    failIf (∃ prev ∈ loop.1, ticket.id < prev.id) .badTicketOrder
    return (some ticket, insertTicket config loop.2 ticket)

/-- The loop variables of `Z`. -/
structure OutsideIn where
  it1 : ℕ
  it2 : ℕ
  odd : Bool
  tickets : List TicketBody

/-- One round of `Z`. Dereferencing outside the sequence and moving before its
beginning are undefined. -/
def OutsideIn.round (s : List TicketBody) (loop : OutsideIn) (_ : ℕ) : Except Abort OutsideIn :=
  match s[if loop.odd then loop.it1 else loop.it2]? with
  | none => .error .undefinedBehaviour
  | some ticket =>
    if loop.odd then .ok ⟨loop.it1 + 1, loop.it2, false, loop.tickets ++ [ticket]⟩
    else if loop.it2 = 0 then .error .undefinedBehaviour
    else .ok ⟨loop.it1, loop.it2 - 1, true, loop.tickets ++ [ticket]⟩

/-- `Z`: tickets from the outside in. -/
def Z (crypto : Primitives) (config : Config) (s : List TicketBody) :
    Except Abort (List TicketBody) := do
  failIf (s.length ≠ config.epochLength.toNat) (.logicError "Z")
  failIf (s = []) .undefinedBehaviour
  let loop ← (List.range (crypto.ticketsConfigSize config)).foldlM (OutsideIn.round s)
    ⟨0, s.length - 1, true, []⟩
  return loop.tickets

/-- One key of the fallback series. -/
def fallbackKey (crypto : Primitives) (r : OpaqueHash) (k : ValidatorsData) (i : ℕ) :
    Except Abort BandersnatchPublic := do
  let first ← firstBytes 4 (crypto.mathcalH (frown r (mathcalE 4 i)).bytes).bytes
  let validator ← circlearrowleft k (de first)
  return validator.bandersnatch

/-- `F`: the fallback key series. -/
def F (crypto : Primitives) (config : Config) (r : OpaqueHash) (k : ValidatorsData) :
    Except Abort (List BandersnatchPublic) :=
  (List.range config.epochLength.toNat).mapM (fallbackKey crypto r k)

/-- `gamma_tick_s`: tickets after a completed contest, the old series within an
epoch, and fallback keys otherwise. -/
def sealingKeys (crypto : Primitives) (config : Config) (s : State) (input : Input)
    (eta2 : OpaqueHash) (kappa : ValidatorsData) : Except Abort TicketsOrKeys :=
  if (Epoch.ofSlot config input.slot).epoch =
        ((Epoch.ofSlot config s.tau).epoch + 1) % 2 ^ 32 ∧
      Y config ≤ (Epoch.ofSlot config s.tau).phase ∧
      s.gammaA.length = config.epochLength.toNat then
    TicketsOrKeys.tickets <$> Z crypto config s.gammaA
  else if (Epoch.ofSlot config input.slot).epoch = (Epoch.ofSlot config s.tau).epoch then
    .ok s.gammaS
  else TicketsOrKeys.keys <$> F crypto config eta2 kappa

/-- `epoch_mark`. -/
def epochMark (config : Config) (s : State) (input : Input) (eta : Entropy)
    (gammaK : ValidatorsData) : Option EpochMark :=
  if ChangeEpoch config s input then some ⟨eta.eta1, eta.eta2, bandersnatchKeys gammaK⟩ else none

/-- `tickets_mark`: the winning tickets, in the first block after submission
ended. -/
def ticketsMark (crypto : Primitives) (config : Config) (s : State) (input : Input) :
    Except Abort (Option (List TicketBody)) :=
  if (Epoch.ofSlot config input.slot).epoch = (Epoch.ofSlot config s.tau).epoch ∧
      (Epoch.ofSlot config s.tau).phase < Y config ∧
      Y config ≤ (Epoch.ofSlot config input.slot).phase ∧
      s.gammaA.length = config.epochLength.toNat then
    some <$> Z crypto config s.gammaA
  else .ok none

/-- The body of `safrole::transition`. Dividing by an epoch length of zero is
undefined. -/
def transitionBody (crypto : Primitives) (config : Config) (s : State) (input : Input) :
    Except (Exit ErrorCode) (State × OutputData) := do
  failIf (input.slot ≤ s.tau) (.reject .badSlot)
  failIf (config.epochLength.toNat = 0) (.abort .undefinedBehaviour)
  failIf (K < input.extrinsic.length) (.abort (.logicError "not covered by test vectors"))
  failIf (Y config ≤ (Epoch.ofSlot config input.slot).phase ∧ input.extrinsic ≠ [])
    (.reject .unexpectedTicket)
  let keys ← (rotateKeys crypto config s input).mapError .abort
  let eta := rotateEntropy crypto config s input
  let loop ← (input.extrinsic.foldlM (acceptTicket crypto config s.gammaZ eta.eta2)
    (none, startTickets config s input)).mapError .reject
  let gammaS ← (sealingKeys crypto config s input eta.eta2 keys.kappa).mapError .abort
  let mark ← (ticketsMark crypto config s input).mapError .abort
  return (⟨input.slot, eta, keys.lambda, keys.kappa, keys.gammaK, s.iota, loop.2.items, gammaS,
    keys.gammaZ, s.postOffenders⟩, ⟨epochMark config s input eta keys.gammaK, mark⟩)

/-- `safrole::transition`. -/
def transition (crypto : Primitives) (config : Config) (s : State) (input : Input) :
    Except Abort (State × Output ErrorCode OutputData) :=
  settle s (transitionBody crypto config s input)

end CppJam.Safrole
