import CppJam.Safrole.Transition

/-!
# What an accepted block does

`Advance` says everything about a block that the transition accepts: the tests it
passes and every field of the next state and of the output. The two cases, a
block inside an epoch and the first block of an epoch, follow from it.
-/

namespace CppJam.Safrole

open Bytes Checks Containers

variable {crypto : Primitives} {config : Config} {s s' : State} {input : Input} {out : OutputData}

/-- The epoch of a slot. -/
def epochOf (config : Config) (slot : UInt32) : ℕ := (Epoch.ofSlot config slot).epoch

/-- The phase of a slot. -/
def phaseOf (config : Config) (slot : UInt32) : ℕ := (Epoch.ofSlot config slot).phase

/-- The ticket body that an envelope carries when its proof verifies. -/
def ticketBody (crypto : Primitives) (config : Config) (gammaZ : RingCommitment)
    (eta2 : OpaqueHash) (envelope : TicketEnvelope) : Option TicketBody :=
  (bandersnatch crypto config gammaZ (ticketMessage eta2 envelope.attempt)
    envelope.signature).map (fun id => ⟨id, envelope.attempt⟩)

/-- The tests that an accepted block passes and the fields that it leads to. -/
structure Advance (crypto : Primitives) (config : Config) (s : State) (input : Input)
    (s' : State) (out : OutputData) : Prop where
  slot_gt : s.tau.toNat < input.slot.toNat
  epochLength_ne : config.epochLength.toNat ≠ 0
  extrinsic_length : input.extrinsic.length ≤ K
  extrinsic_early : Y config ≤ phaseOf config input.slot → input.extrinsic = []
  tau : s'.tau = input.slot
  keys : rotateKeys crypto config s input = .ok ⟨s'.gammaK, s'.kappa, s'.lambda, s'.gammaZ⟩
  eta : s'.eta = rotateEntropy crypto config s input
  iota : s'.iota = s.iota
  postOffenders : s'.postOffenders = s.postOffenders
  tickets : ∃ loop, input.extrinsic.foldlM (acceptTicket crypto config s.gammaZ s'.eta.eta2)
    (none, startTickets config s input) = .ok loop ∧ s'.gammaA = loop.2.items
  gammaS : sealingKeys crypto config s input s'.eta.eta2 s'.kappa = .ok s'.gammaS
  epochMark : out.epochMark = epochMark config s input s'.eta s'.gammaK
  ticketsMark : ticketsMark crypto config s input = .ok out.ticketsMark

/-- The transition accepts a block exactly when it advances the state. -/
theorem transition_eq_ok_iff :
    transition crypto config s input = .ok (s', .ok out) ↔
      Advance crypto config s input s' out := by
  simp only [transition, transitionBody, settle_eq_ok, bind_eq_ok, failIf_eq_ok, mapError_eq_ok,
    pure_eq_ok]
  constructor
  · rintro ⟨_, hslot, _, hlength, _, hsize, _, hearly, keys, hkeys, loop, hloop, gammaS, hgammaS,
      mark, hmark, hout⟩
    cases hout
    refine ⟨by simpa [UInt32.le_iff_toNat_le] using hslot, hlength, not_lt.mp hsize, ?_, rfl, hkeys,
      rfl, rfl, rfl, ⟨loop, hloop, rfl⟩, hgammaS, rfl, hmark⟩
    intro hphase
    by_contra hne
    exact hearly ⟨hphase, hne⟩
  · intro h
    obtain ⟨loop, hloop, hgammaA⟩ := h.tickets
    rw [h.eta] at hloop
    have hslot : ¬input.slot ≤ s.tau := by
      have hgt := h.slot_gt
      simp only [UInt32.le_iff_toNat_le]
      omega
    refine ⟨(), hslot, (), h.epochLength_ne, (), not_lt.mpr h.extrinsic_length, (), ?_, _, h.keys,
      loop, hloop, s'.gammaS, ?_, out.ticketsMark, h.ticketsMark, ?_⟩
    · rintro ⟨hphase, hne⟩
      exact hne (h.extrinsic_early hphase)
    · rw [← h.eta]
      exact h.gammaS
    · rw [← h.eta, ← h.tau, ← h.iota, ← h.postOffenders, ← hgammaA, ← h.epochMark]

/-- A ticket is accepted when its proof verifies, its entry index is allowed, the
accumulator does not hold it yet and its identifier is not below the previous one;
it is then inserted. -/
theorem acceptTicket_eq_ok {gammaZ : RingCommitment} {eta2 : OpaqueHash}
    {loop loop' : Option TicketBody × TicketSet} {envelope : TicketEnvelope} :
    acceptTicket crypto config gammaZ eta2 loop envelope = .ok loop' ↔
      ∃ ticket, ticketBody crypto config gammaZ eta2 envelope = some ticket ∧
        envelope.attempt.toNat < config.ticketsPerValidator.toNat ∧ ticket ∉ loop.2 ∧
        (∀ prev ∈ loop.1, prev.id ≤ ticket.id) ∧
        (some ticket, insertTicket config loop.2 ticket) = loop' := by
  unfold acceptTicket ticketBody
  cases bandersnatch crypto config gammaZ (ticketMessage eta2 envelope.attempt)
      envelope.signature with
  | none => simp
  | some ticketId => simp

/-- Within an epoch the keys, the entropy history and the sealing keys stay. -/
theorem Advance.within_epoch (h : Advance crypto config s input s' out)
    (hstay : ¬ChangeEpoch config s input) :
    s'.gammaK = s.gammaK ∧ s'.kappa = s.kappa ∧ s'.gammaZ = s.gammaZ ∧
      s'.eta.eta1 = s.eta.eta1 ∧ s'.eta.eta2 = s.eta.eta2 := by
  have hkeys := h.keys
  simp only [rotateKeys, if_neg hstay, Except.ok.injEq, RotatedKeys.mk.injEq] at hkeys
  obtain ⟨hgammaK, hkappa, _, hgammaZ⟩ := hkeys
  refine ⟨hgammaK.symm, hkappa.symm, hgammaZ.symm, ?_, ?_⟩ <;>
    simp only [h.eta, rotateEntropy, if_neg hstay]

/-- The first block of an epoch rotates the keys and the entropy and says so in its
epoch mark. -/
theorem Advance.new_epoch (h : Advance crypto config s input s' out)
    (hchange : ChangeEpoch config s input) :
    s'.gammaK = phi s.postOffenders s.iota ∧ s'.kappa = s.gammaK ∧
      mathcalO crypto config (bandersnatchKeys (phi s.postOffenders s.iota)) = .ok s'.gammaZ ∧
      s'.eta.eta1 = s.eta.eta0 ∧ s'.eta.eta2 = s.eta.eta1 ∧
      out.epochMark = some ⟨s'.eta.eta1, s'.eta.eta2, bandersnatchKeys s'.gammaK⟩ := by
  have hkeys := h.keys
  simp only [rotateKeys, if_pos hchange, bind_eq_ok, pure_eq_ok, RotatedKeys.mk.injEq] at hkeys
  obtain ⟨gammaZ, hcommitment, hgammaK, hkappa, _, rfl⟩ := hkeys
  refine ⟨hgammaK.symm, hkappa.symm, hcommitment, ?_, ?_, ?_⟩
  · simp only [h.eta, rotateEntropy, if_pos hchange]
  · simp only [h.eta, rotateEntropy, if_pos hchange]
  · rw [h.epochMark, Safrole.epochMark, if_pos hchange]

/-- Every ticket proof of an accepted block verifies, and the accumulator is built by
inserting the tickets in order. -/
theorem Advance.gammaA_eq (h : Advance crypto config s input s' out) :
    (∀ envelope ∈ input.extrinsic,
      ∃ ticket, ticketBody crypto config s.gammaZ s'.eta.eta2 envelope = some ticket) ∧
    s'.gammaA = ((input.extrinsic.filterMap
      (ticketBody crypto config s.gammaZ s'.eta.eta2)).foldl (insertTicket config)
        (startTickets config s input)).items := by
  obtain ⟨loop, hloop, hgammaA⟩ := h.tickets
  have hbody : ∀ r envelope r',
      acceptTicket crypto config s.gammaZ s'.eta.eta2 r envelope = .ok r' →
      ∃ ticket, ticketBody crypto config s.gammaZ s'.eta.eta2 envelope = some ticket ∧
        r'.2 = insertTicket config r.2 ticket := by
    intro r envelope r' hok
    obtain ⟨ticket, hticket, _, _, _, rfl⟩ := acceptTicket_eq_ok.mp hok
    exact ⟨ticket, hticket, rfl⟩
  obtain ⟨hall, hfold⟩ := foldlM_filterMap Prod.snd hbody hloop
  rw [hgammaA, hfold]
  exact ⟨hall, rfl⟩

end CppJam.Safrole
