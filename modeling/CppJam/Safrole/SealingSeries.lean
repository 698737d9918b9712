import CppJam.Safrole.EntropyHistory
import CppJam.Safrole.EpochMark
import CppJam.Safrole.RingConsistency
import CppJam.Safrole.Sequencing
import CppJam.Safrole.ValidatorPipeline
import CppJam.Safrole.WinningTickets

/-!
# Who may seal the blocks of an epoch

A series of fallback keys can be computed again from the state alone, in every block of the epoch.
The tickets of a series were won in the epoch before. Their proofs are over the entropy that has
become `eta_3`, and in the ring of the validators that have become `kappa`, except for the tickets
of the first block of that epoch: these were checked in the ring of the validators before, which
have become `lambda`.
-/

namespace CppJam.Safrole

open Bytes Checks Containers Runs

variable {crypto : Primitives} {config : Config} {s t : State} {trace : List Block} {b : Block}

/-- The commitment to the ring of some validators. -/
def ringOf (crypto : Primitives) (config : Config) (validators : ValidatorsData) :
    RingCommitment :=
  crypto.ringCommitment config.validatorsCount (bandersnatchKeys validators)

/-- The validators in whose ring the tickets of a block are checked: those of the contest, but in
the first block of an epoch those of the contest before. -/
def Block.checkedIn (config : Config) (b : Block) (before contest : ValidatorsData) :
    ValidatorsData :=
  if b.ChangesEpoch config then before else contest

/-- The ticket came in a block of the epoch before, with an entry index that is allowed and a proof
over the present `eta_3`. -/
def Earned (crypto : Primitives) (config : Config) (trace : List Block) (t : State)
    (ticket : TicketBody) : Prop :=
  ∃ b ∈ trace, b.epoch config + 1 = epochOf config t.tau ∧ ∃ envelope ∈ b.input.extrinsic,
    envelope.attempt.toNat < config.ticketsPerValidator.toNat ∧
    ticketBody crypto config (ringOf crypto config (b.checkedIn config t.lambda t.kappa))
      t.eta.eta3 envelope = some ticket

/-- The series of the state is the fallback series of the state itself, or consists of one ticket
for each slot, which are different and all earned. -/
def SealingSeries (crypto : Primitives) (config : Config) (trace : List Block) (t : State) : Prop :=
  match t.gammaS with
  | .keys keys => F crypto config t.eta.eta2 t.kappa = .ok keys
  | .tickets tickets =>
    tickets.length = config.epochLength.toNat ∧ (tickets.map TicketBody.id).Nodup ∧
      ∀ ticket ∈ tickets, Earned crypto config trace t ticket

/-! ## Within an epoch -/

/-- A block within its epoch keeps what sealing depends on. -/
theorem Step.sealing_kept (hstep : Step crypto config s b t) (hstay : ¬b.ChangesEpoch config) :
    t.gammaS = s.gammaS ∧ t.lambda = s.lambda ∧ t.kappa = s.kappa ∧
      t.eta.eta2 = s.eta.eta2 ∧ t.eta.eta3 = s.eta.eta3 ∧
      epochOf config t.tau = epochOf config s.tau := by
  have hsame : b.epoch config = epochOf config s.tau :=
    not_not.mp (mt hstep.changeEpoch_iff.mpr hstay)
  have hkeys := hstep.advance.keys
  have hseal := hstep.advance.gammaS
  have hchange : ¬ChangeEpoch config b.pre b.input := hstay
  have hnext : ((Epoch.ofSlot config b.pre.tau).epoch + 1) % 2 ^ 32 ≠
      (Epoch.ofSlot config b.pre.tau).epoch := by
    have hlt : (Epoch.ofSlot config b.pre.tau).epoch < 2 ^ 32 := epochOf_lt b.pre.tau
    omega
  have hepoch : (Epoch.ofSlot config b.input.slot).epoch =
      (Epoch.ofSlot config b.pre.tau).epoch := not_not.mp hchange
  simp only [rotateKeys, if_neg hchange, Except.ok.injEq, RotatedKeys.mk.injEq] at hkeys
  rw [sealingKeys, if_neg (fun h => hnext (h.1.symm.trans hepoch)), if_pos hepoch] at hseal
  obtain ⟨_, hkappa, hlambda, _⟩ := hkeys
  rw [hstep.pre] at hkappa hlambda hseal
  refine ⟨(Except.ok.inj hseal).symm, hlambda.symm, hkappa.symm,
    hstep.history_kept hstay (show (2 : Fin 4) ≠ 0 by decide),
    hstep.history_kept hstay (show (3 : Fin 4) ≠ 0 by decide), ?_⟩
  rw [hstep.epoch_post, hsame]

/-- The series stays what it is within an epoch. -/
theorem SealingSeries.kept (hseries : SealingSeries crypto config trace s)
    (hstep : Step crypto config s b t) (hstay : ¬b.ChangesEpoch config) :
    SealingSeries crypto config (trace ++ [b]) t := by
  obtain ⟨hgammaS, hlambda, hkappa, heta2, heta3, hepoch⟩ := hstep.sealing_kept hstay
  unfold SealingSeries at hseries ⊢
  rw [hgammaS]
  cases hold : s.gammaS with
  | keys keys =>
    rw [hold] at hseries
    rw [heta2, hkappa]
    exact hseries
  | tickets tickets =>
    rw [hold] at hseries
    obtain ⟨hlength, hnodup, hearned⟩ := hseries
    refine ⟨hlength, hnodup, fun ticket hticket => ?_⟩
    obtain ⟨c, hc, hcepoch, henvelope⟩ := hearned ticket hticket
    refine ⟨c, List.mem_append_left _ hc, hcepoch.trans hepoch.symm, ?_⟩
    rw [hlambda, hkappa, heta3]
    exact henvelope

/-! ## The contest of an epoch -/

/-- The ring commitment of a state is the one of its next validators, when it was so at the start
of the run. -/
theorem gammaZ_eq_ringOf (hs : s.gammaZ = ringOf crypto config s.gammaK)
    (hrun : Run (Step crypto config) s trace t) : t.gammaZ = ringOf crypto config t.gammaK := by
  refine hrun.invariant hs ?_
  intro trace b t u _ ih hstep
  by_cases hchange : b.ChangesEpoch config
  · exact (hstep.validators_moved hchange).2.2.2
  · obtain ⟨hgammaK, _, hgammaZ⟩ := hstep.validators_kept hchange
    rw [hgammaZ, hgammaK, ih]

/-- The blocks of the present epoch checked their tickets with the present `eta_2`, in the ring
of the next validators, or of the present ones. -/
theorem contest_of_run (hs : s.gammaZ = ringOf crypto config s.gammaK)
    (hrun : Run (Step crypto config) s trace t) :
    ∀ b ∈ trace, b.epoch config = epochOf config t.tau → b.post.eta.eta2 = t.eta.eta2 ∧
      b.pre.gammaZ = ringOf crypto config (b.checkedIn config t.kappa t.gammaK) := by
  refine hrun.invariant (fun _ hb => by cases hb) ?_
  intro trace b t u hrun ih hstep c hc hepoch
  have hring := gammaZ_eq_ringOf hs hrun
  obtain ⟨_, _, _, _, hpre⟩ := hstep.pre_fields
  rw [hstep.epoch_post] at hepoch
  by_cases hchange : b.ChangesEpoch config
  · -- the blocks before are of earlier epochs
    rcases List.mem_append.mp hc with hc | hc
    · have hle := epoch_le_of_run hrun hc
      have hge := hstep.epoch_le
      have hne := hstep.changeEpoch_iff.mp hchange
      omega
    · obtain rfl := List.mem_singleton.mp hc
      rw [← hstep.post, Block.checkedIn, if_pos hchange, (hstep.validators_moved hchange).2.1, hpre]
      exact ⟨rfl, hring⟩
  · obtain ⟨hgammaK, hkappa, _⟩ := hstep.validators_kept hchange
    obtain ⟨_, _, _, heta2, _, hsame⟩ := hstep.sealing_kept hchange
    rcases List.mem_append.mp hc with hc | hc
    · rw [hgammaK, hkappa, heta2]
      exact ih c hc (hepoch.trans (hstep.epoch_post.symm.trans hsame))
    · obtain rfl := List.mem_singleton.mp hc
      rw [← hstep.post, Block.checkedIn, if_neg hchange, hgammaK, hpre]
      exact ⟨rfl, hring⟩

/-- The entry indices of an accepted block are allowed. -/
theorem Advance.attempt_lt {input : Input} {out : OutputData}
    (h : Advance crypto config s input t out) {envelope : TicketEnvelope}
    (henvelope : envelope ∈ input.extrinsic) :
    envelope.attempt.toNat < config.ticketsPerValidator.toNat := by
  obtain ⟨loop, hloop, _⟩ := h.tickets
  obtain ⟨front, back, hsplit⟩ := List.append_of_mem henvelope
  rw [hsplit] at hloop
  simp only [List.foldlM_append, List.foldlM_cons, bind_eq_ok] at hloop
  obtain ⟨_, _, _, haccept, _⟩ := hloop
  obtain ⟨_, _, hlt, _⟩ := acceptTicket_eq_ok.mp haccept
  exact hlt

/-! ## The first block of an epoch -/

/-- The tickets that the first block of an epoch finds were earned in the epoch before. -/
theorem earned_of_gammaA (hs : s.gammaA = []) (hring : s.gammaZ = ringOf crypto config s.gammaK)
    (hrun : Run (Step crypto config) s trace t) {u : State} (hstep : Step crypto config t b u)
    (hchange : b.ChangesEpoch config) (hnext : b.epoch config = epochOf config t.tau + 1)
    {ticket : TicketBody} (hticket : ticket ∈ t.gammaA) :
    Earned crypto config (trace ++ [b]) u ticket := by
  rw [gammaA_eq_smallest hs hrun] at hticket
  obtain ⟨c, hc, hbody⟩ := List.mem_flatMap.mp (mem_of_mem_smallest hticket)
  obtain ⟨hmem, hepoch⟩ := List.mem_filter.mp hc
  have hepoch : c.epoch config = epochOf config t.tau := of_decide_eq_true hepoch
  obtain ⟨envelope, henvelope, hverified⟩ := List.mem_filterMap.mp hbody
  obtain ⟨heta2, hgammaZ⟩ := contest_of_run hring hrun c hmem hepoch
  obtain ⟨_, hkappa, hlambda, _⟩ := hstep.validators_moved hchange
  have heta3 : u.eta.eta3 = t.eta.eta2 := hstep.history_shifted hchange 2
  obtain ⟨_, _, hstepc⟩ := hrun.step_of_mem hmem
  refine ⟨c, List.mem_append_left _ hmem, ?_, envelope, henvelope,
    hstepc.advance.attempt_lt henvelope, ?_⟩
  · rw [hepoch, hstep.epoch_post, hnext]
  · rw [hkappa, hlambda, heta3, ← heta2, ← hgammaZ]
    exact hverified

/-- **The sealing series.** In a run of accepted blocks that starts with an empty accumulator and
with the commitment to its next validators, and that has entered a new epoch, the series of the
state is at every point the fallback series of its own `eta_2` and `kappa`, or consists of one
ticket for each slot of the epoch. These tickets are all different, and each came in a block of the
epoch just before, with an allowed entry index and a proof that verifies over the state's own
`eta_3`: in the ring of its own `kappa`, but for the first block of that epoch in the ring of
`lambda`. -/
theorem sealingSeries_of_run (hs : s.gammaA = [])
    (hring : s.gammaZ = ringOf crypto config s.gammaK)
    (hsize : crypto.ticketsConfigSize config = config.epochLength.toNat)
    (hrun : Run (Step crypto config) s trace t) :
    (∃ b ∈ trace, b.ChangesEpoch config) → SealingSeries crypto config trace t := by
  refine hrun.invariant (fun ⟨_, hb, _⟩ => by cases hb) ?_
  rintro trace b t u hrun ih hstep ⟨c, hc, hcchange⟩
  by_cases hchange : b.ChangesEpoch config
  · have hne := hstep.changeEpoch_iff.mp hchange
    unfold SealingSeries
    cases hseries : u.gammaS with
    | keys keys => exact hstep.gammaS_eq_keys hchange hseries
    | tickets tickets =>
      obtain ⟨⟨hnext, _, hfull⟩, hZ⟩ := (hstep.gammaS_eq_tickets hne).mp hseries
      rw [Z_eq_ok hstep.advance.epochLength_ne hsize hfull] at hZ
      cases hZ
      have hperm := outsideIn_perm t.gammaA
      refine ⟨hperm.length_eq.trans hfull, ?_, fun ticket hticket => ?_⟩
      · rw [(hperm.map _).nodup_iff, gammaA_eq_smallest hs hrun]
        exact (List.pairwise_map.mpr (smallest_sorted _ _)).imp ne_of_lt
      · exact earned_of_gammaA hs hring hrun hstep hchange hnext (hperm.mem_iff.mp hticket)
  · refine (ih ?_).kept hstep hchange
    rcases List.mem_append.mp hc with hc | hc
    · exact ⟨c, hc, hcchange⟩
    · rw [List.mem_singleton.mp hc] at hcchange
      exact absurd hcchange hchange

/-- In the small network the third block installs the two tickets of the first, whose proofs are in
the ring of the validators before. -/
theorem sealingSeries_scenario :
    Scenario.third.post.gammaS = .tickets [⟨ByteArr.fill 20, 0⟩, ⟨ByteArr.fill 30, 1⟩] ∧
    SealingSeries Scenario.crypto Scenario.config [Scenario.first, Scenario.second, Scenario.third]
      Scenario.third.post :=
  ⟨rfl, sealingSeries_of_run rfl rfl rfl Scenario.run
    ⟨Scenario.first, List.mem_cons_self, by decide⟩⟩

end CppJam.Safrole
