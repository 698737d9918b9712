import CppJam.Safrole.Accumulator

/-!
# Which ring a ticket was checked against

A ticket proof is verified under the ring commitment of the state before the
block, while its message takes the entropy of the state after it. In the first
block of an epoch these belong to different contests: the commitment that the
block stores is that of the next validators. The tickets of a state are
consistent with its own ring along every run whose epoch changes carry only
tickets that verify alike in both rings.
-/

namespace CppJam.Safrole

open Bytes Checks Containers Runs

variable {crypto : Primitives} {config : Config} {s t : State} {trace : List Block}

/-- Every ticket in the accumulator came in a block of the current epoch with a
proof that verifies under the state's own ring commitment and entropy. -/
def RingConsistent (crypto : Primitives) (config : Config) (trace : List Block)
    (t : State) : Prop :=
  ∀ ticket ∈ t.gammaA, ∃ b ∈ trace, b.epoch config = epochOf config t.tau ∧
    ∃ envelope ∈ b.input.extrinsic, envelope.attempt = ticket.attempt ∧
      bandersnatch crypto config t.gammaZ (xT.bytes ++ t.eta.eta2.bytes ++ [ticket.attempt])
        envelope.signature = some ticket.id

/-- The block stays in its epoch, or each of its ticket proofs verifies alike under
the commitment to the next validators and under the prior one. -/
def SameRing (crypto : Primitives) (config : Config) (s : State) (input : Input) : Prop :=
  ChangeEpoch config s input → ∀ gammaZ,
    mathcalO crypto config (bandersnatchKeys (phi s.postOffenders s.iota)) = .ok gammaZ →
    ∀ envelope ∈ input.extrinsic,
      ticketBody crypto config gammaZ s.eta.eta1 envelope =
        ticketBody crypto config s.gammaZ s.eta.eta1 envelope

/-- An envelope carries a ticket body exactly when its proof verifies to the
identifier for the attempt. -/
theorem ticketBody_eq_some {gammaZ : RingCommitment} {eta2 : OpaqueHash}
    {envelope : TicketEnvelope} {ticket : TicketBody} :
    ticketBody crypto config gammaZ eta2 envelope = some ticket ↔
      envelope.attempt = ticket.attempt ∧
      bandersnatch crypto config gammaZ (xT.bytes ++ eta2.bytes ++ [ticket.attempt])
        envelope.signature = some ticket.id := by
  obtain ⟨id, attempt⟩ := ticket
  have hmessage : ticketMessage eta2 envelope.attempt =
      xT.bytes ++ eta2.bytes ++ [envelope.attempt] := by
    simp [ticketMessage, frown, doubleplus]
  simp only [ticketBody, hmessage, Option.map_eq_some_iff, TicketBody.mk.injEq]
  constructor
  · rintro ⟨_, hproof, rfl, rfl⟩
    exact ⟨rfl, hproof⟩
  · rintro ⟨rfl, hproof⟩
    exact ⟨id, hproof, rfl, rfl⟩

/-- The tickets of the blocks of the current epoch verify alike in the ring of
their block and in the current one. -/
theorem ticketBody_current (hrun : Run (Step crypto config) s trace t) :
    (∀ b ∈ trace, SameRing crypto config b.pre b.input) →
    ∀ b ∈ trace, b.epoch config = epochOf config t.tau → ∀ envelope ∈ b.input.extrinsic,
      ticketBody crypto config t.gammaZ t.eta.eta2 envelope =
        ticketBody crypto config b.pre.gammaZ b.post.eta.eta2 envelope := by
  refine hrun.invariant ?_ ?_
  · simp
  · intro trace b t u hrun ih hstep hsafe c hc hepoch envelope henvelope
    obtain ⟨_, heta, _, _, hgammaZ⟩ := hstep.pre_fields
    rw [hstep.epoch_post] at hepoch
    by_cases hsame : b.epoch config = epochOf config t.tau
    · have hstay : ¬ChangeEpoch config b.pre b.input := fun hchange =>
        hstep.changeEpoch_iff.mp hchange hsame
      obtain ⟨_, _, hz, _, heta2⟩ := hstep.advance.within_epoch hstay
      rcases List.mem_append.mp hc with hc | hc
      · have hold := ih (fun d hd => hsafe d (List.mem_append_left _ hd)) c hc
          (hepoch.trans hsame) envelope henvelope
        rw [hz, heta2, hgammaZ, heta]
        exact hold
      · obtain rfl := List.mem_singleton.mp hc
        rw [← hstep.post, hz]
    · have hchange := hstep.changeEpoch_iff.mpr hsame
      obtain ⟨_, _, hcommitment, _, heta2, _⟩ := hstep.advance.new_epoch hchange
      rcases List.mem_append.mp hc with hc | hc
      · have hle := epoch_le_of_run hrun hc
        have hge := hstep.epoch_le
        omega
      · obtain rfl := List.mem_singleton.mp hc
        rw [← hstep.post, heta2]
        exact hsafe c (List.mem_append_right _ (List.mem_singleton_self c)) hchange u.gammaZ
          hcommitment envelope henvelope

/-- In a run of accepted blocks that starts with an empty accumulator and whose
epoch changes carry only tickets that verify alike in the prior and the next
ring, every ticket in the accumulator was accepted with a proof that verifies
under the state's own ring commitment. -/
theorem ringConsistent_of_sameRing (hs : s.gammaA = [])
    (hrun : Run (Step crypto config) s trace t)
    (hsafe : ∀ b ∈ trace, SameRing crypto config b.pre b.input) :
    RingConsistent crypto config trace t := by
  intro ticket hticket
  rw [gammaA_eq_smallest hs hrun] at hticket
  obtain ⟨b, hb, hbody⟩ := List.mem_flatMap.mp (mem_of_mem_smallest hticket)
  obtain ⟨hmem, hepoch⟩ := List.mem_filter.mp hb
  have hepoch : b.epoch config = epochOf config t.tau := of_decide_eq_true hepoch
  obtain ⟨envelope, henvelope, hverified⟩ := List.mem_filterMap.mp hbody
  rw [← ticketBody_current hrun hsafe b hmem hepoch envelope henvelope] at hverified
  obtain ⟨hattempt, hproof⟩ := ticketBody_eq_some.mp hverified
  exact ⟨b, hmem, hepoch, envelope, henvelope, hattempt, hproof⟩

/-- With the same validator scheduled again the ring does not change, and the
tickets of the first block of an epoch are consistent. -/
theorem ringConsistent_scenario :
    Scenario.first.post.gammaA ≠ [] ∧
    RingConsistent Scenario.crypto Scenario.config [Scenario.first] Scenario.first.post := by
  have hrun : Run (Step Scenario.crypto Scenario.config) (Scenario.state 1) [Scenario.first]
      Scenario.first.post := Run.nil.snoc ⟨rfl, rfl, rfl⟩
  refine ⟨List.cons_ne_nil _ _, ringConsistent_of_sameRing rfl hrun ?_⟩
  intro b hb _ gammaZ hcommitment envelope _
  obtain rfl := List.mem_singleton.mp hb
  cases hcommitment
  rfl

/-- With another validator scheduled, a ticket proved in the prior ring is accepted
by the first block of the epoch and stays in the accumulator of the next ring, in
which its proof does not verify. -/
theorem not_ringConsistent_epoch_change :
    (Scenario.state 2).gammaA = [] ∧
    Run (Step Scenario.crypto Scenario.config) (Scenario.state 2)
      [Scenario.block (Scenario.state 2) 2 [Scenario.ticket 0 20]]
      (Scenario.block (Scenario.state 2) 2 [Scenario.ticket 0 20]).post ∧
    (Scenario.block (Scenario.state 2) 2 [Scenario.ticket 0 20]).post.gammaA =
      [⟨ByteArr.fill 20, 0⟩] ∧
    ¬RingConsistent Scenario.crypto Scenario.config
      [Scenario.block (Scenario.state 2) 2 [Scenario.ticket 0 20]]
      (Scenario.block (Scenario.state 2) 2 [Scenario.ticket 0 20]).post := by
  refine ⟨rfl, Run.nil.snoc ⟨rfl, rfl, rfl⟩, rfl, fun hconsistent => ?_⟩
  obtain ⟨b, hb, _, envelope, henvelope, _, hproof⟩ :=
    hconsistent ⟨ByteArr.fill 20, 0⟩ (List.mem_singleton_self _)
  obtain rfl := List.mem_singleton.mp hb
  obtain rfl := List.mem_singleton.mp henvelope
  cases hproof

end CppJam.Safrole
