import CppJam.Runs
import CppJam.Safrole.Acceptance

/-!
# Runs of accepted blocks

A run applies blocks that the transition accepts. Between two blocks the
scheduled validators and the offenders may be replaced, since other parts of the
protocol write them. Slots increase along a run, so the blocks of one epoch are
consecutive.
-/

namespace CppJam.Safrole

open Bytes Checks Containers Runs

/-- An accepted block with the state before it and what it led to. -/
structure Block where
  /-- The state in which the block is applied. -/
  pre : State
  /-- The input of the transition. -/
  input : Input
  /-- The state after the block. -/
  post : State
  /-- The output of the transition. -/
  output : OutputData

/-- The epoch of a block. -/
def Block.epoch (config : Config) (b : Block) : ℕ := epochOf config b.input.slot

/-- The block is the first one of its epoch. -/
def Block.ChangesEpoch (config : Config) (b : Block) : Prop :=
  b.epoch config ≠ epochOf config b.pre.tau

instance (config : Config) (b : Block) : Decidable (b.ChangesEpoch config) :=
  inferInstanceAs (Decidable (_ ≠ _))

/-- The ticket bodies that the extrinsic of a block carries. -/
def Block.bodies (crypto : Primitives) (config : Config) (b : Block) : List TicketBody :=
  b.input.extrinsic.filterMap (ticketBody crypto config b.pre.gammaZ b.post.eta.eta2)

/-- An accepted block leads from `s` to `s'`. It is applied to `s` itself or to `s`
with other scheduled validators and offenders. -/
structure Step (crypto : Primitives) (config : Config) (s : State) (b : Block)
    (s' : State) : Prop where
  pre : b.pre = { s with iota := b.pre.iota, postOffenders := b.pre.postOffenders }
  accepted : transition crypto config b.pre b.input = .ok (b.post, .ok b.output)
  post : s' = b.post

section Steps

variable {crypto : Primitives} {config : Config} {s t : State}

/-- What the block of a step does. -/
theorem Step.advance {b : Block} (hstep : Step crypto config s b t) :
    Advance crypto config b.pre b.input t b.output := by
  rw [hstep.post]
  exact transition_eq_ok_iff.mp hstep.accepted

/-- A block is applied to the fields of the state before it. -/
theorem Step.pre_fields {b : Block} (hstep : Step crypto config s b t) :
    b.pre.tau = s.tau ∧ b.pre.eta = s.eta ∧ b.pre.gammaK = s.gammaK ∧
      b.pre.gammaA = s.gammaA ∧ b.pre.gammaZ = s.gammaZ := by
  rw [hstep.pre]
  exact ⟨rfl, rfl, rfl, rfl, rfl⟩

/-- A step changes the epoch when its block is of another epoch than the state before. -/
theorem Step.changeEpoch_iff {b : Block} (hstep : Step crypto config s b t) :
    ChangeEpoch config b.pre b.input ↔ b.epoch config ≠ epochOf config s.tau := by
  rw [← hstep.pre_fields.1]
  exact Iff.rfl

/-- A step leads to the slot of its block, which is a later one. -/
theorem Step.slot {b : Block} (hstep : Step crypto config s b t) :
    t.tau = b.input.slot ∧ s.tau.toNat < b.input.slot.toNat := by
  have hgt := hstep.advance.slot_gt
  rw [hstep.pre_fields.1] at hgt
  exact ⟨hstep.advance.tau, hgt⟩

/-- A step leads to the epoch of its block. -/
theorem Step.epoch_post {b : Block} (hstep : Step crypto config s b t) :
    epochOf config t.tau = b.epoch config := by
  rw [hstep.slot.1]
  rfl

/-- The epochs of slots are ordered as the slots are. -/
theorem epochOf_mono {a b : UInt32} (hle : a.toNat ≤ b.toNat) :
    epochOf config a ≤ epochOf config b :=
  Nat.div_le_div_right hle

/-- Within an epoch the phases of slots are ordered as the slots are. -/
theorem phaseOf_mono {a b : UInt32} (hle : a.toNat ≤ b.toNat)
    (hsame : epochOf config a = epochOf config b) : phaseOf config a ≤ phaseOf config b := by
  have ha := Nat.div_add_mod a.toNat config.epochLength.toNat
  have hb := Nat.div_add_mod b.toNat config.epochLength.toNat
  unfold epochOf Epoch.ofSlot at hsame
  unfold phaseOf Epoch.ofSlot
  simp only at hsame ⊢
  rw [hsame] at ha
  omega

/-- No block of a run is later than its last state, and the run does not go back. -/
theorem slot_le_of_run {trace : List Block} (hrun : Run (Step crypto config) s trace t) :
    s.tau.toNat ≤ t.tau.toNat ∧ ∀ b ∈ trace, b.input.slot.toNat ≤ t.tau.toNat := by
  refine hrun.invariant ?_ ?_
  · simp
  · rintro trace b t u _ ⟨hstart, hblocks⟩ hstep
    obtain ⟨htau, hlt⟩ := hstep.slot
    rw [htau]
    refine ⟨by omega, ?_⟩
    intro c hc
    rcases List.mem_append.mp hc with hc | hc
    · exact (hblocks c hc).trans (by omega)
    · rw [List.mem_singleton.mp hc]

/-- A step stays in its epoch or goes to a later one. -/
theorem Step.epoch_le {b : Block} (hstep : Step crypto config s b t) :
    epochOf config s.tau ≤ b.epoch config :=
  epochOf_mono hstep.slot.2.le

/-- No block of a run is of a later epoch than its last state. -/
theorem epoch_le_of_run {trace : List Block} (hrun : Run (Step crypto config) s trace t)
    {b : Block} (hb : b ∈ trace) : b.epoch config ≤ epochOf config t.tau :=
  epochOf_mono ((slot_le_of_run hrun).2 b hb)

end Steps

/-! ## A small network

Concrete data for runs on which the statements below are evaluated: one
validator, epochs of two slots, and ring proofs that name the ring, the entropy,
the attempt and the identifier that they are for. -/

namespace Scenario

/-- Constants of a network with one validator and epochs of two slots. -/
def config : Config := ⟨1, 1, 2, 3, 1, 8, 80⟩

/-- A commitment repeats the first octet of the first key, and a proof verifies in
its own ring for its own entropy and attempt. -/
def crypto : Primitives where
  mathcalH m := ByteArr.fill (m.headD 0 + m.getD 32 0)
  ringCommitment _ pks := ByteArr.fill ((pks.headD (ByteArr.fill 0)).bytes.headD 0)
  ringVerify _ gammaZ m signature :=
    if signature.bytes.take 3 = [gammaZ.bytes.headD 0, m.getD 15 0, m.getD 47 0] then
      some (ByteArr.fill (signature.bytes.getD 3 0))
    else none
  ticketsConfigSize config := config.epochLength.toNat

/-- A validator set of one validator. -/
def validators (k : Byte) : ValidatorsData := [⟨ByteArr.fill k, ByteArr.fill k⟩]

/-- The last slot of epoch 0, with the given validators scheduled. -/
def state (scheduled : Byte) : State where
  tau := 1
  eta := ⟨ByteArr.fill 10, ByteArr.fill 11, ByteArr.fill 12, ByteArr.fill 13⟩
  lambda := validators 1
  kappa := validators 1
  gammaK := validators 1
  iota := validators scheduled
  gammaA := []
  gammaS := .keys [ByteArr.fill 1, ByteArr.fill 1]
  gammaZ := ByteArr.fill 1
  postOffenders := []

/-- A ticket with a proof for ring 1 and entropy 11. -/
def ticket (attempt id : Byte) : TicketEnvelope :=
  ⟨attempt, [1, 11, attempt, id] ++ List.replicate 780 0, by
    rw [List.length_append, List.length_replicate]
    rfl⟩

/-- The block that applies an input to a state. -/
def block (s : State) (slot : UInt32) (extrinsic : List TicketEnvelope) : Block :=
  match transition crypto config s ⟨slot, ByteArr.fill 1, extrinsic⟩ with
  | .ok (post, .ok output) => ⟨s, ⟨slot, ByteArr.fill 1, extrinsic⟩, post, output⟩
  | _ => ⟨s, ⟨slot, ByteArr.fill 1, extrinsic⟩, s, ⟨none, none⟩⟩

/-- The first block of epoch 1, with two tickets. -/
def first : Block := block (state 1) 2 [ticket 0 20, ticket 1 30]

/-- The block of epoch 1 after ticket submission ended. -/
def second : Block := block first.post 3 []

/-- The first block of epoch 2. -/
def third : Block := block second.post 4 []

/-- The three blocks form a run. -/
theorem run : Run (Step crypto config) (state 1) [first, second, third] third.post :=
  ((Run.nil.snoc ⟨rfl, rfl, rfl⟩).snoc ⟨rfl, rfl, rfl⟩).snoc ⟨rfl, rfl, rfl⟩

end Scenario

end CppJam.Safrole
