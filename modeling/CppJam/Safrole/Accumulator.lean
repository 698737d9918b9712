import CppJam.Safrole.Blocks

/-!
# The ticket accumulator

The transition inserts tickets one by one, drops the greatest one beyond the
epoch length each time and restarts from the stored accumulator in every block.
Along a run the accumulator is nevertheless the epoch length many smallest
tickets of all that the blocks of the current epoch carried.
-/

namespace CppJam.Safrole

open Bytes Checks Containers Runs

variable {crypto : Primitives} {config : Config} {s t u : State} {trace : List Block}

/-- The ticket bodies that the blocks of an epoch carried, in order. -/
def contestBodies (crypto : Primitives) (config : Config) (trace : List Block) (epoch : ℕ) :
    List TicketBody :=
  (trace.filter (fun b => b.epoch config = epoch)).flatMap (Block.bodies crypto config)

/-- A step within an epoch continues the stream of tickets. -/
theorem Step.gammaA_within {b : Block} (hstep : Step crypto config s b t)
    (hsame : b.epoch config = epochOf config s.tau) {stream : List TicketBody}
    (hs : s.gammaA = smallest TicketBody.id config.epochLength.toNat stream) :
    t.gammaA =
      smallest TicketBody.id config.epochLength.toNat (stream ++ b.bodies crypto config) := by
  obtain ⟨_, _, _, hgammaA, _⟩ := hstep.pre_fields
  have hstay : ¬ChangeEpoch config b.pre b.input := fun hchange =>
    hstep.changeEpoch_iff.mp hchange hsame
  have hstart : (startTickets config b.pre b.input).items =
      smallest TicketBody.id config.epochLength.toNat stream := by
    rw [startTickets, if_neg hstay, hgammaA, hs]
    exact KeyedSet.ofRange_items_of_sorted (smallest_sorted _ _)
  rw [hstep.advance.gammaA_eq.2, hstep.post]
  exact foldl_emplaceBounded_items hstart _

/-- The first block of an epoch starts a new stream of tickets. -/
theorem Step.gammaA_new {b : Block} (hstep : Step crypto config s b t)
    (hnew : b.epoch config ≠ epochOf config s.tau) :
    t.gammaA = smallest TicketBody.id config.epochLength.toNat (b.bodies crypto config) := by
  have hchange : ChangeEpoch config b.pre b.input := hstep.changeEpoch_iff.mpr hnew
  have hstart : (startTickets config b.pre b.input).items =
      smallest TicketBody.id config.epochLength.toNat [] := by
    rw [startTickets, if_pos hchange]
    simp [smallest, firstByKey, KeyedSet.empty]
  rw [hstep.advance.gammaA_eq.2, hstep.post]
  exact foldl_emplaceBounded_items hstart _

/-- One more block of the current epoch adds its tickets. -/
theorem contestBodies_append_same {b : Block} {epoch : ℕ} (hb : b.epoch config = epoch) :
    contestBodies crypto config (trace ++ [b]) epoch =
      contestBodies crypto config trace epoch ++ b.bodies crypto config := by
  simp [contestBodies, hb]

/-- Before the first block of an epoch no block carried tickets for it. -/
theorem contestBodies_of_later {epoch : ℕ} (hrun : Run (Step crypto config) s trace t)
    (hlater : epochOf config t.tau < epoch) : contestBodies crypto config trace epoch = [] := by
  have hnone : trace.filter (fun b => b.epoch config = epoch) = [] := by
    rw [List.filter_eq_nil_iff]
    intro b hb
    have hle := epoch_le_of_run hrun hb
    simp only [decide_eq_true_eq]
    omega
  rw [contestBodies, hnone, List.flatMap_nil]

/-- The accumulator holds the smallest tickets of the current epoch. -/
theorem gammaA_eq_smallest (hs : s.gammaA = []) (hrun : Run (Step crypto config) s trace t) :
    t.gammaA = smallest TicketBody.id config.epochLength.toNat
      (contestBodies crypto config trace (epochOf config t.tau)) := by
  refine hrun.invariant ?_ ?_
  · simp [hs, contestBodies, smallest, firstByKey]
  · intro trace b t u hrun ih hstep
    rw [hstep.epoch_post, contestBodies_append_same rfl]
    by_cases hsame : b.epoch config = epochOf config t.tau
    · rw [← hsame] at ih
      exact hstep.gammaA_within hsame ih
    · have hlt : epochOf config t.tau < b.epoch config :=
        lt_of_le_of_ne hstep.epoch_le (Ne.symm hsame)
      rw [contestBodies_of_later hrun hlt, List.nil_append]
      exact hstep.gammaA_new hsame

/-- Every envelope of an accepted block carries a ticket body. -/
theorem bodies_complete (hrun : Run (Step crypto config) s trace t) {b : Block}
    (hb : b ∈ trace) :
    b.input.extrinsic.map (ticketBody crypto config b.pre.gammaZ b.post.eta.eta2) =
      (b.bodies crypto config).map some := by
  obtain ⟨_, _, hstep⟩ := hrun.step_of_mem hb
  have hall := hstep.advance.gammaA_eq.1
  rw [hstep.post] at hall
  unfold Block.bodies
  generalize b.input.extrinsic = envelopes at hall ⊢
  induction envelopes with
  | nil => rfl
  | cons envelope envelopes ih =>
    obtain ⟨⟨ticket, hticket⟩, hrest⟩ := List.forall_mem_cons.mp hall
    rw [List.map_cons, List.filterMap_cons_some hticket, List.map_cons, hticket, ih hrest]

/-- **Accumulator law.** In a run of accepted blocks that starts with an empty
accumulator, the accumulator is at every point the epoch length many smallest
tickets, by identifier, of all tickets that the blocks of the current epoch
carried, where the first ticket with an identifier counts. It is strictly sorted
and never longer than the epoch, and a run that splits the same tickets over
other blocks has the same accumulator. -/
theorem accumulator_law (hs : s.gammaA = []) (hrun : Run (Step crypto config) s trace t) :
    t.gammaA = smallest TicketBody.id config.epochLength.toNat
      (contestBodies crypto config trace (epochOf config t.tau)) ∧
    (∀ b ∈ trace, b.input.extrinsic.map
        (ticketBody crypto config b.pre.gammaZ b.post.eta.eta2) =
      (b.bodies crypto config).map some) ∧
    t.gammaA.Pairwise (fun x y => x.id < y.id) ∧
    t.gammaA.length ≤ config.epochLength.toNat ∧
    ∀ s₂ trace₂ t₂, s₂.gammaA = [] → Run (Step crypto config) s₂ trace₂ t₂ →
      contestBodies crypto config trace₂ (epochOf config t₂.tau) =
        contestBodies crypto config trace (epochOf config t.tau) →
      t₂.gammaA = t.gammaA := by
  have hlaw := gammaA_eq_smallest hs hrun
  refine ⟨hlaw, fun b hb => bodies_complete hrun hb, ?_, ?_, ?_⟩
  · rw [hlaw]
    exact smallest_sorted _ _
  · rw [hlaw]
    exact length_smallest_le _ _
  · intro s₂ trace₂ t₂ hs₂ hrun₂ hbodies
    rw [gammaA_eq_smallest hs₂ hrun₂, hbodies, hlaw]

/-- In the small network two tickets are in the accumulator after two blocks. -/
theorem accumulator_law_scenario :
    Scenario.second.post.gammaA = [⟨ByteArr.fill 20, 0⟩, ⟨ByteArr.fill 30, 1⟩] ∧
    Scenario.second.post.gammaA = smallest TicketBody.id 2
      (contestBodies Scenario.crypto Scenario.config [Scenario.first, Scenario.second]
        (epochOf Scenario.config Scenario.second.post.tau)) := by
  have hrun : Run (Step Scenario.crypto Scenario.config) (Scenario.state 1)
      [Scenario.first, Scenario.second] Scenario.second.post :=
    (Run.nil.snoc ⟨rfl, rfl, rfl⟩).snoc ⟨rfl, rfl, rfl⟩
  exact ⟨rfl, (accumulator_law rfl hrun).1⟩

end CppJam.Safrole
