import CppJam.Safrole.Accumulator

/-!
# The winning tickets and the sealing keys

The tickets mark is given by the first block past the end of ticket submission,
the sealing keys are installed by the first block of the next epoch. They agree:
past the end of submission no block carries tickets, so the accumulator of the
epoch is frozen, and a block that enters an epoch past that point finds an empty
accumulator.
-/

namespace CppJam.Safrole

open Bytes Checks Containers Runs

variable {crypto : Primitives} {config : Config} {s t : State}

/-- A block gives a tickets mark when it is the first one of its epoch past the end of
ticket submission and finds a full accumulator. -/
theorem Step.ticketsMark_eq_some {b : Block} {tickets : List TicketBody}
    (hstep : Step crypto config s b t) :
    b.output.ticketsMark = some tickets ↔
      (b.epoch config = epochOf config s.tau ∧ phaseOf config s.tau < Y config ∧
        Y config ≤ phaseOf config b.input.slot ∧
        s.gammaA.length = config.epochLength.toNat) ∧ Z crypto config s.gammaA = .ok tickets := by
  have hmark := hstep.advance.ticketsMark
  obtain ⟨htau, _, _, hgammaA, _⟩ := hstep.pre_fields
  unfold ticketsMark at hmark
  rw [htau, hgammaA] at hmark
  split_ifs at hmark with hcrossing
  · obtain ⟨result, hresult, hsome⟩ := map_eq_ok.mp hmark
    rw [← hsome, hresult, Option.some.injEq, Except.ok.injEq]
    exact ⟨fun heq => ⟨hcrossing, heq⟩, fun h => h.2⟩
  · rw [← Except.ok.inj hmark]
    constructor
    · rintro ⟨⟩
    · exact fun h => absurd h.1 hcrossing

/-- A block that crosses the end of ticket submission with a full accumulator gives a
tickets mark. -/
theorem Step.ticketsMark_of_crossing {b : Block} (hstep : Step crypto config s b t)
    (hsame : b.epoch config = epochOf config s.tau) (hearly : phaseOf config s.tau < Y config)
    (hphase : Y config ≤ phaseOf config b.input.slot)
    (hfull : s.gammaA.length = config.epochLength.toNat) :
    ∃ tickets, b.output.ticketsMark = some tickets := by
  have hmark := hstep.advance.ticketsMark
  obtain ⟨htau, _, _, hgammaA, _⟩ := hstep.pre_fields
  unfold ticketsMark at hmark
  rw [htau, hgammaA, if_pos ⟨hsame, hearly, hphase, hfull⟩] at hmark
  obtain ⟨tickets, _, hsome⟩ := map_eq_ok.mp hmark
  exact ⟨tickets, hsome.symm⟩

/-- An epoch index fits 32 bits. -/
theorem epochOf_lt (slot : UInt32) : epochOf config slot < 2 ^ 32 :=
  (Nat.div_le_self _ _).trans_lt slot.toNat_lt

/-- The first block of an epoch installs tickets exactly when the contest of the
epoch just before was completed. -/
theorem Step.gammaS_eq_tickets {b : Block} {tickets : List TicketBody}
    (hstep : Step crypto config s b t) (hnew : b.epoch config ≠ epochOf config s.tau) :
    t.gammaS = .tickets tickets ↔
      (b.epoch config = epochOf config s.tau + 1 ∧ Y config ≤ phaseOf config s.tau ∧
        s.gammaA.length = config.epochLength.toNat) ∧ Z crypto config s.gammaA = .ok tickets := by
  have hseal := hstep.advance.gammaS
  obtain ⟨htau, _, _, hgammaA, _⟩ := hstep.pre_fields
  have hnext : ((Epoch.ofSlot config s.tau).epoch + 1) % 2 ^ 32 = epochOf config s.tau + 1 := by
    have hle := hstep.epoch_le
    have hlt : b.epoch config < 2 ^ 32 := epochOf_lt b.input.slot
    have hbound : epochOf config s.tau + 1 < 2 ^ 32 := by omega
    exact Nat.mod_eq_of_lt hbound
  have hchange : (Epoch.ofSlot config b.input.slot).epoch ≠ (Epoch.ofSlot config s.tau).epoch :=
    hnew
  unfold sealingKeys at hseal
  rw [htau, hgammaA, hnext, if_neg hchange] at hseal
  split_ifs at hseal with hcompleted
  · obtain ⟨result, hresult, htickets⟩ := map_eq_ok.mp hseal
    rw [← htickets, hresult, TicketsOrKeys.tickets.injEq, Except.ok.injEq]
    exact ⟨fun heq => ⟨hcompleted, heq⟩, fun h => h.2⟩
  · obtain ⟨keys, _, hkeys⟩ := map_eq_ok.mp hseal
    rw [← hkeys]
    constructor
    · rintro ⟨⟩
    · exact fun h => absurd h.1 hcompleted

/-- Past the end of ticket submission a block carries no tickets. -/
theorem Step.bodies_eq_nil {b : Block} (hstep : Step crypto config s b t)
    (hphase : Y config ≤ phaseOf config b.input.slot) : b.bodies crypto config = [] := by
  rw [Block.bodies, hstep.advance.extrinsic_early hphase, List.filterMap_nil]

/-- Past the end of ticket submission a block within its epoch leaves the accumulator. -/
theorem Step.gammaA_frozen {b : Block} (hstep : Step crypto config s b t)
    (hsame : b.epoch config = epochOf config s.tau)
    (hphase : Y config ≤ phaseOf config b.input.slot) {stream : List TicketBody}
    (hs : s.gammaA = smallest TicketBody.id config.epochLength.toNat stream) :
    t.gammaA = s.gammaA := by
  rw [hstep.gammaA_within hsame hs, hstep.bodies_eq_nil hphase, List.append_nil, hs]

/-- A block that enters an epoch past the end of ticket submission leaves an empty
accumulator. -/
theorem Step.gammaA_empty {b : Block} (hstep : Step crypto config s b t)
    (hnew : b.epoch config ≠ epochOf config s.tau)
    (hphase : Y config ≤ phaseOf config b.input.slot) : t.gammaA = [] := by
  rw [hstep.gammaA_new hnew, hstep.bodies_eq_nil hphase]
  simp [smallest, firstByKey]

/-- Past the end of ticket submission the accumulator stays until the epoch changes. -/
theorem gammaA_frozen_of_run {trace : List Block} (hrun : Run (Step crypto config) s trace t)
    (hphase : Y config ≤ phaseOf config s.tau) {stream : List TicketBody}
    (hs : s.gammaA = smallest TicketBody.id config.epochLength.toNat stream) :
    (∀ b ∈ trace, ¬b.ChangesEpoch config) →
      epochOf config t.tau = epochOf config s.tau ∧ Y config ≤ phaseOf config t.tau ∧
        t.gammaA = s.gammaA := by
  refine hrun.invariant ?_ ?_
  · exact fun _ => ⟨rfl, hphase, rfl⟩
  · intro trace b t u _ ih hstep hstays
    obtain ⟨hepoch, hlate, hgammaA⟩ := ih (fun c hc => hstays c (List.mem_append_left _ hc))
    have hsame : b.epoch config = epochOf config t.tau := by
      have hstay := hstays b (List.mem_append_right _ (List.mem_singleton_self b))
      exact not_not.mp (mt hstep.changeEpoch_iff.mpr hstay)
    obtain ⟨htau, hlt⟩ := hstep.slot
    have hlater : Y config ≤ phaseOf config b.input.slot :=
      hlate.trans (phaseOf_mono hlt.le hsame.symm)
    have hfrozen := hstep.gammaA_frozen hsame hlater (hgammaA.trans hs)
    rw [htau]
    exact ⟨hsame.trans hepoch, hlater, hfrozen.trans hgammaA⟩

/-- In a run that starts with an empty accumulator, a full accumulator past the end of
ticket submission was announced by a block of its epoch. -/
theorem mark_of_full (hlength : config.epochLength.toNat ≠ 0) (hs : s.gammaA = [])
    {trace : List Block} (hrun : Run (Step crypto config) s trace t) :
    Y config ≤ phaseOf config t.tau → t.gammaA.length = config.epochLength.toNat →
      ∃ b ∈ trace, b.epoch config = epochOf config t.tau ∧
        ∃ tickets, b.output.ticketsMark = some tickets ∧
          Z crypto config t.gammaA = .ok tickets := by
  refine hrun.invariant ?_ ?_
  · intro _ hfull
    rw [hs, List.length_nil] at hfull
    exact absurd hfull.symm hlength
  · intro trace b t u hrun ih hstep hphase hfull
    obtain ⟨htau, hlt⟩ := hstep.slot
    rw [htau] at hphase ⊢
    by_cases hsame : b.epoch config = epochOf config t.tau
    · rw [hstep.gammaA_frozen hsame hphase (gammaA_eq_smallest hs hrun)] at hfull ⊢
      by_cases hlate : Y config ≤ phaseOf config t.tau
      · obtain ⟨c, hc, hepoch, hmark⟩ := ih hlate hfull
        exact ⟨c, List.mem_append_left _ hc, hepoch.trans hsame.symm, hmark⟩
      · obtain ⟨tickets, hmark⟩ :=
          hstep.ticketsMark_of_crossing hsame (not_le.mp hlate) hphase hfull
        refine ⟨b, List.mem_append_right _ (List.mem_singleton_self b), rfl, tickets, hmark, ?_⟩
        exact (hstep.ticketsMark_eq_some.mp hmark).2
    · rw [hstep.gammaA_empty hsame hphase, List.length_nil] at hfull
      exact absurd hfull.symm hlength

/-- Two blocks of a run that give a tickets mark are of different epochs. -/
theorem epoch_ne_of_marks {front mid back : List Block} {b c : Block} {x y : List TicketBody}
    (hrun : Run (Step crypto config) s (front ++ b :: (mid ++ c :: back)) t)
    (hb : b.output.ticketsMark = some x) (hc : c.output.ticketsMark = some y) :
    b.epoch config ≠ c.epoch config := by
  intro hepoch
  obtain ⟨_, u, _, hstepb, hrest⟩ := hrun.at_step
  obtain ⟨v, _, hmid, hstepc, _⟩ := hrest.at_step
  obtain ⟨⟨_, _, hlate, _⟩, _⟩ := hstepb.ticketsMark_eq_some.mp hb
  obtain ⟨⟨hsame, hearly, _, _⟩, _⟩ := hstepc.ticketsMark_eq_some.mp hc
  rw [← hstepb.slot.1] at hlate
  have hu : epochOf config u.tau = epochOf config v.tau := by
    rw [hstepb.slot.1]
    exact hepoch.trans hsame
  have hphase := phaseOf_mono (slot_le_of_run hmid).1 hu
  omega

/-- Marked tickets become the sealing keys of the next epoch. -/
theorem gammaS_of_mark {front mid back : List Block} {b c : Block} {tickets : List TicketBody}
    (hs : s.gammaA = [])
    (hrun : Run (Step crypto config) s (front ++ b :: (mid ++ c :: back)) t)
    (hb : b.output.ticketsMark = some tickets) (hmid : ∀ d ∈ mid, ¬d.ChangesEpoch config)
    (hc : c.epoch config = b.epoch config + 1) : c.post.gammaS = .tickets tickets := by
  obtain ⟨r, u, hfront, hstepb, hrest⟩ := hrun.at_step
  obtain ⟨v, _, hrunmid, hstepc, _⟩ := hrest.at_step
  obtain ⟨⟨hsame, _, hlate, hfull⟩, hZ⟩ := hstepb.ticketsMark_eq_some.mp hb
  have hr := gammaA_eq_smallest hs hfront
  have hu := hstepb.gammaA_frozen hsame hlate hr
  rw [← hstepb.slot.1] at hlate
  rw [← hu] at hr hfull hZ
  obtain ⟨hepoch, hphase, hv⟩ := gammaA_frozen_of_run hrunmid hlate hr hmid
  have hnext : c.epoch config = epochOf config v.tau + 1 := by
    rw [hc, hepoch, hstepb.slot.1]
    rfl
  rw [← hv] at hfull hZ
  rw [← hstepc.post]
  exact (hstepc.gammaS_eq_tickets (by omega)).mpr ⟨⟨hnext, hphase, hfull⟩, hZ⟩

/-- Tickets installed as sealing keys were marked in the epoch just ended. -/
theorem mark_of_gammaS {front back : List Block} {c : Block} {tickets : List TicketBody}
    (hs : s.gammaA = []) (hrun : Run (Step crypto config) s (front ++ c :: back) t)
    (hchange : c.ChangesEpoch config) (hc : c.post.gammaS = .tickets tickets) :
    ∃ b ∈ front, b.epoch config = epochOf config c.pre.tau ∧
      b.output.ticketsMark = some tickets := by
  obtain ⟨v, _, hfront, hstep, _⟩ := hrun.at_step
  have htau := hstep.pre_fields.1
  unfold Block.ChangesEpoch at hchange
  rw [htau] at hchange ⊢
  rw [← hstep.post] at hc
  obtain ⟨⟨_, hphase, hfull⟩, hZ⟩ := (hstep.gammaS_eq_tickets hchange).mp hc
  obtain ⟨b, hb, hepoch, marked, hmark, hmarked⟩ :=
    mark_of_full hstep.advance.epochLength_ne hs hfront hphase hfull
  rw [hZ] at hmarked
  cases hmarked
  exact ⟨b, hb, hepoch, hmark⟩

/-- **Agreement of the tickets mark and the sealing keys.** In a run of accepted blocks
that starts with an empty accumulator, at most one block of an epoch gives a
tickets mark; the marked tickets are the sealing keys that the first block of the
next epoch installs; tickets are only installed after the epoch just ended marked
them; and after a skipped epoch fallback keys are installed. -/
theorem winning_tickets_agree (hs : s.gammaA = []) {trace : List Block}
    (hrun : Run (Step crypto config) s trace t) :
    (∀ (front mid back : List Block) (b c : Block) (x y : List TicketBody),
      trace = front ++ b :: (mid ++ c :: back) →
      b.output.ticketsMark = some x → c.output.ticketsMark = some y →
      b.epoch config ≠ c.epoch config) ∧
    (∀ (front mid back : List Block) (b c : Block) (tickets : List TicketBody),
      trace = front ++ b :: (mid ++ c :: back) →
      b.output.ticketsMark = some tickets → (∀ d ∈ mid, ¬d.ChangesEpoch config) →
      c.epoch config = b.epoch config + 1 → c.post.gammaS = .tickets tickets) ∧
    (∀ (front back : List Block) (c : Block) (tickets : List TicketBody),
      trace = front ++ c :: back → c.ChangesEpoch config → c.post.gammaS = .tickets tickets →
      ∃ b ∈ front, b.epoch config = epochOf config c.pre.tau ∧
        b.output.ticketsMark = some tickets) ∧
    (∀ (front back : List Block) (c : Block),
      trace = front ++ c :: back → c.ChangesEpoch config →
      c.epoch config ≠ epochOf config c.pre.tau + 1 → ∃ keys, c.post.gammaS = .keys keys) := by
  refine ⟨?_, ?_, ?_, ?_⟩
  · rintro front mid back b c x y rfl hb hc
    exact epoch_ne_of_marks hrun hb hc
  · rintro front mid back b c tickets rfl hb hmid hc
    exact gammaS_of_mark hs hrun hb hmid hc
  · rintro front back c tickets rfl hchange hc
    exact mark_of_gammaS hs hrun hchange hc
  · rintro front back c rfl hchange hskip
    obtain ⟨v, _, _, hstep, _⟩ := hrun.at_step
    unfold Block.ChangesEpoch at hchange
    rw [hstep.pre_fields.1] at hchange hskip
    rw [← hstep.post]
    cases hinstalled : State.gammaS _ with
    | keys keys => exact ⟨keys, rfl⟩
    | tickets tickets =>
      exact absurd ((hstep.gammaS_eq_tickets hchange).mp hinstalled).1.1 hskip

/-- In the small network the second block marks the two tickets of the first, and the
third installs them. -/
theorem winning_tickets_scenario :
    Scenario.second.output.ticketsMark = some [⟨ByteArr.fill 20, 0⟩, ⟨ByteArr.fill 30, 1⟩] ∧
    Scenario.third.post.gammaS = .tickets [⟨ByteArr.fill 20, 0⟩, ⟨ByteArr.fill 30, 1⟩] := by
  have hmark : Scenario.second.output.ticketsMark =
      some [⟨ByteArr.fill 20, 0⟩, ⟨ByteArr.fill 30, 1⟩] := rfl
  have hnext : Scenario.third.epoch Scenario.config = Scenario.second.epoch Scenario.config + 1 :=
    rfl
  obtain ⟨_, hinstalled, _⟩ := winning_tickets_agree rfl Scenario.run
  exact ⟨hmark, hinstalled [Scenario.first] [] [] Scenario.second Scenario.third _ rfl hmark
    (by simp) hnext⟩

end CppJam.Safrole
