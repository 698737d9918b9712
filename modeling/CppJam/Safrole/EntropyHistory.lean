import CppJam.Safrole.Blocks
import Mathlib.Data.Fintype.Basic
import Mathlib.Tactic.FinCases

/-!
# The entropy history over runs

Every accepted block mixes its entropy into the accumulator `eta_0`. The first
block of an epoch also shifts the accumulator into the history, so that `eta_1`,
`eta_2` and `eta_3` hold what the accumulator was just before the three most
recent epoch changes, however many epochs each of them skipped. Inside an epoch
the history stands still.
-/

namespace CppJam.Safrole

open Bytes Checks Containers Runs

variable {crypto : Primitives} {config : Config} {s t : State}

/-- The entry of the entropy buffer at an index. -/
def Entropy.get (eta : Entropy) : Fin 4 → OpaqueHash
  | 0 => eta.eta0
  | 1 => eta.eta1
  | 2 => eta.eta2
  | 3 => eta.eta3

/-- The accumulator after mixing in the entropy of a block. -/
def mixEntropy (crypto : Primitives) (eta0 : OpaqueHash) (b : Block) : OpaqueHash :=
  crypto.mathcalH (frown eta0 b.input.entropy).bytes

/-- The blocks of a trace that change the epoch, oldest first. -/
def epochChanges (config : Config) (trace : List Block) : List Block :=
  trace.filter (fun b => b.ChangesEpoch config)

/-- A block that changes the epoch adds one epoch change. -/
theorem length_epochChanges_of_change {trace : List Block} {b : Block}
    (hchange : b.ChangesEpoch config) :
    (epochChanges config (trace ++ [b])).length = (epochChanges config trace).length + 1 := by
  simp [epochChanges, hchange]

/-- A block inside an epoch adds none. -/
theorem length_epochChanges_of_stay {trace : List Block} {b : Block}
    (hstay : ¬b.ChangesEpoch config) :
    (epochChanges config (trace ++ [b])).length = (epochChanges config trace).length := by
  simp [epochChanges, hstay]

/-- Every step mixes its entropy in. -/
theorem Step.eta0_eq {b : Block} (hstep : Step crypto config s b t) :
    t.eta.eta0 = mixEntropy crypto s.eta.eta0 b := by
  rw [hstep.advance.eta, ← hstep.pre_fields.2.1]
  unfold rotateEntropy mixEntropy
  split_ifs <;> rfl

/-- A step inside an epoch keeps the history. -/
theorem Step.history_kept {b : Block} (hstep : Step crypto config s b t)
    (hstay : ¬b.ChangesEpoch config) {j : Fin 4} (hj : j ≠ 0) : t.eta.get j = s.eta.get j := by
  have hstay : ¬ChangeEpoch config b.pre b.input := hstay
  rw [hstep.advance.eta, ← hstep.pre_fields.2.1, rotateEntropy, if_neg hstay]
  obtain ⟨i, rfl⟩ := Fin.exists_succ_eq.mpr hj
  fin_cases i <;> rfl

/-- The first step of an epoch shifts the buffer by one. -/
theorem Step.history_shifted {b : Block} (hstep : Step crypto config s b t)
    (hchange : b.ChangesEpoch config) (j : Fin 3) : t.eta.get j.succ = s.eta.get j.castSucc := by
  have hchange : ChangeEpoch config b.pre b.input := hchange
  rw [hstep.advance.eta, ← hstep.pre_fields.2.1, rotateEntropy, if_pos hchange]
  fin_cases j <;> rfl

/-- The accumulator folds the entropy of all blocks of a run. -/
theorem eta0_eq_foldl {trace : List Block} (hrun : Run (Step crypto config) s trace t) :
    t.eta.eta0 = trace.foldl (mixEntropy crypto) s.eta.eta0 := by
  refine hrun.invariant ?_ ?_
  · rfl
  · intro trace b t u _ ih hstep
    rw [hstep.eta0_eq, ih, List.foldl_append]
    rfl

/-- An entry of the history is the accumulator just before the epoch change that lies
as many epoch changes back as the index says. -/
theorem history_eq_eta0 {trace : List Block} (hrun : Run (Step crypto config) s trace t) :
    ∀ j : Fin 4, j ≠ 0 → j.val ≤ (epochChanges config trace).length →
      ∃ front b back u, trace = front ++ b :: back ∧ b.ChangesEpoch config ∧
        (epochChanges config back).length + 1 = j.val ∧
        Run (Step crypto config) s front u ∧ t.eta.get j = u.eta.eta0 := by
  refine hrun.invariant ?_ ?_
  · intro j hj hle
    exact absurd (Fin.ext (Nat.le_zero.mp hle)) hj
  · intro trace b t u hrun ih hstep j hj hle
    by_cases hchange : b.ChangesEpoch config
    · obtain ⟨i, rfl⟩ := Fin.exists_succ_eq.mpr hj
      rw [hstep.history_shifted hchange]
      rw [length_epochChanges_of_change hchange] at hle
      by_cases hi : i = 0
      · subst hi
        exact ⟨trace, b, [], t, rfl, hchange, rfl, hrun, rfl⟩
      · have hpos : i.castSucc ≠ 0 := fun h => hi (Fin.castSucc_eq_zero_iff.mp h)
        obtain ⟨front, c, back, v, rfl, hc, hback, hfront, hv⟩ :=
          ih i.castSucc hpos (Nat.le_of_succ_le_succ hle)
        refine ⟨front, c, back ++ [b], v, by simp, hc, ?_, hfront, hv⟩
        rw [length_epochChanges_of_change hchange, hback]
        rfl
    · rw [length_epochChanges_of_stay hchange] at hle
      obtain ⟨front, c, back, v, rfl, hc, hback, hfront, hv⟩ := ih j hj hle
      refine ⟨front, c, back ++ [b], v, by simp, hc, ?_, hfront, ?_⟩
      · rw [length_epochChanges_of_stay hchange, hback]
      · rw [hstep.history_kept hchange hj, hv]

/-- A run that ends in the epoch in which it starts has no epoch change and keeps the
history. -/
theorem history_kept_of_run {trace : List Block} (hrun : Run (Step crypto config) s trace t) :
    epochOf config t.tau = epochOf config s.tau → ∀ j : Fin 4, j ≠ 0 →
      t.eta.get j = s.eta.get j := by
  refine hrun.invariant ?_ ?_
  · exact fun _ _ _ => rfl
  · intro trace b t u hrun ih hstep hsame j hj
    have hstart : epochOf config s.tau ≤ epochOf config t.tau :=
      epochOf_mono (slot_le_of_run hrun).1
    have hle := hstep.epoch_le
    rw [hstep.epoch_post] at hsame
    have hstay : ¬b.ChangesEpoch config := by
      intro hchange
      refine hstep.changeEpoch_iff.mp hchange ?_
      omega
    rw [hstep.history_kept hstay hj]
    exact ih (by omega) j hj

/-- **The entropy history.** At the end of every run of accepted blocks the
accumulator is the fold of the entropy of all blocks. For every entry `eta_j` of the
history for which the run has at least `j` epoch changes, there is the `j`-th most
recent block that changes the epoch, and `eta_j` is the accumulator of the state just
before it. Between two states of the run in the same epoch the history does not
change. -/
theorem entropy_history {trace : List Block} (hrun : Run (Step crypto config) s trace t) :
    t.eta.eta0 = trace.foldl (mixEntropy crypto) s.eta.eta0 ∧
    (∀ j : Fin 4, j ≠ 0 → j.val ≤ (epochChanges config trace).length →
      ∃ front b back u, trace = front ++ b :: back ∧ b.ChangesEpoch config ∧
        (epochChanges config back).length + 1 = j.val ∧
        Run (Step crypto config) s front u ∧ t.eta.get j = u.eta.eta0) ∧
    ∀ (front mid back : List Block) (u v : State), trace = front ++ mid ++ back →
      Run (Step crypto config) s front u → Run (Step crypto config) u mid v →
      epochOf config u.tau = epochOf config v.tau →
      v.eta.eta1 = u.eta.eta1 ∧ v.eta.eta2 = u.eta.eta2 ∧ v.eta.eta3 = u.eta.eta3 := by
  refine ⟨eta0_eq_foldl hrun, history_eq_eta0 hrun, ?_⟩
  intro _ mid _ u v _ _ hmid hsame
  have hkept := history_kept_of_run hmid hsame.symm
  exact ⟨hkept 1 (by decide), hkept 2 (by decide), hkept 3 (by decide)⟩

/-- In the small network the third block opens the second new epoch: `eta_2` is the
accumulator before the first block. -/
theorem entropy_history_scenario :
    (epochChanges Scenario.config [Scenario.first, Scenario.second, Scenario.third]).length = 2 ∧
    ∃ front b back u, [Scenario.first, Scenario.second, Scenario.third] = front ++ b :: back ∧
      b.ChangesEpoch Scenario.config ∧ (epochChanges Scenario.config back).length + 1 = 2 ∧
      Run (Step Scenario.crypto Scenario.config) (Scenario.state 1) front u ∧
      Scenario.third.post.eta.get 2 = u.eta.eta0 := by
  have hchanges : (epochChanges Scenario.config
      [Scenario.first, Scenario.second, Scenario.third]).length = 2 := rfl
  exact ⟨hchanges, (entropy_history Scenario.run).2.1 2 (by decide) (by rw [hchanges]; rfl)⟩

end CppJam.Safrole
