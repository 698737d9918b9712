import CppJam.Safrole.Blocks

/-!
# The validator pipeline

The scheduled validators enter the pipeline at an epoch change, where the keys
of offenders are zeroed. They are next validators until the following epoch
change, current validators until the one after it and previous validators from
then on; nothing filters or replaces them on the way. Other parts of the protocol
may write the schedule and the offenders between any two blocks.
-/

namespace CppJam.Safrole

open Bytes Checks Containers Runs

variable {crypto : Primitives} {config : Config} {s t : State}

/-- `entered` is the schedule with every validator whose key is an offender's replaced
by zeros, at the same positions. -/
structure OffendersZeroed (offenders : List Ed25519Public) (schedule entered : ValidatorsData) :
    Prop where
  length_eq : entered.length = schedule.length
  zeroed : ∀ (i : ℕ) (validator : ValidatorData), schedule[i]? = some validator →
    validator.ed25519 ∈ offenders → entered[i]? = some ValidatorData.zero
  kept : ∀ (i : ℕ) (validator : ValidatorData), schedule[i]? = some validator →
    validator.ed25519 ∉ offenders → entered[i]? = some validator

/-- `phi` zeroes the offenders. -/
theorem offendersZeroed_phi (offenders : List Ed25519Public) (schedule : ValidatorsData) :
    OffendersZeroed offenders schedule (phi offenders schedule) := by
  refine ⟨List.length_map _, ?_, ?_⟩
  · intro i validator hvalidator hmem
    simp [phi, hvalidator, hmem]
  · intro i validator hvalidator hmem
    simp [phi, hvalidator, hmem]

/-- The commitment that `mathcal_O` returns is the ring commitment. -/
theorem mathcalO_eq_ok {pks : BandersnatchKeys} {gammaZ : RingCommitment}
    (h : mathcalO crypto config pks = .ok gammaZ) :
    gammaZ = crypto.ringCommitment config.validatorsCount pks := by
  unfold mathcalO at h
  obtain ⟨result, hresult, hvalue⟩ := bind_eq_ok.mp h
  unfold ringCommitment at hresult
  split_ifs at hresult <;> cases hresult
  · cases hvalue
  · cases hvalue
    rfl

/-- A step inside an epoch keeps the three validator sets and the commitment. -/
theorem Step.validators_kept {b : Block} (hstep : Step crypto config s b t)
    (hstay : ¬b.ChangesEpoch config) :
    t.gammaK = s.gammaK ∧ t.kappa = s.kappa ∧ t.gammaZ = s.gammaZ := by
  obtain ⟨hgammaK, hkappa, hgammaZ, _, _⟩ := hstep.advance.within_epoch hstay
  rw [hstep.pre] at hgammaK hkappa hgammaZ
  exact ⟨hgammaK, hkappa, hgammaZ⟩

/-- The first step of an epoch moves the validator sets on. -/
theorem Step.validators_moved {b : Block} (hstep : Step crypto config s b t)
    (hchange : b.ChangesEpoch config) :
    t.gammaK = phi b.pre.postOffenders b.pre.iota ∧ t.kappa = s.gammaK ∧ t.lambda = s.kappa ∧
      t.gammaZ = crypto.ringCommitment config.validatorsCount (bandersnatchKeys t.gammaK) := by
  have hchange : ChangeEpoch config b.pre b.input := hchange
  have hkeys := hstep.advance.keys
  simp only [rotateKeys, if_pos hchange, bind_eq_ok, pure_eq_ok, RotatedKeys.mk.injEq] at hkeys
  obtain ⟨gammaZ, hcommitment, hgammaK, hkappa, hlambda, rfl⟩ := hkeys
  refine ⟨hgammaK.symm, ?_, ?_, ?_⟩
  · rw [← hkappa, hstep.pre]
  · rw [← hlambda, hstep.pre]
  · rw [← hgammaK]
    exact mathcalO_eq_ok hcommitment

/-- Until the epoch changes the next and the current validators stay. -/
theorem validators_kept_of_run {trace : List Block} (hrun : Run (Step crypto config) s trace t) :
    (∀ b ∈ trace, ¬b.ChangesEpoch config) → t.gammaK = s.gammaK ∧ t.kappa = s.kappa := by
  intro hstays
  refine Prod.mk.inj (hrun.kept (fun s => (s.gammaK, s.kappa)) ?_ hstays)
  intro t b u hstep hstay
  obtain ⟨hgammaK, hkappa, _⟩ := hstep.validators_kept hstay
  rw [hgammaK, hkappa]

/-- Once the epoch has changed, the commitment is that of the next validators. -/
theorem ring_committed_of_run {trace : List Block} (hrun : Run (Step crypto config) s trace t) :
    (∃ b ∈ trace, b.ChangesEpoch config) →
      t.gammaZ = crypto.ringCommitment config.validatorsCount (bandersnatchKeys t.gammaK) := by
  refine hrun.invariant ?_ ?_
  · rintro ⟨b, hb, _⟩
    cases hb
  · rintro trace b t u _ ih hstep ⟨c, hc, hchanged⟩
    by_cases hchange : b.ChangesEpoch config
    · exact (hstep.validators_moved hchange).2.2.2
    · obtain ⟨hgammaK, _, hgammaZ⟩ := hstep.validators_kept hchange
      rw [hgammaK, hgammaZ]
      rcases List.mem_append.mp hc with hc | hc
      · exact ih ⟨c, hc, hchanged⟩
      · rw [List.mem_singleton.mp hc] at hchanged
        exact absurd hchanged hchange

/-- **The validator pipeline.** For three consecutive blocks of a run that change the
epoch, the next validators held from the first until the second, the current
validators held from the second until the third and the previous validators
installed by the third are one and the same set: the schedule to which the first
block is applied with its offenders zeroed. In every state of the run after an epoch
change the ring commitment is that of the next validators. -/
theorem validator_pipeline {trace : List Block} (hrun : Run (Step crypto config) s trace t) :
    (∀ (front mid₁ mid₂ back : List Block) (c₁ c₂ c₃ : Block),
      trace = front ++ c₁ :: (mid₁ ++ c₂ :: (mid₂ ++ c₃ :: back)) →
      c₁.ChangesEpoch config → c₂.ChangesEpoch config → c₃.ChangesEpoch config →
      (∀ b ∈ mid₁, ¬b.ChangesEpoch config) → (∀ b ∈ mid₂, ¬b.ChangesEpoch config) →
      ∃ entered, OffendersZeroed c₁.pre.postOffenders c₁.pre.iota entered ∧
        (∀ (held rest : List Block) (u : State), mid₁ = held ++ rest →
          Run (Step crypto config) s (front ++ c₁ :: held) u → u.gammaK = entered) ∧
        (∀ (held rest : List Block) (u : State), mid₂ = held ++ rest →
          Run (Step crypto config) s (front ++ c₁ :: (mid₁ ++ c₂ :: held)) u →
          u.kappa = entered) ∧
        c₃.post.lambda = entered) ∧
    ∀ (front back : List Block) (u : State), trace = front ++ back →
      Run (Step crypto config) s front u → (∃ b ∈ front, b.ChangesEpoch config) →
      u.gammaZ = crypto.ringCommitment config.validatorsCount (bandersnatchKeys u.gammaK) := by
  refine ⟨?_, fun _ _ _ _ hfront hchanged => ring_committed_of_run hfront hchanged⟩
  rintro front mid₁ mid₂ back c₁ c₂ c₃ rfl h₁ h₂ h₃ hstays₁ hstays₂
  have hnext : ∀ (held rest : List Block) (u : State), mid₁ = held ++ rest →
      Run (Step crypto config) s (front ++ c₁ :: held) u →
      u.gammaK = phi c₁.pre.postOffenders c₁.pre.iota := by
    rintro held rest u rfl hheld
    obtain ⟨_, w, _, hstep, hrest⟩ := hheld.at_step
    obtain ⟨hkept, _⟩ :=
      validators_kept_of_run hrest (fun b hb => hstays₁ b (List.mem_append_left _ hb))
    exact hkept.trans (hstep.validators_moved h₁).1
  have hcurrent : ∀ (held rest : List Block) (u : State), mid₂ = held ++ rest →
      Run (Step crypto config) s (front ++ c₁ :: (mid₁ ++ c₂ :: held)) u →
      u.kappa = phi c₁.pre.postOffenders c₁.pre.iota := by
    rintro held rest u rfl hheld
    rw [← List.cons_append, ← List.append_assoc] at hheld
    obtain ⟨v, w, hfront, hstep, hrest⟩ := hheld.at_step
    obtain ⟨_, hkept⟩ :=
      validators_kept_of_run hrest (fun b hb => hstays₂ b (List.mem_append_left _ hb))
    rw [hkept, (hstep.validators_moved h₂).2.1]
    exact hnext mid₁ [] v (List.append_nil _).symm hfront
  refine ⟨_, offendersZeroed_phi _ _, hnext, hcurrent, ?_⟩
  have hwhole : front ++ c₁ :: (mid₁ ++ c₂ :: (mid₂ ++ c₃ :: back)) =
      front ++ c₁ :: (mid₁ ++ c₂ :: mid₂) ++ c₃ :: back := by simp
  rw [hwhole] at hrun
  obtain ⟨v, w, hfront, hstep, _⟩ := hrun.at_step
  rw [← hstep.post, (hstep.validators_moved h₃).2.2.1]
  exact hcurrent mid₂ [] v (List.append_nil _).symm hfront

/-- The block of epoch 1 that enters validator 2, an offender, into the pipeline. -/
def Scenario.entering : Block := block { state 2 with postOffenders := [ByteArr.fill 2] } 2 []

/-- The first block of epoch 2. -/
def Scenario.passing : Block := block { entering.post with postOffenders := [] } 4 []

/-- The first block of epoch 3. -/
def Scenario.leaving : Block := block passing.post 6 []

/-- In the small network an offender enters the pipeline as zeros and leaves it so,
although it is no offender any more at the later epoch changes. -/
theorem validator_pipeline_scenario :
    Scenario.leaving.post.lambda = [ValidatorData.zero] ∧
    Scenario.leaving.post.gammaZ = Scenario.crypto.ringCommitment
      Scenario.config.validatorsCount (bandersnatchKeys Scenario.leaving.post.gammaK) := by
  have hrun : Run (Step Scenario.crypto Scenario.config) (Scenario.state 2)
      [Scenario.entering, Scenario.passing, Scenario.leaving] Scenario.leaving.post :=
    ((Run.nil.snoc ⟨rfl, rfl, rfl⟩).snoc ⟨rfl, rfl, rfl⟩).snoc ⟨rfl, rfl, rfl⟩
  obtain ⟨hpipeline, hring⟩ := validator_pipeline hrun
  constructor
  · obtain ⟨entered, hentered, _, _, hlambda⟩ := hpipeline [] [] [] [] Scenario.entering
      Scenario.passing Scenario.leaving rfl (by decide) (by decide) (by decide) (by simp) (by simp)
    rw [hlambda]
    have hzero := hentered.zeroed 0 _ rfl (List.mem_singleton_self _)
    obtain ⟨validator, rfl⟩ := List.length_eq_one_iff.mp hentered.length_eq
    cases hzero
    rfl
  · exact hring _ [] _ (List.append_nil _).symm hrun ⟨Scenario.entering, by simp, by decide⟩

end CppJam.Safrole
