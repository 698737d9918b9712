import CppJam.AppState.Steps

/-!
# Calls of callbacks

What an action adds to the callbacks registered and called for each stage, and to the
results that they return. Calls are made at one place of each stage, and `run` goes
through the stages in order.
-/

namespace CppJam.AppState

variable {Callback : Type} {m m' : Manager Callback} {action : Action Callback}

/-- The callbacks registered for a stage, after an action. -/
def Action.registers (stage : Stage) (callbacks : List Callback) : Action Callback → List Callback
  | register stage' callback => if stage' = stage then callbacks ++ [callback] else callbacks
  | _ => callbacks

/-- The callbacks of a stage that were called, after an action. -/
def Action.calls (stage : Stage) (callbacks : List Callback) : Action Callback → List Callback
  | call stage' callback => if stage' = stage then callbacks ++ [callback] else callbacks
  | _ => callbacks

/-- What the callbacks of a stage returned, after an action. -/
def Action.answers (stage : Stage) (results : List Bool) : Action Callback → List Bool
  | answer stage' (some result) => if stage' = stage then results ++ [result] else results
  | _ => results

/-- The order of the stages. -/
def Stage.position : Stage → ℕ
  | prepare => 1
  | launch => 2
  | shutdown => 3

/-- The stage that `run` has reached. -/
def Pc.position : Pc → ℕ
  | before => 0
  | enter stage | loop stage | test stage | call stage | inside stage | failed stage | pop stage
  | leave stage => stage.position
  | look | waiting => 2
  | discard | check | returned | threw _ => 3

/-- The step after a callback belongs to its stage, or `run` is over. -/
theorem Stage.position_le_answered (stage : Stage) (result : Option Bool) :
    stage.position ≤ (stage.answered result).position := by
  rcases result with _ | _ | _ <;> cases stage <;> decide

/-- `run` does not go back to an earlier stage. -/
theorem Move.position_le (hmove : Move m action m') : m.pc.position ≤ m'.pc.position := by
  cases hmove with
  | start => exact Nat.zero_le _
  | startUnshared => exact Nat.zero_le _
  | enter state queue stage => cases stage <;> exact Nat.le_refl _
  | enterWrong state queue stage => exact Stage.position_le_answered stage none
  | loopNext state queue stage => cases stage <;> exact Nat.le_refl _
  | answer state queue stage result => exact stage.position_le_answered result
  | leave state queue stage =>
    cases stage with
    | prepare => exact Nat.le_succ 1
    | launch => exact Nat.le_refl 2
    | shutdown => exact Nat.le_refl 3
  | lookOther => exact Nat.le_succ 2
  | wake => exact Nat.le_succ 2
  | _ => exact Nat.le_refl _

/-- A callback of the launch stage is about to be called after the state was tested. -/
theorem Move.of_call_launch (hmove : Move m action m') (hpc : m'.pc = .call .launch) :
    action = .test ∧ m.state = .starting := by
  cases hmove with
  | testPassed queue stage =>
    cases hpc
    exact ⟨rfl, rfl⟩
  | enter state queue stage hstate => cases stage <;> cases hpc
  | loopNext state queue stage hqueue => cases stage <;> cases hpc
  | answer state queue stage result =>
    rcases result with _ | _ | _ <;> cases stage <;> cases hpc
  | leave state queue stage => cases stage <;> cases hpc
  | register state queue pc stage callback hunlocked hstate =>
    obtain rfl : pc = .call .launch := hpc
    cases hunlocked
  | refuse state queue pc stage callback hunlocked hstate =>
    obtain rfl : pc = .call .launch := hpc
    cases hunlocked
  | _ => cases hpc

/-- A callback is called at the place for its stage. -/
theorem Move.of_call {stage : Stage} {callback : Callback}
    (hmove : Move m (.call stage callback) m') :
    m.pc = .call stage ∧ m'.pc = .inside stage ∧ m'.state = m.state := by
  cases hmove with
  | call state queue stage callback rest hqueue => exact ⟨rfl, rfl, rfl⟩

end CppJam.AppState
