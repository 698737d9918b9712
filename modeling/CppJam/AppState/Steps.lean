import CppJam.AppState.StateManager
import Mathlib.Tactic.SplitIfs

/-!
# Steps of the state manager

What each step of `run` and of a registration does, place by place. From this follow two
facts that hold whatever the environment does: no step of `run` moves the state
backwards, and at each place only the state of its stage or `ShuttingDown` is possible,
as long as the environment writes nothing but `ShuttingDown`, and not over
`ReadyToStop`.
-/

namespace CppJam.AppState

variable {Callback : Type} {m m' : Manager Callback} {action : Action Callback}

/-- The steps of a manager. -/
inductive Move : Manager Callback → Action Callback → Manager Callback → Prop
  | start (state queue) : Move ⟨state, queue, .before⟩ (.start true) ⟨state, queue, .enter .prepare⟩
  | startUnshared (state queue) :
      Move ⟨state, queue, .before⟩ (.start false) ⟨state, queue, .threw notShared⟩
  | enter (state queue stage) (hstate : state = stage.entry ∨ state = .shuttingDown) :
      Move ⟨state, queue, .enter stage⟩ .advance
        ⟨state.compareExchange stage.entry stage.active, queue, stage.entered⟩
  | enterWrong (state queue stage) (hstate : ¬(state = stage.entry ∨ state = .shuttingDown)) :
      Move ⟨state, queue, .enter stage⟩ .advance ⟨state, queue, .threw stage.wrongEntry⟩
  | discard (state queue) :
      Move ⟨state, queue, .discard⟩ .advance
        ⟨state, Function.update (Function.update queue .prepare []) .launch [], .loop .shutdown⟩
  | loopEmpty (state queue stage) (hqueue : queue stage = []) :
      Move ⟨state, queue, .loop stage⟩ .advance ⟨state, queue, .leave stage⟩
  | loopNext (state queue stage) (hqueue : queue stage ≠ []) :
      Move ⟨state, queue, .loop stage⟩ .advance ⟨state, queue, stage.chosen⟩
  | testPassed (queue stage) :
      Move ⟨stage.active, queue, .test stage⟩ .test ⟨stage.active, queue, .call stage⟩
  | testFailed (state queue stage) (hstate : state ≠ stage.active) :
      Move ⟨state, queue, .test stage⟩ .test ⟨state, queue, .pop stage⟩
  | call (state queue stage callback rest) (hqueue : queue stage = callback :: rest) :
      Move ⟨state, queue, .call stage⟩ (.call stage callback) ⟨state, queue, .inside stage⟩
  | answer (state queue stage result) :
      Move ⟨state, queue, .inside stage⟩ (.answer stage result)
        ⟨state, queue, stage.answered result⟩
  | failed (state queue stage) :
      Move ⟨state, queue, .failed stage⟩ .advance
        ⟨state.compareExchange stage.active .shuttingDown, queue, .pop stage⟩
  | pop (state queue stage) :
      Move ⟨state, queue, .pop stage⟩ .advance
        ⟨state, Function.update queue stage (queue stage).tail, .loop stage⟩
  | leave (state queue stage) :
      Move ⟨state, queue, .leave stage⟩ .advance
        ⟨state.compareExchange stage.active stage.exit, queue, stage.left⟩
  | lookWorks (queue) : Move ⟨.works, queue, .look⟩ .advance ⟨.works, queue, .waiting⟩
  | lookOther (state queue) (hstate : state ≠ .works) :
      Move ⟨state, queue, .look⟩ .advance ⟨state, queue, .enter .shutdown⟩
  | wake (queue) :
      Move ⟨.shuttingDown, queue, .waiting⟩ .advance ⟨.shuttingDown, queue, .enter .shutdown⟩
  | checkPassed (queue) :
      Move ⟨.readyToStop, queue, .check⟩ .advance ⟨.readyToStop, queue, .returned⟩
  | checkFailed (state queue) (hstate : state ≠ .readyToStop) :
      Move ⟨state, queue, .check⟩ .advance ⟨state, queue, .threw notReadyToStop⟩
  | register (state queue pc stage callback) (hpc : pc.unlocked)
      (hstate : state.rank ≤ stage.active.rank) :
      Move ⟨state, queue, pc⟩ (.register stage callback)
        ⟨state, Function.update queue stage (queue stage ++ [callback]), pc⟩
  | refuse (state queue pc stage callback) (hpc : pc.unlocked)
      (hstate : stage.active.rank < state.rank) :
      Move ⟨state, queue, pc⟩ (.refuse stage callback) ⟨state, queue, pc⟩

/-- Every step that `run` takes by itself is one of the listed ones. -/
theorem Move.of_advance (hstep : m.advance = some m') : Move m .advance m' := by
  obtain ⟨state, queue, pc⟩ := m
  cases pc with
  | enter stage =>
    simp only [Manager.advance] at hstep
    split_ifs at hstep with hstate
    · cases hstep
      exact .enter state queue stage hstate
    · cases hstep
      exact .enterWrong state queue stage hstate
  | loop stage =>
    cases hqueue : queue stage with
    | nil =>
      simp only [Manager.advance, hqueue, Option.some.injEq] at hstep
      subst hstep
      exact .loopEmpty state queue stage hqueue
    | cons callback rest =>
      simp only [Manager.advance, hqueue, Option.some.injEq] at hstep
      subst hstep
      exact .loopNext state queue stage (by simp [hqueue])
  | look =>
    simp only [Manager.advance, Option.some.injEq] at hstep
    subst hstep
    split_ifs with hstate
    · subst hstate
      exact .lookWorks queue
    · exact .lookOther state queue hstate
  | waiting =>
    simp only [Manager.advance] at hstep
    split_ifs at hstep with hstate
    cases hstep
    subst hstate
    exact .wake queue
  | check =>
    simp only [Manager.advance, Option.some.injEq] at hstep
    subst hstep
    split_ifs with hstate
    · subst hstate
      exact .checkPassed queue
    · exact .checkFailed state queue hstate
  | discard => cases hstep; exact .discard state queue
  | failed stage => cases hstep; exact .failed state queue stage
  | pop stage => cases hstep; exact .pop state queue stage
  | leave stage => cases hstep; exact .leave state queue stage
  | before | test | call | inside | returned | threw => cases hstep

/-- A callback is added while the mutex can be taken and the stage is not over. -/
theorem Move.of_register [DecidableEq Callback] {stage : Stage} {callback : Callback}
    (hstep : m.exec (.register stage callback) = some m') :
    Move m (.register stage callback) m' := by
  obtain ⟨state, queue, pc⟩ := m
  simp only [Manager.exec, Manager.add] at hstep
  split_ifs at hstep with hpc hstate
  · cases hstep
  · cases hstep
    exact .register state queue pc stage callback hpc (Nat.not_lt.mp hstate)

/-- A callback is refused when the stage is over. -/
theorem Move.of_refuse [DecidableEq Callback] {stage : Stage} {callback : Callback}
    (hstep : m.exec (.refuse stage callback) = some m') :
    Move m (.refuse stage callback) m' := by
  obtain ⟨state, queue, pc⟩ := m
  simp only [Manager.exec, Manager.add] at hstep
  by_cases hstate : state.rank > stage.active.rank
  · simp only [if_pos hstate] at hstep
    split_ifs at hstep with hrefused
    cases hstep
    exact .refuse state queue pc stage callback hrefused.1 hstate
  · simp only [if_neg hstate] at hstep
    split_ifs at hstep with hrefused
    cases hrefused.2

/-- Every action is one of the listed steps. -/
theorem Move.of_exec [DecidableEq Callback] (hstep : m.exec action = some m') :
    Move m action m' := by
  cases action with
  | advance => exact Move.of_advance hstep
  | start shared =>
    obtain ⟨state, queue, pc⟩ := m
    simp only [Manager.exec] at hstep
    split_ifs at hstep with hpc hshared
    · subst hpc hshared
      cases hstep
      exact .start state queue
    · subst hpc
      cases hstep
      obtain rfl : shared = false := by simpa using hshared
      exact .startUnshared state queue
  | test =>
    obtain ⟨state, queue, pc⟩ := m
    cases pc with
    | test stage =>
      simp only [Manager.exec, Option.some.injEq] at hstep
      subst hstep
      split_ifs with hstate
      · subst hstate
        exact .testPassed queue stage
      · exact .testFailed state queue stage hstate
    | before | enter | discard | loop | call | inside | failed | pop | leave | look | waiting
    | check | returned | threw => cases hstep
  | call stage callback =>
    obtain ⟨state, queue, pc⟩ := m
    simp only [Manager.exec] at hstep
    split_ifs at hstep with hcall
    obtain ⟨rfl, hhead⟩ := hcall
    cases hstep
    obtain ⟨rest, hqueue⟩ := List.head?_eq_some_iff.mp hhead
    exact .call state queue stage callback rest hqueue
  | answer stage result =>
    obtain ⟨state, queue, pc⟩ := m
    simp only [Manager.exec] at hstep
    split_ifs at hstep with hpc
    subst hpc
    cases hstep
    exact .answer state queue stage result
  | register stage callback => exact Move.of_register hstep
  | refuse stage callback => exact Move.of_refuse hstep

/-- Comparing and exchanging does not lower the state when the new value is higher. -/
theorem State.rank_le_compareExchange {expected desired : State}
    (hrank : expected.rank ≤ desired.rank) (state : State) :
    state.rank ≤ (state.compareExchange expected desired).rank := by
  rw [State.compareExchange]
  split_ifs with hstate
  · rw [hstate]
    exact hrank
  · exact Nat.le_refl _

/-- No step of `run` moves the state backwards. -/
theorem Move.rank_le (hmove : Move m action m') : m.state.rank ≤ m'.state.rank := by
  cases hmove with
  | enter state queue stage _ =>
    exact State.rank_le_compareExchange (by cases stage <;> decide) state
  | failed state queue stage =>
    exact State.rank_le_compareExchange (by cases stage <;> decide) state
  | leave state queue stage =>
    exact State.rank_le_compareExchange (by cases stage <;> decide) state
  | _ => exact Nat.le_refl _

/-- Where `run` stands goes with the state: inside a stage the state is that of the stage
or `ShuttingDown`. -/
def Pc.Fits (state : State) : Pc → Prop
  | before => state = .init ∨ state = .shuttingDown
  | enter stage => state = stage.entry ∨ state = .shuttingDown
  | discard => state = .shuttingDown
  | loop stage | test stage | call stage | inside stage | failed stage | pop stage | leave stage =>
    state = stage.active ∨ state = .shuttingDown
  | look | waiting => state = .works ∨ state = .shuttingDown
  | check | returned => state = .readyToStop
  | threw e => e = .callback ∨ e = notShared

/-- Every step of `run` keeps state and place together. -/
theorem Move.fits (hmove : Move m action m') (hfits : m.pc.Fits m.state) :
    m'.pc.Fits m'.state := by
  cases hmove with
  | start state queue => exact hfits
  | startUnshared state queue => exact Or.inr rfl
  | enter state queue stage hstate =>
    rcases hstate with rfl | rfl
    · cases stage <;> simp [State.compareExchange, Stage.entered, Pc.Fits, Stage.active]
    · cases stage <;> simp [State.compareExchange, Stage.entered, Pc.Fits, Stage.entry]
  | enterWrong state queue stage hstate => exact absurd hfits hstate
  | discard state queue => exact Or.inr hfits
  | loopEmpty state queue stage hqueue => exact hfits
  | loopNext state queue stage hqueue => cases stage <;> exact hfits
  | testPassed queue stage => exact hfits
  | testFailed state queue stage hstate => exact hfits
  | call state queue stage callback rest hqueue => exact hfits
  | answer state queue stage result =>
    cases result with
    | none => exact Or.inl rfl
    | some result => cases stage <;> cases result <;> exact hfits
  | failed state queue stage =>
    rcases hfits with rfl | rfl
    · exact Or.inr (if_pos rfl)
    · refine Or.inr ?_
      cases stage <;> rfl
  | pop state queue stage => exact hfits
  | leave state queue stage =>
    rcases hfits with rfl | rfl
    · cases stage <;> simp [State.compareExchange, Stage.left, Pc.Fits, Stage.exit, Stage.entry]
    · cases stage <;> simp [State.compareExchange, Stage.left, Pc.Fits, Stage.active, Stage.exit]
  | lookWorks queue => exact hfits
  | lookOther state queue hstate => exact Or.inr (hfits.resolve_left hstate)
  | wake queue => exact Or.inr rfl
  | checkPassed queue => rfl
  | checkFailed state queue hstate => exact absurd hfits hstate
  | register state queue pc stage callback hpc hstate => exact hfits
  | refuse state queue pc stage callback hpc hstate => exact hfits

/-- Storing `ShuttingDown` over a state other than `ReadyToStop` keeps state and place
together. -/
theorem Pc.Fits.shuttingDown {pc : Pc} {state : State} (hfits : pc.Fits state)
    (hstate : state ≠ .readyToStop) : pc.Fits .shuttingDown := by
  cases pc with
  | discard => rfl
  | check => exact absurd hfits hstate
  | returned => exact absurd hfits hstate
  | threw e => exact hfits
  | before | enter | loop | test | call | inside | failed | pop | leave | look | waiting =>
    exact Or.inr rfl

end CppJam.AppState
