import CppJam.AppState.Callbacks

/-!
# Callbacks of the shutdown stage

The callbacks that were registered for the shutdown stage and not called yet are those in
its queue, place by place. When the stage is over there are none, and none can be added.
-/

namespace CppJam.AppState

variable {Callback : Type} {m m' : Manager Callback} {action : Action Callback}

/-- Callbacks of the shutdown stage, by the place that `run` has reached. -/
def Pc.ShutdownAt (queue registered called : List Callback) : Pc → Prop
  | inside .shutdown | failed .shutdown | pop .shutdown =>
    queue ≠ [] ∧ registered = called ++ queue.tail
  | leave .shutdown | check | returned => registered = called
  | threw _ => True
  | _ => registered = called ++ queue

/-- A callback that can be added to the shutdown stage is added to the account. -/
theorem Pc.ShutdownAt.register {pc : Pc} {state : State} {queue registered called : List Callback}
    (hshutdown : pc.ShutdownAt queue registered called) (hfits : pc.Fits state)
    (hpc : pc.unlocked) (hstate : state.rank ≤ State.shuttingDown.rank) (callback : Callback) :
    pc.ShutdownAt (queue ++ [callback]) (registered ++ [callback]) called := by
  have hready : state ≠ .readyToStop := by
    rintro rfl
    exact absurd hstate (by decide)
  have happend : registered = called ++ queue →
      registered ++ [callback] = called ++ (queue ++ [callback]) := by
    rintro rfl
    exact List.append_assoc _ _ _
  cases pc with
  | before => exact happend hshutdown
  | enter stage => exact happend hshutdown
  | inside stage =>
    cases stage with
    | prepare => exact happend hshutdown
    | launch => exact happend hshutdown
    | shutdown =>
      obtain ⟨hqueue, rfl⟩ := hshutdown
      refine ⟨by simp, ?_⟩
      rw [List.tail_append_of_ne_nil hqueue, List.append_assoc]
  | look => exact happend hshutdown
  | waiting => exact happend hshutdown
  | check => exact absurd hfits hready
  | returned => exact absurd hfits hready
  | threw e => trivial
  | discard | loop | test | call | failed | pop | leave => cases hpc

/-- Every step keeps account of the callbacks of the shutdown stage. -/
theorem Move.shutdownAt (hmove : Move m action m') (hfits : m.pc.Fits m.state)
    {registered called : List Callback}
    (hshutdown : m.pc.ShutdownAt (m.queue .shutdown) registered called) :
    m'.pc.ShutdownAt (m'.queue .shutdown) (action.registers .shutdown registered)
      (action.calls .shutdown called) := by
  cases hmove with
  | start state queue => exact hshutdown
  | startUnshared state queue => trivial
  | enter state queue stage hstate => cases stage <;> exact hshutdown
  | enterWrong state queue stage hstate => trivial
  | discard state queue => exact hshutdown
  | loopEmpty state queue stage hqueue =>
    cases stage with
    | prepare => exact hshutdown
    | launch => exact hshutdown
    | shutdown => exact Eq.trans hshutdown (by simp [hqueue, Action.calls])
  | loopNext state queue stage hqueue => cases stage <;> exact hshutdown
  | testPassed queue stage => cases stage <;> exact hshutdown
  | testFailed state queue stage hstate =>
    cases stage with
    | prepare => exact hshutdown
    | launch => exact hshutdown
    | shutdown => exact absurd (hfits.elim id id) hstate
  | call state queue stage callback rest hqueue =>
    cases stage with
    | prepare => exact hshutdown
    | launch => exact hshutdown
    | shutdown =>
      refine ⟨by simp [hqueue], Eq.trans hshutdown ?_⟩
      simp [Action.calls, hqueue]
  | answer state queue stage result =>
    rcases result with _ | result
    · trivial
    · cases stage <;> cases result <;> exact hshutdown
  | failed state queue stage => cases stage <;> exact hshutdown
  | pop state queue stage =>
    cases stage with
    | prepare => exact hshutdown
    | launch => exact hshutdown
    | shutdown => exact hshutdown.2
  | leave state queue stage => cases stage <;> exact hshutdown
  | lookWorks queue => exact hshutdown
  | lookOther state queue hstate => exact hshutdown
  | wake queue => exact hshutdown
  | checkPassed queue => exact hshutdown
  | checkFailed state queue hstate => trivial
  | register state queue pc stage callback hpc hstate =>
    cases stage with
    | prepare => exact hshutdown
    | launch => exact hshutdown
    | shutdown => exact hshutdown.register hfits hpc hstate callback
  | refuse state queue pc stage callback hpc hstate => exact hshutdown

end CppJam.AppState
