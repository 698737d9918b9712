import CppJam.AppState.Callbacks

/-!
# Callbacks of the prepare stage

As long as no shutdown has begun, the callbacks that were registered for the prepare stage
and not called yet are those in its queue, place by place, and all callbacks called so far
have returned `true`. Hence callbacks are called in the order of registration until one of
them fails.
-/

namespace CppJam.AppState

variable {Callback : Type} {m m' : Manager Callback} {action : Action Callback}

/-- No shutdown has begun. -/
def State.Calm (state : State) : Prop := state.rank < State.shuttingDown.rank

instance (state : State) : Decidable state.Calm := inferInstanceAs (Decidable (_ < _))

/-- The registered callbacks are those that were called, all of which have returned
`true`, and those in the queue. -/
def InStep (registered called : List Callback) (answered : List Bool) (queue : List Callback) :
    Prop :=
  registered = called ++ queue ∧ answered = called.map (fun _ => true)

/-- Callbacks of the prepare stage, by the place that `run` has reached. -/
def Pc.PrepareAt (state : State) (queue registered called : List Callback)
    (answered : List Bool) : Pc → Prop
  | before | enter .prepare | call .prepare => InStep registered called answered queue
  | loop .prepare | test .prepare => state.Calm → InStep registered called answered queue
  | inside .prepare => ∃ earlier callback, called = earlier ++ [callback] ∧ queue ≠ [] ∧
      registered = called ++ queue.tail ∧ answered = earlier.map (fun _ => true)
  | failed .prepare | threw _ => True
  | pop .prepare => state.Calm → InStep registered called answered queue.tail
  | call .launch => InStep registered called answered []
  | _ => state.Calm → InStep registered called answered []

/-- The account of the prepare stage does not depend on the state once a shutdown has
begun. -/
theorem Pc.PrepareAt.of_calm {pc : Pc} {state state' : State}
    {queue registered called : List Callback} {answered : List Bool}
    (hprepare : pc.PrepareAt state queue registered called answered)
    (hcalm : state'.Calm → state.Calm) :
    pc.PrepareAt state' queue registered called answered := by
  rcases pc with _ | stage | _ | stage | stage | stage | stage | stage | stage | stage | _ | _ | _ |
    _ | e
  all_goals try cases stage
  all_goals first | exact hprepare | exact fun h => hprepare (hcalm h)

/-- A callback that can be added to the prepare stage is added to the account. -/
theorem Pc.PrepareAt.register {pc : Pc} {state : State} {queue registered called : List Callback}
    {answered : List Bool} (hprepare : pc.PrepareAt state queue registered called answered)
    (hfits : pc.Fits state) (hpc : pc.unlocked) (hstate : state.rank ≤ State.prepare.rank)
    (callback : Callback) :
    pc.PrepareAt state (queue ++ [callback]) (registered ++ [callback]) called answered := by
  have hearly : state = .init ∨ state = .prepare := by
    revert hstate
    cases state <;> decide
  cases pc with
  | before => exact ⟨by rw [hprepare.1, List.append_assoc], hprepare.2⟩
  | enter stage =>
    cases stage with
    | prepare => exact ⟨by rw [hprepare.1, List.append_assoc], hprepare.2⟩
    | launch | shutdown => rcases hearly with rfl | rfl <;> simp [Pc.Fits, Stage.entry] at hfits
  | inside stage =>
    cases stage with
    | prepare =>
      obtain ⟨earlier, last, hcalled, hqueue, hregistered, hanswered⟩ := hprepare
      refine ⟨earlier, last, hcalled, by simp, ?_, hanswered⟩
      rw [hregistered, List.tail_append_of_ne_nil hqueue, List.append_assoc]
    | launch | shutdown => rcases hearly with rfl | rfl <;> simp [Pc.Fits, Stage.active] at hfits
  | look | waiting | check | returned => rcases hearly with rfl | rfl <;> simp [Pc.Fits] at hfits
  | threw e => trivial
  | discard | loop | test | call | failed | pop | leave => cases hpc

/-- A callback that is called is the first one of the queue. -/
theorem Pc.PrepareAt.call {state : State} {queue : Stage → List Callback} {stage : Stage}
    {registered called : List Callback} {answered : List Bool}
    (hprepare : (Pc.call stage).PrepareAt state (queue .prepare) registered called answered)
    {callback : Callback} {rest : List Callback} (hqueue : queue stage = callback :: rest) :
    (Pc.inside stage).PrepareAt state (queue .prepare) registered
      ((Action.call stage callback).calls .prepare called) answered := by
  cases stage with
  | prepare =>
    refine ⟨called, callback, rfl, by simp [hqueue], ?_, hprepare.2⟩
    simp [Action.calls, hprepare.1, hqueue]
  | launch => exact fun _ => hprepare
  | shutdown => exact hprepare

/-- After a callback of the prepare stage has returned `true`, all of them have; after
another result no account is kept. -/
theorem Pc.PrepareAt.answer {state : State} {queue : List Callback} {stage : Stage}
    {registered called : List Callback} {answered : List Bool}
    (hprepare : (Pc.inside stage).PrepareAt state queue registered called answered)
    (result : Option Bool) :
    (stage.answered result).PrepareAt state queue registered called
      ((Action.answer stage result : Action Callback).answers .prepare answered) := by
  cases stage with
  | prepare =>
    obtain ⟨earlier, callback, rfl, _, hregistered, rfl⟩ := hprepare
    rcases result with _ | _ | _
    · trivial
    · trivial
    · exact fun _ => ⟨hregistered, by simp [Action.answers]⟩
  | launch | shutdown =>
    rcases result with _ | result
    · trivial
    · cases result <;> exact hprepare

/-- Every step keeps account of the callbacks of the prepare stage. -/
theorem Move.prepareAt (hmove : Move m action m') (hfits : m.pc.Fits m.state)
    {registered called : List Callback} {answered : List Bool}
    (hprepare : m.pc.PrepareAt m.state (m.queue .prepare) registered called answered) :
    m'.pc.PrepareAt m'.state (m'.queue .prepare) (action.registers .prepare registered)
      (action.calls .prepare called) (action.answers .prepare answered) := by
  have hcalm : m'.state.Calm → m.state.Calm := Nat.lt_of_le_of_lt hmove.rank_le
  cases hmove with
  | start state queue => exact hprepare
  | startUnshared state queue => trivial
  | enter state queue stage hstate =>
    cases stage with
    | prepare => exact fun _ => hprepare
    | launch => exact fun h => hprepare (hcalm h)
    | shutdown => exact fun h => hprepare (hcalm h)
  | enterWrong state queue stage hstate => trivial
  | discard state queue => exact hprepare
  | loopEmpty state queue stage hqueue =>
    cases stage with
    | prepare => exact fun h => hqueue ▸ hprepare h
    | launch => exact hprepare
    | shutdown => exact hprepare
  | loopNext state queue stage hqueue => cases stage <;> exact hprepare
  | testPassed queue stage =>
    cases stage with
    | prepare => exact hprepare (show State.prepare.Calm by decide)
    | launch => exact hprepare (show State.starting.Calm by decide)
    | shutdown => exact hprepare
  | testFailed state queue stage hstate =>
    cases stage with
    | prepare =>
      obtain rfl := hfits.resolve_left hstate
      exact fun h => absurd h (Nat.lt_irrefl _)
    | launch => exact hprepare
    | shutdown => exact hprepare
  | call state queue stage callback rest hqueue => exact hprepare.call hqueue
  | answer state queue stage result => exact hprepare.answer result
  | failed state queue stage =>
    cases stage with
    | prepare =>
      intro h
      rcases hfits with rfl | rfl <;> exact absurd h (Nat.lt_irrefl _)
    | launch => exact fun h => hprepare (hcalm h)
    | shutdown => exact fun h => hprepare (hcalm h)
  | pop state queue stage => cases stage <;> exact hprepare
  | leave state queue stage => cases stage <;> exact fun h => hprepare (hcalm h)
  | lookWorks queue => exact hprepare
  | lookOther state queue hstate => exact hprepare
  | wake queue => exact hprepare
  | checkPassed queue => exact hprepare
  | checkFailed state queue hstate => trivial
  | register state queue pc stage callback hpc hstate =>
    cases stage with
    | prepare => exact hprepare.register hfits hpc hstate callback
    | launch => exact hprepare
    | shutdown => exact hprepare
  | refuse state queue pc stage callback hpc hstate => exact hprepare

/-- The callbacks of a stage were called in the order of registration, and all but
possibly the last one have returned `true`. -/
structure Settled (registered called : List Callback) (answered : List Bool) : Prop where
  in_order : called <+: registered
  aligned : answered.length ≤ called.length
  all_true : ∀ i, i + 1 < called.length → answered[i]? = some true

/-- Every step keeps the callbacks of the prepare stage settled. -/
theorem Move.settled (hmove : Move m action m') {registered called : List Callback}
    {answered : List Bool}
    (hprepare : m.pc.PrepareAt m.state (m.queue .prepare) registered called answered)
    (hsettled : Settled registered called answered) :
    Settled (action.registers .prepare registered) (action.calls .prepare called)
      (action.answers .prepare answered) := by
  cases hmove with
  | call state queue stage callback rest hqueue =>
    cases stage with
    | prepare =>
      obtain ⟨rfl, rfl⟩ := hprepare
      refine ⟨⟨rest, ?_⟩, ?_, ?_⟩
      · simp [Action.registers, Action.calls, hqueue]
      · simp [Action.answers, Action.calls]
      · intro i hi
        have hi : i < called.length := by simpa [Action.calls] using hi
        simp [Action.answers, hi]
    | launch => exact hsettled
    | shutdown => exact hsettled
  | answer state queue stage result =>
    rcases result with _ | result
    · exact hsettled
    · cases stage with
      | prepare =>
        obtain ⟨earlier, callback, rfl, _, _, rfl⟩ := hprepare
        refine ⟨hsettled.in_order, ?_, ?_⟩
        · simp [Action.answers, Action.calls]
        · intro i hi
          have hi : i < earlier.length := by simpa [Action.calls] using hi
          simp [Action.answers, List.getElem?_append_left, hi]
      | launch => exact hsettled
      | shutdown => exact hsettled
  | register state queue pc stage callback hpc hstate =>
    cases stage with
    | prepare =>
      refine ⟨?_, hsettled.aligned, hsettled.all_true⟩
      exact hsettled.in_order.trans (List.prefix_append registered [callback])
    | launch => exact hsettled
    | shutdown => exact hsettled
  | _ => exact hsettled

/-- Nothing happens to the callbacks of the prepare stage after it. -/
theorem Move.prepare_unchanged (hmove : Move m action m')
    (hstate : State.prepare.rank < m.state.rank) (hpc : Stage.prepare.position < m.pc.position)
    (registered called : List Callback) (answered : List Bool) :
    action.registers .prepare registered = registered ∧ action.calls .prepare called = called ∧
      action.answers .prepare answered = answered := by
  cases hmove with
  | call state queue stage callback rest hqueue =>
    cases stage with
    | prepare => exact absurd hpc (Nat.lt_irrefl _)
    | launch => exact ⟨rfl, rfl, rfl⟩
    | shutdown => exact ⟨rfl, rfl, rfl⟩
  | answer state queue stage result =>
    cases stage with
    | prepare => exact absurd hpc (Nat.lt_irrefl _)
    | launch | shutdown => rcases result with _ | result <;> exact ⟨rfl, rfl, rfl⟩
  | register state queue pc stage callback hpc hrank =>
    cases stage with
    | prepare => exact absurd hstate (Nat.not_lt.mpr hrank)
    | launch => exact ⟨rfl, rfl, rfl⟩
    | shutdown => exact ⟨rfl, rfl, rfl⟩
  | _ => exact ⟨rfl, rfl, rfl⟩

end CppJam.AppState
