import CppJam.Authorizations.Pools

/-!
# The pools over runs

With a number of cores that the 16-bit core index can count, every block on a
well-formed state returns and leads to a well-formed state, whatever authorizers
it uses: no assertion fails and no empty pool is popped. After a block every pool
ends with the authorizer drawn for its slot.
-/

namespace CppJam.Authorizations

open Bytes Checks Slots

variable {config : Config} {s : State}

/-- The state after a sequence of blocks. -/
def applyAll (config : Config) (s : State) (inputs : List Input) : Except Abort State :=
  inputs.foldlM (fun s input => Prod.fst <$> transition config s input) s

/-- Every pool holds between one authorizer and the greatest number, the last of which is
the one drawn for the slot. -/
def PoolsDrawn (config : Config) (s : State) (slot : UInt32) : Prop :=
  ∀ core < config.coresCount.toNat, ∃ pool drawn, s.authPools[core]? = some pool ∧
    drawnAt config s slot core = some drawn ∧ 1 ≤ pool.length ∧
    pool.length ≤ config.authPoolMaxSize.toNat ∧ pool.getLast? = some drawn

/-- The blocks all return, keep the state well formed and the queues unchanged, and after
the last one the pools end with what was drawn for its slot. -/
def PoolInvariant (config : Config) (s : State) (inputs : List Input) : Prop :=
  ∃ s', applyAll config s inputs = .ok s' ∧ WellFormed config s' ∧
    s'.authQueues = s.authQueues ∧
    ∀ last, inputs.getLast? = some last → PoolsDrawn config s' last.slot

/-- A block that names only existing cores returns and keeps the invariant. -/
theorem transition_returns (hs : WellFormed config s) (hcount : config.coresCount.toNat < 2 ^ 16)
    {input : Input} (hcores : ∀ auth ∈ input.auths, auth.core.toNat < config.coresCount.toNat) :
    ∃ s', transition config s input = .ok (s', ()) ∧ WellFormed config s' ∧
      s'.authQueues = s.authQueues ∧ PoolsDrawn config s' input.slot := by
  have hcore : ∀ core : Fin config.coresCount.toNat, ∃ pool pool' drawn,
      s.authPools[core.val]? = some pool ∧ drawnAt config s input.slot core = some drawn ∧
      coreTransition config s input.slot core pool (usedAt input core) = .ok pool' ∧
      pool'.length ≤ config.authPoolMaxSize.toNat ∧ pool'.getLast? = some drawn := by
    intro core
    obtain ⟨pool, hpool, hmax⟩ := hs.pool_eq core.isLt
    obtain ⟨drawn, hdrawn, hqueueing⟩ := hs.queueing_eq input.slot core.isLt
    obtain ⟨pool', hpool', hmax', hlast⟩ :=
      coreTransition_returns hqueueing hs.poolMaxSize_pos hmax (usedAt input core)
    exact ⟨pool, pool', drawn, hpool, hdrawn, hpool', hmax', hlast⟩
  choose pool pool' drawn hpool hdrawn hpool' hmax hlast using hcore
  refine ⟨⟨List.ofFn pool', s.authQueues⟩, ?_, ?_, rfl, ?_⟩
  · refine transition_eq_ok_iff.mpr ⟨hcount, hcores, rfl, List.length_ofFn, ?_⟩
    intro core hcore
    exact ⟨pool ⟨core, hcore⟩, pool' ⟨core, hcore⟩, hpool ⟨core, hcore⟩, by simp [hcore],
      hpool' ⟨core, hcore⟩⟩
  · refine ⟨hs.poolMaxSize_pos, hs.queueSize_pos, List.length_ofFn, ?_, hs.queues_length,
      hs.queue_length⟩
    intro p hp
    obtain ⟨core, rfl⟩ := List.mem_ofFn.mp hp
    exact hmax core
  · intro core hcore
    refine ⟨pool' ⟨core, hcore⟩, drawn ⟨core, hcore⟩, by simp [hcore], hdrawn ⟨core, hcore⟩, ?_,
      hmax _, hlast _⟩
    refine List.length_pos_iff.mpr (fun hempty => ?_)
    have hnone := hlast ⟨core, hcore⟩
    rw [hempty] at hnone
    cases hnone

/-- **The pool invariant.** With at most 65535 cores, any sequence of blocks that name only
existing cores, however many authorizers they use on a core and whether or not the
pools hold these, returns without a failed assertion; every pool then has between one
authorizer and the greatest number, ends with the one drawn for the last slot, and the
queues are unchanged. -/
theorem poolInvariant_of_cores (hs : WellFormed config s)
    (hcount : config.coresCount.toNat < 2 ^ 16) (inputs : List Input)
    (hcores : ∀ input ∈ inputs, ∀ auth ∈ input.auths,
      auth.core.toNat < config.coresCount.toNat) :
    PoolInvariant config s inputs := by
  induction inputs generalizing s with
  | nil =>
    refine ⟨s, rfl, hs, rfl, fun last hlast => ?_⟩
    cases hlast
  | cons input inputs ih =>
    obtain ⟨hhead, htail⟩ := List.forall_mem_cons.mp hcores
    obtain ⟨mid, hstep, hmid, hqueues, hdrawn⟩ := transition_returns hs hcount hhead
    obtain ⟨s', hrun, hs', hqueues', hlast⟩ := ih hmid htail
    refine ⟨s', ?_, hs', hqueues'.trans hqueues, ?_⟩
    · rw [applyAll, List.foldlM_cons, hstep]
      exact hrun
    · cases inputs with
      | nil =>
        cases hrun
        rintro last hinput
        cases hinput
        exact hdrawn
      | cons next inputs =>
        intro last hlast'
        rw [List.getLast?_cons_cons] at hlast'
        exact hlast last hlast'

/-- Two blocks on two cores, one of which uses the same authorizer twice, the one just drawn
and an absent one. -/
theorem poolInvariant_two_blocks :
    PoolInvariant (Scenario.network 2) (Scenario.state 2 [Scenario.authorizer 1])
      [⟨5, [⟨0, Scenario.authorizer 1⟩, ⟨0, Scenario.authorizer 9⟩, ⟨0, Scenario.authorizer 1⟩,
        ⟨1, Scenario.authorizer 3⟩]⟩, ⟨6, []⟩] :=
  poolInvariant_of_cores (Scenario.wellFormed 2 (by decide)) (by decide) _ (by decide)

/-- With more cores than the index can count no block returns. -/
theorem transition_ne_ok_of_many_cores (hcount : 2 ^ 16 ≤ config.coresCount.toNat)
    (input : Input) (post : State × Unit) : transition config s input ≠ .ok post := by
  intro hok
  have hfits := (transition_eq_ok_iff.mp hok).1
  omega

/-- With 65536 cores a block without authorizers on a well-formed state never returns. -/
theorem not_poolInvariant_many_cores :
    WellFormed (Scenario.network 65536) (Scenario.state 65536 []) ∧
    ¬PoolInvariant (Scenario.network 65536) (Scenario.state 65536 []) [⟨0, []⟩] := by
  refine ⟨Scenario.wellFormed 65536 (by decide), ?_⟩
  rintro ⟨s', hrun, _⟩
  simp only [applyAll, List.foldlM_cons, List.foldlM_nil, bind_eq_ok, map_eq_ok] at hrun
  obtain ⟨_, ⟨post, hok, _⟩, _⟩ := hrun
  exact transition_ne_ok_of_many_cores (by decide) _ _ hok

end CppJam.Authorizations
