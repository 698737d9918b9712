import CppJam.Authorizations.Pools

/-!
# Isolation of the cores

Two runs that agree on the slot and on what belongs to one core give this core the
same new pool, however much they differ elsewhere. A block therefore only sees the
order of its authorizers within each core: any interleaving of the cores leads to
the same state.
-/

namespace CppJam.Authorizations

open Bytes Checks Slots

variable {config : Config} {s t : State} {input input' : Input} {core : ℕ}

/-- The entries of a list of authorizers that name a core, in order. -/
def naming (auths : List CoreAuthorizer) (core : ℕ) : List CoreAuthorizer :=
  auths.filter (fun auth => auth.core.toNat = core)

/-- Two runs agree on the slot and on the pool, the queue and the authorizers of a core. -/
structure AgreeOn (s t : State) (input input' : Input) (core : ℕ) : Prop where
  slot_eq : input.slot = input'.slot
  pool_eq : s.authPools[core]? = t.authPools[core]?
  queue_eq : s.authQueues[core]? = t.authQueues[core]?
  naming_eq : naming input.auths core = naming input'.auths core

/-- Runs that agree on a core use the same authorizers there. -/
theorem AgreeOn.usedAt_eq (hagree : AgreeOn s t input input' core) :
    usedAt input core = usedAt input' core :=
  congrArg (List.map CoreAuthorizer.authorizer) hagree.naming_eq

/-- Runs that agree on a core run the same transition there. -/
theorem AgreeOn.coreTransition_eq (hagree : AgreeOn s t input input' core)
    (pool : List AuthorizerHash) :
    coreTransition config s input.slot core pool (usedAt input core) =
      coreTransition config t input'.slot core pool (usedAt input' core) := by
  rw [hagree.usedAt_eq, hagree.slot_eq]
  exact coreTransition_congr hagree.queue_eq

/-- Runs that agree on a core and return give it the same pool. -/
theorem AgreeOn.newPool_eq (hagree : AgreeOn s t input input' core)
    (hcore : core < config.coresCount.toNat) {post post' : State × Unit}
    (hpost : transition config s input = .ok post)
    (hpost' : transition config t input' = .ok post') :
    post.1.authPools[core]? = post'.1.authPools[core]? := by
  obtain ⟨_, _, _, _, hcores⟩ := transition_eq_ok_iff.mp hpost
  obtain ⟨_, _, _, _, hcores'⟩ := transition_eq_ok_iff.mp hpost'
  obtain ⟨pool, new, hpool, hnew, hrun⟩ := hcores core hcore
  obtain ⟨pool', new', hpool', hnew', hrun'⟩ := hcores' core hcore
  have hsame : pool = pool' := by
    rw [hagree.pool_eq, hpool'] at hpool
    exact (Option.some.inj hpool).symm
  rw [hagree.coreTransition_eq, hsame, hrun', Except.ok.injEq] at hrun
  rw [hnew, hnew', hrun]

/-- An entry is among those that name its core. -/
theorem mem_naming {auths : List CoreAuthorizer} {auth : CoreAuthorizer} :
    auth ∈ naming auths auth.core.toNat ↔ auth ∈ auths := by
  rw [naming, List.mem_filter]
  simp

/-- A block that returns still returns, with the same state, when its authorizers are
interleaved in another way. -/
theorem transition_ok_of_naming_eq {slot : UInt32} {auths auths' : List CoreAuthorizer}
    (hsame : ∀ core, naming auths core = naming auths' core) {post : State × Unit}
    (hpost : transition config s ⟨slot, auths⟩ = .ok post) :
    transition config s ⟨slot, auths'⟩ = .ok post := by
  obtain ⟨hcount, hbounds, hqueues, hlength, hcores⟩ := transition_eq_ok_iff.mp hpost
  refine transition_eq_ok_iff.mpr ⟨hcount, ?_, hqueues, hlength, ?_⟩
  · intro auth hauth
    refine hbounds auth (mem_naming.mp ?_)
    rw [hsame]
    exact mem_naming.mpr hauth
  · intro core hcore
    obtain ⟨pool, new, hpool, hnew, hrun⟩ := hcores core hcore
    have hagree : AgreeOn s s ⟨slot, auths⟩ ⟨slot, auths'⟩ core := ⟨rfl, rfl, rfl, hsame core⟩
    exact ⟨pool, new, hpool, hnew, hagree.coreTransition_eq pool ▸ hrun⟩

/-- **Isolation of the cores.** Two runs with core indices below the number of cores that
agree on the slot and on one core's pool, queue and authorizers give that core the same
pool; and two lists of authorizers with the same entries in the same order on every core
lead a state to the same result. -/
theorem core_isolation (config : Config) :
    (∀ (s t : State) (input input' : Input) (core : ℕ) (post post' : State × Unit),
      core < config.coresCount.toNat →
      (∀ auth ∈ input.auths, auth.core.toNat < config.coresCount.toNat) →
      (∀ auth ∈ input'.auths, auth.core.toNat < config.coresCount.toNat) →
      AgreeOn s t input input' core →
      transition config s input = .ok post → transition config t input' = .ok post' →
      post.1.authPools[core]? = post'.1.authPools[core]?) ∧
    (∀ (s : State) (slot : UInt32) (auths auths' : List CoreAuthorizer),
      (∀ core, naming auths core = naming auths' core) → ∀ post : State × Unit,
      (transition config s ⟨slot, auths⟩ = .ok post ↔
        transition config s ⟨slot, auths'⟩ = .ok post)) := by
  refine ⟨?_, ?_⟩
  · intro s t input input' core post post' hcore _ _ hagree hpost hpost'
    exact hagree.newPool_eq hcore hpost hpost'
  · intro s slot auths auths' hsame post
    exact ⟨transition_ok_of_naming_eq hsame, transition_ok_of_naming_eq fun c => (hsame c).symm⟩

/-- Two blocks that differ on the second core give the first core the same pool. -/
theorem core_isolation_two_cores :
    ∃ post post',
      transition (Scenario.network 2) (Scenario.state 2 [Scenario.authorizer 1])
        ⟨5, [⟨0, Scenario.authorizer 1⟩, ⟨1, Scenario.authorizer 1⟩]⟩ = .ok post ∧
      transition (Scenario.network 2)
        ⟨[[Scenario.authorizer 1], [Scenario.authorizer 2, Scenario.authorizer 3]],
          (Scenario.state 2 []).authQueues⟩
        ⟨5, [⟨1, Scenario.authorizer 3⟩, ⟨0, Scenario.authorizer 1⟩]⟩ = .ok post' ∧
      post.1.authPools[0]? = post'.1.authPools[0]? :=
  ⟨_, _, rfl, rfl, (core_isolation (Scenario.network 2)).1
    (Scenario.state 2 [Scenario.authorizer 1])
    ⟨[[Scenario.authorizer 1], [Scenario.authorizer 2, Scenario.authorizer 3]],
      (Scenario.state 2 []).authQueues⟩
    ⟨5, [⟨0, Scenario.authorizer 1⟩, ⟨1, Scenario.authorizer 1⟩]⟩
    ⟨5, [⟨1, Scenario.authorizer 3⟩, ⟨0, Scenario.authorizer 1⟩]⟩ 0 _ _ (by decide) (by decide)
    (by decide) ⟨rfl, rfl, rfl, rfl⟩ rfl rfl⟩

end CppJam.Authorizations
