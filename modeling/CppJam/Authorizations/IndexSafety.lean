import CppJam.Authorizations.Pools

/-!
# Accesses by index

The loops over all cores stay within the vectors that the transition has made or
was given, but the loop over the used authorizers takes the core as it stands in
the input. `accesses` lists every access by index that the transition performs,
with the size of the vector at that time. In a well-formed state all of them are
inside exactly when every used authorizer names a core.
-/

namespace CppJam.Authorizations

open Bytes Checks Slots

variable {config : Config} {s : State} {input : Input}

/-- The vectors that the transition accesses by index. -/
inductive Place where
  | pools
  | deleted
  | authPools
  | authQueues
  /-- The queue of one core. -/
  | queue
  /-- `new_state.auth_pools`. -/
  | newPools
  deriving DecidableEq

/-- An access by index to a vector. -/
structure Access where
  place : Place
  index : ℕ
  /-- Size of the vector. -/
  size : ℕ
  deriving DecidableEq

/-- The access is inside the vector. -/
def Access.InBounds (access : Access) : Prop := access.index < access.size

instance (access : Access) : Decidable access.InBounds :=
  inferInstanceAs (Decidable (access.index < access.size))

/-- Accesses of a draw from the queue of a core; the queue itself is read after the check
of its size and the division. -/
def drawAccesses (config : Config) (s : State) (slot : UInt32) (core : ℕ) : List Access :=
  ⟨.authQueues, core, s.authQueues.length⟩ ::
    match s.authQueues[core]? with
    | some queue =>
      if queue.length = config.authQueueSize.toNat ∧ config.authQueueSize.toNat ≠ 0 then
        [⟨.queue, slot.toNat % config.authQueueSize.toNat, queue.length⟩]
      else []
    | none => []

/-- Accesses of the copy of a core's pool. -/
def copyAccesses (config : Config) (s : State) (cores : List CorePool) (core : ℕ) :
    List Access :=
  ⟨.authPools, core, s.authPools.length⟩ ::
    match s.authPools[core]? with
    | some pool =>
      if pool.length ≤ config.authPoolMaxSize.toNat then [⟨.pools, core, cores.length⟩] else []
    | none => []

/-- Accesses of the use of an authorizer. -/
def useAccesses (config : Config) (s : State) (slot : UInt32) (cores : List CorePool)
    (auth : CoreAuthorizer) : List Access :=
  ⟨.pools, auth.core.toNat, cores.length⟩ ::
    match cores[auth.core.toNat]? with
    | some c =>
      if (erase c.pool auth.authorizer).2 ≠ 0 then
        ⟨.deleted, auth.core.toNat, cores.length⟩ :: drawAccesses config s slot auth.core.toNat
      else []
    | none => []

/-- Accesses of the removal of a core's oldest authorizer. -/
def popAccesses (cores : List CorePool) (core : ℕ) : List Access :=
  ⟨.deleted, core, cores.length⟩ ::
    match cores[core]? with
    | some c => if c.deleted then [] else [⟨.pools, core, cores.length⟩]
    | none => []

/-- Accesses of the draw for a core's pool. -/
def fillAccesses (config : Config) (s : State) (slot : UInt32) (cores : List CorePool)
    (core : ℕ) : List Access :=
  ⟨.pools, core, cores.length⟩ ::
    match cores[core]? with
    | some c =>
      if c.pool.length < config.authPoolMaxSize.toNat then drawAccesses config s slot core else []
    | none => []

/-- Accesses of the loop over all cores with the given body. Once the 16-bit index has
started again at 0 the loop repeats them. -/
def forEachCoreAccesses (config : Config) (body : ℕ → CorePool → Except Abort CorePool)
    (access : List CorePool → ℕ → List Access) (cores : List CorePool) : List Access :=
  emitted (fun cores core => modifyAt .undefinedBehaviour cores core (body core)) access
    (List.range (min config.coresCount.toNat (2 ^ 16))) cores

/-- The accesses of a later stage, if the stage before it ends. -/
def following (cores : Except Abort (List CorePool)) (access : List CorePool → List Access) :
    List Access :=
  match cores with
  | .ok cores => access cores
  | .error _ => []

/-- One round of the loop over the used authorizers. -/
def useRound (config : Config) (s : State) (slot : UInt32) (cores : List CorePool)
    (auth : CoreAuthorizer) : Except Abort (List CorePool) :=
  modifyAt .undefinedBehaviour cores auth.core.toNat
    (useAuthorizer config s slot auth.core.toNat auth.authorizer)

/-- All accesses by index of `authorizations::transition`, in order. -/
def accesses (config : Config) (s : State) (input : Input) : List Access :=
  let empty := List.replicate config.coresCount.toNat ⟨[], false⟩
  forEachCoreAccesses config (copyPool config s) (copyAccesses config s) empty ++
  following (forEachCore config (copyPool config s) empty) fun copied =>
  emitted (useRound config s input.slot) (useAccesses config s input.slot) input.auths copied ++
  following (input.auths.foldlM (useRound config s input.slot) copied) fun used =>
  forEachCoreAccesses config (fun _ => popOldest config) popAccesses used ++
  following (forEachCore config (fun _ => popOldest config) used) fun popped =>
  forEachCoreAccesses config (fillPool config s input.slot)
    (fillAccesses config s input.slot) popped ++
  following (forEachCore config (fillPool config s input.slot) popped) fun filled =>
  (List.range config.coresCount.toNat).flatMap fun core =>
    [⟨.pools, core, filled.length⟩, ⟨.newPools, core, config.coresCount.toNat⟩]

/-- Every access of the transition is inside its vector. -/
def IndexSafe (config : Config) (s : State) (input : Input) : Prop :=
  ∀ access ∈ accesses config s input, access.InBounds

instance (config : Config) (s : State) (input : Input) : Decidable (IndexSafe config s input) :=
  inferInstanceAs (Decidable (∀ access ∈ accesses config s input, access.InBounds))

/-! ## Each stage -/

/-- A loop over all cores keeps the number of cores. -/
theorem length_of_forEachCore {body : ℕ → CorePool → Except Abort CorePool}
    {cores cores' : List CorePool} (hlength : cores.length = config.coresCount.toNat)
    (hcores : forEachCore config body cores = .ok cores') :
    cores'.length = config.coresCount.toNat :=
  ((forEachCore_eq_ok hlength).mp hcores).2.length_eq.trans hlength

/-- The accesses of a loop over all cores are inside when those of each round are. -/
theorem forEachCoreAccesses_inBounds {body : ℕ → CorePool → Except Abort CorePool}
    {access : List CorePool → ℕ → List Access} {cores : List CorePool}
    (hlength : cores.length = config.coresCount.toNat)
    (haccess : ∀ core < config.coresCount.toNat, ∀ cores : List CorePool,
      cores.length = config.coresCount.toNat → ∀ a ∈ access cores core, a.InBounds) :
    ∀ a ∈ forEachCoreAccesses config body access cores, a.InBounds := by
  refine forall_mem_emitted (I := fun cores => cores.length = config.coresCount.toNat) ?_ ?_ hlength
  · intro cores core cores' hcores hround
    exact (modifyAt_slotwise.mp hround).2.length_eq.trans hcores
  · intro core hcore cores hcores
    have hlt : core < config.coresCount.toNat :=
      lt_of_lt_of_le (List.mem_range.mp hcore) (Nat.min_le_left _ _)
    exact haccess core hlt cores hcores

/-- A core of a well-formed state can draw from its queue. -/
theorem WellFormed.drawAccesses_inBounds (hs : WellFormed config s) (slot : UInt32) {core : ℕ}
    (hcore : core < config.coresCount.toNat) :
    ∀ a ∈ drawAccesses config s slot core, a.InBounds := by
  have hqueues := hs.queues_length
  rw [drawAccesses, List.forall_mem_cons]
  refine ⟨by rwa [Access.InBounds, hqueues], ?_⟩
  cases hqueue : s.authQueues[core]? with
  | none => simp
  | some queue =>
    have hlength := hs.queue_length queue (List.mem_of_getElem? hqueue)
    simp only
    split_ifs
    · rw [List.forall_mem_singleton, Access.InBounds, hlength]
      exact Nat.mod_lt _ hs.queueSize_pos
    · simp

/-- Copying the pool of a core stays inside. -/
theorem WellFormed.copyAccesses_inBounds (hs : WellFormed config s) {core : ℕ}
    (hcore : core < config.coresCount.toNat) {cores : List CorePool}
    (hlength : cores.length = config.coresCount.toNat) :
    ∀ a ∈ copyAccesses config s cores core, a.InBounds := by
  rw [copyAccesses, List.forall_mem_cons]
  refine ⟨by rwa [Access.InBounds, hs.pools_length], ?_⟩
  cases s.authPools[core]? with
  | none => simp
  | some pool =>
    simp only
    split_ifs
    · rwa [List.forall_mem_singleton, Access.InBounds, hlength]
    · simp

/-- Using an authorizer stays inside when it names a core. -/
theorem WellFormed.useAccesses_inBounds (hs : WellFormed config s) (slot : UInt32)
    {auth : CoreAuthorizer} (hcore : auth.core.toNat < config.coresCount.toNat)
    {cores : List CorePool} (hlength : cores.length = config.coresCount.toNat) :
    ∀ a ∈ useAccesses config s slot cores auth, a.InBounds := by
  rw [useAccesses, List.forall_mem_cons]
  refine ⟨by rwa [Access.InBounds, hlength], ?_⟩
  cases cores[auth.core.toNat]? with
  | none => simp
  | some c =>
    simp only
    split_ifs
    · rw [List.forall_mem_cons]
      exact ⟨by rwa [Access.InBounds, hlength], hs.drawAccesses_inBounds slot hcore⟩
    · simp

/-- Dropping the oldest authorizer of a core stays inside. -/
theorem popAccesses_inBounds {core : ℕ} (hcore : core < config.coresCount.toNat)
    {cores : List CorePool} (hlength : cores.length = config.coresCount.toNat) :
    ∀ a ∈ popAccesses cores core, a.InBounds := by
  rw [popAccesses, List.forall_mem_cons]
  refine ⟨by rwa [Access.InBounds, hlength], ?_⟩
  cases cores[core]? with
  | none => simp
  | some c =>
    simp only
    split_ifs
    · simp
    · rwa [List.forall_mem_singleton, Access.InBounds, hlength]

/-- Drawing for the pool of a core stays inside. -/
theorem WellFormed.fillAccesses_inBounds (hs : WellFormed config s) (slot : UInt32) {core : ℕ}
    (hcore : core < config.coresCount.toNat) {cores : List CorePool}
    (hlength : cores.length = config.coresCount.toNat) :
    ∀ a ∈ fillAccesses config s slot cores core, a.InBounds := by
  rw [fillAccesses, List.forall_mem_cons]
  refine ⟨by rwa [Access.InBounds, hlength], ?_⟩
  cases cores[core]? with
  | none => simp
  | some c =>
    simp only
    split_ifs
    · exact hs.drawAccesses_inBounds slot hcore
    · simp

/-- The accesses of a later stage are inside when they are after every result of the stage
before it. -/
theorem following_inBounds {cores : Except Abort (List CorePool)}
    {access : List CorePool → List Access}
    (haccess : ∀ cores', cores = .ok cores' → ∀ a ∈ access cores', a.InBounds) :
    ∀ a ∈ following cores access, a.InBounds := by
  cases cores with
  | error _ => simp [following]
  | ok cores' => exact haccess cores' rfl

/-! ## The whole transition -/

/-- If every used authorizer names a core, all accesses are inside. -/
theorem WellFormed.indexSafe (hs : WellFormed config s)
    (hauths : ∀ auth ∈ input.auths, auth.core.toNat < config.coresCount.toNat) :
    IndexSafe config s input := by
  have hempty : (List.replicate config.coresCount.toNat (⟨[], false⟩ : CorePool)).length =
      config.coresCount.toNat := List.length_replicate
  have huse : ∀ (cores : List CorePool) (auth : CoreAuthorizer) (cores' : List CorePool),
      cores.length = config.coresCount.toNat →
      useRound config s input.slot cores auth = .ok cores' →
      cores'.length = config.coresCount.toNat := by
    intro cores auth cores' hcores hround
    exact (modifyAt_slotwise.mp hround).2.length_eq.trans hcores
  simp only [IndexSafe, accesses, List.forall_mem_append]
  refine ⟨forEachCoreAccesses_inBounds hempty fun core hcore cores hcores =>
    hs.copyAccesses_inBounds hcore hcores, following_inBounds fun copied hcopied => ?_⟩
  have hcopied := length_of_forEachCore hempty hcopied
  rw [List.forall_mem_append]
  refine ⟨forall_mem_emitted huse (fun auth hauth cores hcores =>
    hs.useAccesses_inBounds _ (hauths auth hauth) hcores) hcopied,
    following_inBounds fun used hused => ?_⟩
  have hused : used.length = config.coresCount.toNat :=
    (foldlM_modifyAt.mp hused).2.length_eq.trans hcopied
  rw [List.forall_mem_append]
  refine ⟨forEachCoreAccesses_inBounds hused fun core hcore cores hcores =>
    popAccesses_inBounds hcore hcores, following_inBounds fun popped hpopped => ?_⟩
  have hpopped := length_of_forEachCore hused hpopped
  rw [List.forall_mem_append]
  refine ⟨forEachCoreAccesses_inBounds hpopped fun core hcore cores hcores =>
    hs.fillAccesses_inBounds _ hcore hcores, following_inBounds fun filled hfilled => ?_⟩
  have hfilled := length_of_forEachCore hpopped hfilled
  rw [List.forall_mem_flatMap]
  intro core hcore
  rw [List.mem_range] at hcore
  rw [List.forall_mem_cons, List.forall_mem_singleton]
  exact ⟨by rwa [Access.InBounds, hfilled], hcore⟩

/-- In a well-formed state the pools of all cores can be copied. -/
theorem WellFormed.copyPools_returns (hs : WellFormed config s)
    (hcount : config.coresCount.toNat < 2 ^ 16) {empty : List CorePool}
    (hempty : empty.length = config.coresCount.toNat) :
    ∃ copied, forEachCore config (copyPool config s) empty = .ok copied ∧
      copied.length = config.coresCount.toNat := by
  have hloop : ∃ copied, (List.range (min config.coresCount.toNat (2 ^ 16))).foldlM
      (fun cores core => modifyAt .undefinedBehaviour cores core (copyPool config s core)) empty =
        .ok copied ∧ copied.length = config.coresCount.toNat := by
    refine foldlM_total (I := fun cores : List CorePool =>
      cores.length = config.coresCount.toNat) ?_ hempty
    intro core hcore cores hcores
    have hlt : core < config.coresCount.toNat :=
      lt_of_lt_of_le (List.mem_range.mp hcore) (Nat.min_le_left _ _)
    obtain ⟨pool, hpool, hmax⟩ := hs.pool_eq hlt
    refine ⟨cores.set core ⟨pool, false⟩, ?_, by rwa [List.length_set]⟩
    refine modifyAt_eq_ok.mpr ⟨_, _, List.getElem?_eq_getElem (hcores ▸ hlt), ?_, rfl⟩
    simp only [copyPool, bind_eq_ok, element_eq_ok, failIf_eq_ok, pure_eq_ok]
    exact ⟨pool, hpool, (), not_not.mpr hmax, rfl⟩
  obtain ⟨copied, hcopied, hlength⟩ := hloop
  refine ⟨copied, ?_, hlength⟩
  simp only [forEachCore, bind_eq_ok, failIf_eq_ok, pure_eq_ok, not_le]
  exact ⟨copied, hcopied, (), hcount, rfl⟩

/-- In a well-formed state authorizers that name cores can be used. -/
theorem WellFormed.useAuthorizers_returns (hs : WellFormed config s) (slot : UInt32)
    {auths : List CoreAuthorizer}
    (hauths : ∀ auth ∈ auths, auth.core.toNat < config.coresCount.toNat) {cores : List CorePool}
    (hcores : cores.length = config.coresCount.toNat) :
    ∃ used, auths.foldlM (useRound config s slot) cores = .ok used ∧
      used.length = config.coresCount.toNat := by
  refine foldlM_total (I := fun cores : List CorePool =>
    cores.length = config.coresCount.toNat) ?_ hcores
  intro auth hauth cores hcores
  have hlt := hauths auth hauth
  obtain ⟨drawn, _, hdrawn⟩ := hs.queueing_eq slot hlt
  obtain ⟨c, hc⟩ : ∃ c, cores[auth.core.toNat]? = some c :=
    ⟨_, List.getElem?_eq_getElem (hcores ▸ hlt)⟩
  by_cases hmem : auth.authorizer ∈ c.pool
  · exact ⟨_, modifyAt_eq_ok.mpr ⟨c, _, hc, useAuthorizer_of_mem hdrawn hmem, rfl⟩,
      by rwa [List.length_set]⟩
  · exact ⟨_, modifyAt_eq_ok.mpr ⟨c, _, hc, useAuthorizer_of_not_mem hmem, rfl⟩,
      by rwa [List.length_set]⟩

/-- The transition reaches the use of the first authorizer that names no core. -/
theorem WellFormed.outside_access (hs : WellFormed config s) {front back : List CoreAuthorizer}
    {auth : CoreAuthorizer} (hauths : input.auths = front ++ auth :: back)
    (hfront : ∀ auth ∈ front, auth.core.toNat < config.coresCount.toNat)
    (hauth : config.coresCount.toNat ≤ auth.core.toNat) :
    ⟨.pools, auth.core.toNat, config.coresCount.toNat⟩ ∈ accesses config s input := by
  have hcount : config.coresCount.toNat < 2 ^ 16 := lt_of_le_of_lt hauth auth.core.toNat_lt
  obtain ⟨copied, hcopied, hlength⟩ := hs.copyPools_returns hcount List.length_replicate
  obtain ⟨used, hused, husedLength⟩ := hs.useAuthorizers_returns input.slot hfront hlength
  have haccess : ⟨.pools, auth.core.toNat, config.coresCount.toNat⟩ ∈
      useAccesses config s input.slot used auth := by
    rw [useAccesses, husedLength]
    exact List.mem_cons_self
  rw [accesses, hcopied, hauths]
  exact List.mem_append_right _ (List.mem_append_left _ (mem_emitted hused haccess))

/-- **Index safety.** In a well-formed state every access of the transition is inside its
vector exactly when every used authorizer names a core. -/
theorem indexSafe_iff (hs : WellFormed config s) (input : Input) :
    IndexSafe config s input ↔
      ∀ auth ∈ input.auths, auth.core.toNat < config.coresCount.toNat := by
  constructor
  · intro hsafe
    -- the first authorizer that names no core is used after all before it were
    cases hfirst : input.auths.find? (fun auth => config.coresCount.toNat ≤ auth.core.toNat) with
    | none =>
      intro auth hauth
      simpa using List.find?_eq_none.mp hfirst auth hauth
    | some bad =>
      obtain ⟨hbad, front, back, hsplit, hfront⟩ := List.find?_eq_some_iff_append.mp hfirst
      have hout := hsafe _ (hs.outside_access hsplit (by simpa using hfront) (by simpa using hbad))
      simp only [Access.InBounds, decide_eq_true_eq] at hout hbad
      omega
  · exact hs.indexSafe

/-- Two used authorizers of a network with two cores. -/
theorem indexSafe_iff_two_cores :
    IndexSafe (Scenario.network 2) (Scenario.state 2 [Scenario.authorizer 1])
      ⟨5, [⟨0, Scenario.authorizer 1⟩, ⟨1, Scenario.authorizer 3⟩]⟩ :=
  (indexSafe_iff (Scenario.wellFormed 2 (by decide)) _).mpr (by decide)

/-- An authorizer for a third core is used outside the pools of two cores. -/
theorem not_indexSafe_third_core :
    WellFormed (Scenario.network 2) (Scenario.state 2 [Scenario.authorizer 1]) ∧
    ¬IndexSafe (Scenario.network 2) (Scenario.state 2 [Scenario.authorizer 1])
      ⟨5, [⟨2, Scenario.authorizer 1⟩]⟩ := by
  refine ⟨Scenario.wellFormed 2 (by decide), ?_⟩
  decide

end CppJam.Authorizations
