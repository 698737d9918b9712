import CppJam.Authorizations.Cores
import Mathlib.Data.List.DropRight

/-!
# What a block does to one pool

In a well-formed state every core has a pool that is not over-full and a complete
queue, so the authorizer to be drawn exists and no stage can fail. The use of
authorizers never enlarges a pool and leaves the drawn authorizer last; the two
stages after it are computed here for a core from which nothing was used and for
one from which something was.
-/

namespace CppJam.Authorizations

open Bytes Checks Slots

variable {config : Config} {s : State} {slot : UInt32} {core : ℕ} {drawn : AuthorizerHash}

/-- Every core has a pool within its bound and a complete queue. -/
structure WellFormed (config : Config) (s : State) : Prop where
  poolMaxSize_pos : 1 ≤ config.authPoolMaxSize.toNat
  queueSize_pos : 1 ≤ config.authQueueSize.toNat
  pools_length : s.authPools.length = config.coresCount.toNat
  pool_length : ∀ pool ∈ s.authPools, pool.length ≤ config.authPoolMaxSize.toNat
  queues_length : s.authQueues.length = config.coresCount.toNat
  queue_length : ∀ queue ∈ s.authQueues, queue.length = config.authQueueSize.toNat

/-- The element of a core's queue for the slot. -/
def drawnAt (config : Config) (s : State) (slot : UInt32) (core : ℕ) : Option AuthorizerHash :=
  (s.authQueues[core]?).bind (fun queue => queue[slot.toNat % config.authQueueSize.toNat]?)

/-- In a well-formed state every core can draw. -/
theorem WellFormed.queueing_eq (hs : WellFormed config s) (slot : UInt32)
    (hcore : core < config.coresCount.toNat) :
    ∃ drawn, drawnAt config s slot core = some drawn ∧
      queueing config s slot core = .ok drawn := by
  have hpos := hs.queueSize_pos
  obtain ⟨queue, hqueue⟩ : ∃ queue, s.authQueues[core]? = some queue :=
    ⟨_, List.getElem?_eq_getElem (hs.queues_length ▸ hcore)⟩
  have hlength := hs.queue_length queue (List.mem_of_getElem? hqueue)
  have hindex : slot.toNat % config.authQueueSize.toNat < queue.length := by
    rw [hlength]
    exact Nat.mod_lt _ hpos
  obtain ⟨drawn, hdrawn⟩ : ∃ drawn, queue[slot.toNat % config.authQueueSize.toNat]? = some drawn :=
    ⟨_, List.getElem?_eq_getElem hindex⟩
  refine ⟨drawn, ?_, ?_⟩
  · rw [drawnAt, hqueue]
    exact hdrawn
  · simp only [queueing, bind_eq_ok, element_eq_ok, failIf_eq_ok]
    exact ⟨queue, hqueue, (), not_not.mpr hlength, (), by omega, hdrawn⟩

/-- In a well-formed state every core has a pool within the bound. -/
theorem WellFormed.pool_eq (hs : WellFormed config s) (hcore : core < config.coresCount.toNat) :
    ∃ pool, s.authPools[core]? = some pool ∧ pool.length ≤ config.authPoolMaxSize.toNat := by
  obtain ⟨pool, hpool⟩ : ∃ pool, s.authPools[core]? = some pool :=
    ⟨_, List.getElem?_eq_getElem (hs.pools_length ▸ hcore)⟩
  exact ⟨pool, hpool, hs.pool_length pool (List.mem_of_getElem? hpool)⟩

/-- The erased elements and the others are all elements. -/
theorem length_filter_add_count (pool : List AuthorizerHash) (a : AuthorizerHash) :
    (pool.filter (fun b => b ≠ a)).length + pool.count a = pool.length := by
  induction pool with
  | nil => rfl
  | cons b pool ih =>
    by_cases hb : b = a
    · subst hb
      rw [List.filter_cons_of_neg (by simp), List.count_cons_self, List.length_cons]
      omega
    · rw [List.filter_cons_of_pos (by simpa using hb), List.count_cons_of_ne hb, List.length_cons,
        List.length_cons]
      omega

/-- Using an authorizer that the pool does not hold changes nothing. -/
theorem useAuthorizer_of_not_mem {a : AuthorizerHash} {c : CorePool} (ha : a ∉ c.pool) :
    useAuthorizer config s slot core a c = .ok c := by
  have hkept : c.pool.filter (fun b => b ≠ a) = c.pool := by
    rw [List.filter_eq_self]
    rintro b hb
    exact decide_eq_true (fun hba => ha (hba ▸ hb))
  simp only [useAuthorizer, erase, List.count_eq_zero.mpr ha, hkept, ne_eq, not_true_eq_false,
    if_false]

/-- Using an authorizer that the pool holds removes it everywhere and draws one. -/
theorem useAuthorizer_of_mem (hdrawn : queueing config s slot core = .ok drawn)
    {a : AuthorizerHash} {c : CorePool} (ha : a ∈ c.pool) :
    useAuthorizer config s slot core a c =
      .ok ⟨c.pool.filter (fun b => b ≠ a) ++ [drawn], true⟩ := by
  have hcount : c.pool.count a ≠ 0 := (List.count_pos_iff.mpr ha).ne'
  simp only [useAuthorizer, erase, if_pos hcount, hdrawn]
  rfl

/-- A pool that is not full draws once more. -/
theorem fillPool_of_room (hdrawn : queueing config s slot core = .ok drawn) {c : CorePool}
    (hroom : c.pool.length < config.authPoolMaxSize.toNat) :
    fillPool config s slot core c = .ok ⟨c.pool ++ [drawn], c.deleted⟩ := by
  rw [fillPool, if_pos hroom, hdrawn]
  rfl

/-- The last two stages for a core from which nothing was used draw once and keep the newest
authorizers. -/
theorem finish_unused (hdrawn : queueing config s slot core = .ok drawn)
    (hpos : 1 ≤ config.authPoolMaxSize.toNat) {pool : List AuthorizerHash}
    (hmax : pool.length ≤ config.authPoolMaxSize.toNat) :
    (popOldest config ⟨pool, false⟩ >>= fillPool config s slot core) =
      .ok ⟨(pool ++ [drawn]).rtake config.authPoolMaxSize.toNat, false⟩ := by
  by_cases hfull : pool.length = config.authPoolMaxSize.toNat
  · cases pool with
    | nil =>
      rw [List.length_nil] at hfull
      omega
    | cons oldest pool =>
      have hpop : popOldest config ⟨oldest :: pool, false⟩ = .ok ⟨pool, false⟩ := by
        simp only [popOldest, hfull, Bool.false_eq_true, not_false_eq_true, and_self, if_true]
      have hroom : pool.length < config.authPoolMaxSize.toNat := by
        rw [← hfull]
        exact Nat.lt_succ_self _
      have hnewest : (oldest :: pool ++ [drawn]).rtake config.authPoolMaxSize.toNat =
          pool ++ [drawn] := by
        rw [List.rtake, ← hfull]
        simp
      rw [hpop, hnewest]
      exact fillPool_of_room hdrawn hroom
  · have hpop : popOldest config ⟨pool, false⟩ = .ok ⟨pool, false⟩ := by
      simp only [popOldest, hfull, and_false, if_false]
    have hall : (pool ++ [drawn]).rtake config.authPoolMaxSize.toNat = pool ++ [drawn] := by
      rw [List.rtake, List.length_append, List.length_singleton, Nat.sub_eq_zero_of_le (by omega),
        List.drop_zero]
    have hroom : pool.length < config.authPoolMaxSize.toNat := by omega
    rw [hpop, hall]
    exact fillPool_of_room hdrawn hroom

/-- The last two stages for a core from which something was used draw once more when the
pool is not full. -/
theorem finish_used (hdrawn : queueing config s slot core = .ok drawn)
    (pool : List AuthorizerHash) :
    (popOldest config ⟨pool, true⟩ >>= fillPool config s slot core) =
      .ok ⟨if pool.length < config.authPoolMaxSize.toNat then pool ++ [drawn] else pool, true⟩ := by
  have hpop : popOldest config ⟨pool, true⟩ = .ok ⟨pool, true⟩ := by
    simp only [popOldest, not_true_eq_false, false_and, if_false]
  rw [hpop]
  by_cases hroom : pool.length < config.authPoolMaxSize.toNat
  · rw [if_pos hroom]
    exact fillPool_of_room hdrawn hroom
  · rw [if_neg hroom]
    show fillPool config s slot core ⟨pool, true⟩ = _
    rw [fillPool, if_neg hroom]

/-- What the use of authorizers keeps: the pool is within its bound, and it is the old one
or ends with the drawn authorizer. -/
structure InUse (config : Config) (pool : List AuthorizerHash) (drawn : AuthorizerHash)
    (c : CorePool) : Prop where
  length_le : c.pool.length ≤ config.authPoolMaxSize.toNat
  unused : c.deleted = false → c.pool = pool
  used : c.deleted = true → c.pool.getLast? = some drawn

/-- The use of any authorizers, present or not, succeeds and keeps the bound. -/
theorem foldlM_useAuthorizer (hdrawn : queueing config s slot core = .ok drawn)
    {pool : List AuthorizerHash} (used : List AuthorizerHash) {c : CorePool}
    (hc : InUse config pool drawn c) :
    ∃ c', used.foldlM (fun c a => useAuthorizer config s slot core a c) c = .ok c' ∧
      InUse config pool drawn c' := by
  induction used generalizing c with
  | nil => exact ⟨c, rfl, hc⟩
  | cons a used ih =>
    by_cases ha : a ∈ c.pool
    · have hstep : InUse config pool drawn ⟨c.pool.filter (fun b => b ≠ a) ++ [drawn], true⟩ := by
        refine ⟨?_, ?_, ?_⟩
        · have hlength := length_filter_add_count c.pool a
          have hcount := List.count_pos_iff.mpr ha
          have hle := hc.length_le
          rw [List.length_append, List.length_singleton]
          omega
        · intro hdeleted
          cases hdeleted
        · intro _
          simp
      rw [List.foldlM_cons, useAuthorizer_of_mem hdrawn ha]
      exact ih hstep
    · rw [List.foldlM_cons, useAuthorizer_of_not_mem ha]
      exact ih hc

/-- The transition of a core is the use of authorizers followed by the last two stages. -/
theorem coreTransition_eq_ok {pool used : List AuthorizerHash} {mid c : CorePool}
    (hmax : pool.length ≤ config.authPoolMaxSize.toNat)
    (hused : used.foldlM (fun c a => useAuthorizer config s slot core a c) ⟨pool, false⟩ = .ok mid)
    (hfinish : (popOldest config mid >>= fillPool config s slot core) = .ok c) :
    coreTransition config s slot core pool used = .ok c.pool := by
  obtain ⟨popped, hpopped, hfilled⟩ := bind_eq_ok.mp hfinish
  simp only [coreTransition, bind_eq_ok, failIf_eq_ok, pure_eq_ok]
  exact ⟨(), not_not.mpr hmax, mid, hused, popped, hpopped, c, hfilled, rfl⟩

/-- For every list of used authorizers the transition of a core with a pool within its bound
returns a pool within the bound that ends with the drawn authorizer. -/
theorem coreTransition_returns (hdrawn : queueing config s slot core = .ok drawn)
    (hpos : 1 ≤ config.authPoolMaxSize.toNat) {pool : List AuthorizerHash}
    (hmax : pool.length ≤ config.authPoolMaxSize.toNat) (used : List AuthorizerHash) :
    ∃ pool', coreTransition config s slot core pool used = .ok pool' ∧
      pool'.length ≤ config.authPoolMaxSize.toNat ∧ pool'.getLast? = some drawn := by
  have hstart : InUse config pool drawn ⟨pool, false⟩ := by
    refine ⟨hmax, fun _ => rfl, fun hdeleted => ?_⟩
    cases hdeleted
  obtain ⟨⟨mid, deleted⟩, hused, hmid⟩ := foldlM_useAuthorizer hdrawn used hstart
  have hle := hmid.length_le
  cases deleted with
  | false =>
    refine ⟨_, coreTransition_eq_ok hmax hused (finish_unused hdrawn hpos hle), ?_, ?_⟩
    · simp only [List.rtake, List.length_drop]
      omega
    · simp only [List.rtake, List.getLast?_drop, List.length_append, List.length_singleton]
      rw [if_neg (by omega)]
      simp
  | true =>
    refine ⟨_, coreTransition_eq_ok hmax hused (finish_used hdrawn mid), ?_⟩
    split_ifs with hroom
    · rw [List.length_append, List.length_singleton]
      exact ⟨hroom, by simp⟩
    · exact ⟨hle, hmid.used rfl⟩

/-! ## A small network

Concrete data on which the statements below are evaluated: cores with equal pools,
and queues that hold one authorizer everywhere. -/

namespace Scenario

/-- Constants of a network with the given number of cores. -/
def network (cores : UInt32) : Config := ⟨6, 5, 12, 3, cores, 8, 80⟩

/-- The authorizer with equal octets. -/
def authorizer (k : Byte) : AuthorizerHash := ByteArr.fill k

/-- All cores have the same pool, and authorizer 9 in every place of their queues. -/
def state (cores : UInt32) (pool : List AuthorizerHash) : State :=
  ⟨List.replicate cores.toNat pool,
    List.replicate cores.toNat (List.replicate 80 (authorizer 9))⟩

/-- The state is well formed when its pool is. -/
theorem wellFormed (cores : UInt32) {pool : List AuthorizerHash} (hpool : pool.length ≤ 8) :
    WellFormed (network cores) (state cores pool) := by
  have hmax : (network cores).authPoolMaxSize.toNat = 8 := rfl
  have hsize : (network cores).authQueueSize.toNat = 80 := rfl
  refine ⟨by omega, by omega, List.length_replicate, ?_, List.length_replicate, ?_⟩
  · intro p hp
    rw [List.eq_of_mem_replicate hp]
    exact hpool
  · intro queue hqueue
    rw [List.eq_of_mem_replicate hqueue, List.length_replicate]
    rfl

end Scenario

end CppJam.Authorizations
