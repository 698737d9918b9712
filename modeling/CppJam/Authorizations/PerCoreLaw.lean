import CppJam.Authorizations.PoolInvariant

/-!
# The law of one core

A block should add one authorizer from the queue to every pool, consume the
oldest occurrence of the authorizer used on the core, and keep the newest
authorizers within the bound. `std::erase` removes every occurrence instead, and a
pool from which an authorizer was used draws a second time when it is not full.
The law therefore holds exactly for the blocks that use authorizers held once by
full pools, apart from one coincidence.
-/

namespace CppJam.Authorizations

open Bytes Checks Slots

variable {config : Config} {s : State} {input : Input}

/-- The input names each core at most once and only existing cores. -/
structure NamesCoresOnce (config : Config) (input : Input) : Prop where
  nodup : (input.auths.map CoreAuthorizer.core).Nodup
  core_lt : ∀ auth ∈ input.auths, auth.core.toNat < config.coresCount.toNat

/-- The pool without the oldest occurrence of the used authorizer, if the input names the
core, followed by the drawn authorizer and cut to its newest elements. -/
def lawfulPool (config : Config) (input : Input) (core : ℕ) (pool : List AuthorizerHash)
    (drawn : AuthorizerHash) : List AuthorizerHash :=
  match usedAt input core with
  | [] => (pool ++ [drawn]).rtake config.authPoolMaxSize.toNat
  | a :: _ => (pool.erase a ++ [drawn]).rtake config.authPoolMaxSize.toNat

/-- The block returns, and the new pool of every core is the lawful one. -/
def PerCoreLaw (config : Config) (s : State) (input : Input) : Prop :=
  ∃ post, transition config s input = .ok post ∧
    ∀ core < config.coresCount.toNat, ∀ pool drawn, s.authPools[core]? = some pool →
      drawnAt config s input.slot core = some drawn →
      post.1.authPools[core]? = some (lawfulPool config input core pool drawn)

/-- A used authorizer that the pool holds is held once and the pool is full; or it is held
twice, once at the end, and is the one that is drawn. -/
def UsedCleanly (config : Config) (pool : List AuthorizerHash) (a drawn : AuthorizerHash) :
    Prop :=
  a ∈ pool → (pool.count a = 1 ∧ pool.length = config.authPoolMaxSize.toNat) ∨
    (pool.count a = 2 ∧ pool.getLast? = some a ∧ drawn = a)

/-- Removing every occurrence of an element held once is removing the oldest. -/
theorem filter_eq_erase_of_count_eq_one {pool : List AuthorizerHash} {a : AuthorizerHash}
    (hcount : pool.count a = 1) : pool.filter (fun b => b ≠ a) = pool.erase a := by
  induction pool with
  | nil => rfl
  | cons b pool ih =>
    by_cases hb : b = a
    · subst hb
      rw [List.count_cons_self] at hcount
      have hnot : b ∉ pool := List.count_eq_zero.mp (by omega)
      rw [List.filter_cons_of_neg (by simp), List.erase_cons_head, List.filter_eq_self]
      intro c hc
      exact decide_eq_true (fun hcb => hnot (hcb ▸ hc))
    · rw [List.count_cons_of_ne hb] at hcount
      rw [List.filter_cons_of_pos (by simpa using hb), ih hcount,
        List.erase_cons_tail (by simpa using hb)]

/-- For an element held twice, removing every occurrence and drawing gives what removing
the oldest gives exactly when the other occurrence is last and is drawn. -/
theorem filter_append_eq_erase_iff {pool : List AuthorizerHash} {a drawn : AuthorizerHash}
    (hcount : pool.count a = 2) :
    pool.filter (fun b => b ≠ a) ++ [drawn] = pool.erase a ↔
      pool.getLast? = some a ∧ drawn = a := by
  rcases List.eq_nil_or_concat pool with rfl | ⟨front, last, rfl⟩
  · cases hcount
  · rw [List.concat_eq_append, List.count_append, List.count_singleton] at hcount
    rw [List.concat_eq_append, List.filter_append, List.getLast?_concat]
    by_cases hlast : last = a
    · subst hlast
      rw [beq_self_eq_true, if_pos rfl] at hcount
      have hfront : front.count last = 1 := by omega
      have hmem : last ∈ front := List.count_pos_iff.mp (by omega)
      rw [List.erase_append_left _ hmem, filter_eq_erase_of_count_eq_one hfront]
      simp
    · rw [if_neg (by simpa using hlast)] at hcount
      have hmem : a ∈ front := List.count_pos_iff.mp (by omega)
      rw [List.erase_append_left _ hmem, List.filter_cons_of_pos (by simpa using hlast)]
      constructor
      · intro heq
        obtain ⟨heq, _⟩ := List.append_inj' heq rfl
        rw [List.filter_nil] at heq
        have hzero : (front.filter (fun b => b ≠ a) ++ [last]).count a = 0 := by
          simp [List.count_eq_zero, Ne.symm hlast]
        rw [heq, List.count_erase_self] at hzero
        omega
      · rintro ⟨hsome, _⟩
        exact absurd (Option.some.inj hsome) hlast

section Core

variable {slot : UInt32} {core : ℕ} {drawn : AuthorizerHash} {pool : List AuthorizerHash}

/-- A core that is not named draws one authorizer. -/
theorem coreTransition_nil (hdrawn : queueing config s slot core = .ok drawn)
    (hpos : 1 ≤ config.authPoolMaxSize.toNat)
    (hmax : pool.length ≤ config.authPoolMaxSize.toNat) :
    coreTransition config s slot core pool [] =
      .ok ((pool ++ [drawn]).rtake config.authPoolMaxSize.toNat) :=
  coreTransition_eq_ok hmax rfl (finish_unused hdrawn hpos hmax)

/-- An authorizer that the pool does not hold changes nothing. -/
theorem coreTransition_of_not_mem {a : AuthorizerHash} (ha : a ∉ pool) :
    coreTransition config s slot core pool [a] = coreTransition config s slot core pool [] := by
  simp only [coreTransition, List.foldlM_cons, List.foldlM_nil]
  rw [useAuthorizer_of_not_mem (c := ⟨pool, false⟩) ha]
  rfl

/-- An authorizer that the pool holds is removed everywhere, and one or two are drawn. -/
theorem coreTransition_of_mem (hdrawn : queueing config s slot core = .ok drawn)
    (hmax : pool.length ≤ config.authPoolMaxSize.toNat) {a : AuthorizerHash} (ha : a ∈ pool) :
    coreTransition config s slot core pool [a] =
      .ok (if (pool.filter (fun b => b ≠ a) ++ [drawn]).length < config.authPoolMaxSize.toNat
        then pool.filter (fun b => b ≠ a) ++ [drawn] ++ [drawn]
        else pool.filter (fun b => b ≠ a) ++ [drawn]) := by
  refine coreTransition_eq_ok hmax ?_ (finish_used hdrawn _)
  rw [List.foldlM_cons, useAuthorizer_of_mem (c := ⟨pool, false⟩) hdrawn ha]
  rfl

/-- With one used authorizer, the new pool is the lawful one exactly when the authorizer is
used cleanly. -/
theorem coreTransition_lawful_iff (hdrawn : queueing config s slot core = .ok drawn)
    (hpos : 1 ≤ config.authPoolMaxSize.toNat)
    (hmax : pool.length ≤ config.authPoolMaxSize.toNat) (a : AuthorizerHash) :
    coreTransition config s slot core pool [a] =
        .ok ((pool.erase a ++ [drawn]).rtake config.authPoolMaxSize.toNat) ↔
      UsedCleanly config pool a drawn := by
  by_cases ha : a ∈ pool
  · have hlength := length_filter_add_count pool a
    have hcount := List.count_pos_iff.mpr ha
    have herase := List.length_erase_of_mem ha
    have hall : (pool.erase a ++ [drawn]).rtake config.authPoolMaxSize.toNat =
        pool.erase a ++ [drawn] := by
      rw [List.rtake, List.length_append, List.length_singleton, Nat.sub_eq_zero_of_le (by omega),
        List.drop_zero]
    have hnew : (pool.filter (fun b => b ≠ a) ++ [drawn]).length =
        pool.length - pool.count a + 1 := by
      rw [List.length_append, List.length_singleton]
      omega
    rw [coreTransition_of_mem hdrawn hmax ha, hall, hnew, Except.ok.injEq, UsedCleanly]
    simp only [ha, forall_const]
    by_cases hroom : pool.length - pool.count a + 1 < config.authPoolMaxSize.toNat
    · rw [if_pos hroom, List.append_left_inj]
      constructor
      · intro heq
        have htwo : pool.count a = 2 := by
          have hlengths := congrArg List.length heq
          rw [List.length_append, List.length_singleton] at hlengths
          omega
        exact .inr ⟨htwo, (filter_append_eq_erase_iff htwo).mp heq⟩
      · rintro (⟨hone, hfull⟩ | ⟨htwo, hlast⟩)
        · omega
        · exact (filter_append_eq_erase_iff htwo).mpr hlast
    · have hone : pool.count a = 1 ∧ pool.length = config.authPoolMaxSize.toNat := by omega
      rw [if_neg hroom, filter_eq_erase_of_count_eq_one hone.1]
      exact ⟨fun _ => .inl hone, fun _ => rfl⟩
  · rw [coreTransition_of_not_mem ha, List.erase_of_not_mem ha]
    exact ⟨fun _ h => absurd h ha, fun _ => coreTransition_nil hdrawn hpos hmax⟩

end Core

/-- Among authorizers that name different cores, one is alone on its core. -/
theorem filter_core_eq {auths : List CoreAuthorizer} {auth : CoreAuthorizer}
    (hnodup : (auths.map CoreAuthorizer.core).Nodup) (hauth : auth ∈ auths) :
    auths.filter (fun other => other.core.toNat = auth.core.toNat) = [auth] := by
  induction auths with
  | nil => cases hauth
  | cons other auths ih =>
    rw [List.map_cons, List.nodup_cons] at hnodup
    obtain ⟨hfresh, hnodup⟩ := hnodup
    rcases List.mem_cons.mp hauth with rfl | hauth
    · rw [List.filter_cons_of_pos (by simp), List.cons_inj_right, List.filter_eq_nil_iff]
      intro other hother hcore
      have hcore : other.core = auth.core := UInt16.toNat_inj.mp (of_decide_eq_true hcore)
      exact hfresh (hcore ▸ List.mem_map_of_mem hother)
    · have hne : ¬other.core.toNat = auth.core.toNat := by
        intro hcore
        exact hfresh (UInt16.toNat_inj.mp hcore ▸ List.mem_map_of_mem hauth)
      rw [List.filter_cons_of_neg (by simpa using hne), ih hnodup hauth]

/-- A core that is named has the one authorizer that names it. -/
theorem NamesCoresOnce.usedAt_eq (hinput : NamesCoresOnce config input) {auth : CoreAuthorizer}
    (hauth : auth ∈ input.auths) : usedAt input auth.core.toNat = [auth.authorizer] := by
  rw [usedAt, filter_core_eq hinput.nodup hauth]
  rfl

/-- A core is not named, or has the one authorizer that names it. -/
theorem NamesCoresOnce.usedAt_cases (hinput : NamesCoresOnce config input) (core : ℕ) :
    usedAt input core = [] ∨ ∃ auth ∈ input.auths, auth.core.toNat = core ∧
      usedAt input core = [auth.authorizer] := by
  by_cases hnamed : ∃ auth ∈ input.auths, auth.core.toNat = core
  · obtain ⟨auth, hauth, rfl⟩ := hnamed
    exact .inr ⟨auth, hauth, rfl, hinput.usedAt_eq hauth⟩
  · refine .inl ?_
    rw [usedAt, List.map_eq_nil_iff, List.filter_eq_nil_iff]
    intro auth hauth hcore
    exact hnamed ⟨auth, hauth, of_decide_eq_true hcore⟩

/-- In a well-formed state the authorizer of the queue is the one that is drawn. -/
theorem WellFormed.queueing_of_drawnAt (hs : WellFormed config s) {slot : UInt32} {core : ℕ}
    {drawn : AuthorizerHash} (hcore : core < config.coresCount.toNat)
    (hdrawn : drawnAt config s slot core = some drawn) :
    queueing config s slot core = .ok drawn := by
  obtain ⟨drawn', hdrawn', hqueueing⟩ := hs.queueing_eq slot hcore
  obtain rfl : drawn = drawn' := Option.some.inj (hdrawn.symm.trans hdrawn')
  exact hqueueing

/-- **When a block obeys the law of its cores.** For every well-formed state and every input
that names each core at most once, the new pools are the lawful ones exactly when the
number of cores fits the 16-bit core index and every authorizer that its pool holds is
used cleanly. -/
theorem perCoreLaw_iff (hs : WellFormed config s) (hinput : NamesCoresOnce config input) :
    PerCoreLaw config s input ↔
      config.coresCount.toNat < 2 ^ 16 ∧
      ∀ auth ∈ input.auths, ∀ pool drawn, s.authPools[auth.core.toNat]? = some pool →
        drawnAt config s input.slot auth.core.toNat = some drawn →
        UsedCleanly config pool auth.authorizer drawn := by
  constructor
  · rintro ⟨post, hok, hlaw⟩
    obtain ⟨hcount, _, _, _, hcores⟩ := transition_eq_ok_iff.mp hok
    refine ⟨hcount, fun auth hauth pool drawn hpool hdrawn => ?_⟩
    have hcore := hinput.core_lt auth hauth
    obtain ⟨pool₀, pool', hpool₀, hpool', hstep⟩ := hcores _ hcore
    obtain rfl : pool = pool₀ := Option.some.inj (hpool.symm.trans hpool₀)
    have hused := hinput.usedAt_eq hauth
    have hlawful := hlaw _ hcore pool drawn hpool hdrawn
    rw [hpool', Option.some.injEq, lawfulPool, hused] at hlawful
    rw [hused, hlawful] at hstep
    exact (coreTransition_lawful_iff (hs.queueing_of_drawnAt hcore hdrawn) hs.poolMaxSize_pos
      (hs.pool_length pool (List.mem_of_getElem? hpool)) auth.authorizer).mp hstep
  · rintro ⟨hcount, hclean⟩
    obtain ⟨s', hok, _⟩ := transition_returns hs hcount hinput.core_lt
    refine ⟨_, hok, fun core hcore pool drawn hpool hdrawn => ?_⟩
    obtain ⟨_, _, _, _, hcores⟩ := transition_eq_ok_iff.mp hok
    obtain ⟨pool₀, pool', hpool₀, hpool', hstep⟩ := hcores core hcore
    obtain rfl : pool = pool₀ := Option.some.inj (hpool.symm.trans hpool₀)
    have hqueueing := hs.queueing_of_drawnAt hcore hdrawn
    have hmax := hs.pool_length pool (List.mem_of_getElem? hpool)
    rw [hpool', Option.some.injEq, lawfulPool]
    rcases hinput.usedAt_cases core with hused | ⟨auth, hauth, rfl, hused⟩
    · rw [hused, coreTransition_nil hqueueing hs.poolMaxSize_pos hmax, Except.ok.injEq] at hstep
      rw [hused, ← hstep]
    · have hlawful := (coreTransition_lawful_iff hqueueing hs.poolMaxSize_pos hmax
        auth.authorizer).mpr (hclean auth hauth pool drawn hpool hdrawn)
      rw [hused, hlawful, Except.ok.injEq] at hstep
      rw [hused, ← hstep]

/-- A full pool that holds the used authorizer once obeys the law. -/
theorem perCoreLaw_full_pool :
    PerCoreLaw (Scenario.network 2)
      (Scenario.state 2 ([1, 2, 3, 4, 5, 6, 7, 8].map Scenario.authorizer))
      ⟨5, [⟨1, Scenario.authorizer 3⟩]⟩ := by
  refine (perCoreLaw_iff (Scenario.wellFormed 2 (by decide)) ⟨by decide, by decide⟩).mpr
    ⟨by decide, ?_⟩
  intro auth hauth pool drawn hpool _ _
  obtain rfl := List.mem_singleton.mp hauth
  cases hpool
  exact .inl ⟨by decide, by decide⟩

/-- On a pool of one authorizer that is used, the block draws twice. -/
theorem not_perCoreLaw_partial_pool :
    WellFormed (Scenario.network 2) (Scenario.state 2 [Scenario.authorizer 1]) ∧
    NamesCoresOnce (Scenario.network 2) ⟨5, [⟨0, Scenario.authorizer 1⟩]⟩ ∧
    ¬PerCoreLaw (Scenario.network 2) (Scenario.state 2 [Scenario.authorizer 1])
      ⟨5, [⟨0, Scenario.authorizer 1⟩]⟩ := by
  refine ⟨Scenario.wellFormed 2 (by decide), ⟨by decide, by decide⟩, ?_⟩
  rintro ⟨post, hok, hlaw⟩
  have hrun : transition (Scenario.network 2) (Scenario.state 2 [Scenario.authorizer 1])
      ⟨5, [⟨0, Scenario.authorizer 1⟩]⟩ =
      .ok (⟨[[Scenario.authorizer 9, Scenario.authorizer 9],
        [Scenario.authorizer 1, Scenario.authorizer 9]],
        (Scenario.state 2 []).authQueues⟩, ()) := rfl
  cases hrun.symm.trans hok
  have hpool := hlaw 0 (by decide) _ (Scenario.authorizer 9) rfl rfl
  have hlawful : lawfulPool (Scenario.network 2) ⟨5, [⟨0, Scenario.authorizer 1⟩]⟩ 0
      [Scenario.authorizer 1] (Scenario.authorizer 9) = [Scenario.authorizer 9] := rfl
  rw [hlawful] at hpool
  cases hpool

end CppJam.Authorizations
