import CppJam.Authorizations.Transition

/-!
# The transition core by core

The loops of the transition work on all cores, but what happens to one core
depends on its own pool and queue, on the slot and on the authorizers that name
it. `coreTransition` runs the stages for one core; the transition returns exactly
when every core's own transition does, and collects their results.
-/

namespace CppJam.Authorizations

open Bytes Checks Slots

variable {config : Config} {s s' : State} {input : Input}

/-- The authorizers that the input names for a core, in order. -/
def usedAt (input : Input) (core : ℕ) : List AuthorizerHash :=
  (input.auths.filter (fun auth => auth.core.toNat = core)).map CoreAuthorizer.authorizer

/-- The stages of the transition for one core with the given pool. -/
def coreTransition (config : Config) (s : State) (slot : UInt32) (core : ℕ)
    (pool used : List AuthorizerHash) : Except Abort (List AuthorizerHash) := do
  failIf (¬pool.length ≤ config.authPoolMaxSize.toNat) .assertion
  let c ← used.foldlM (fun c a => useAuthorizer config s slot core a c) ⟨pool, false⟩
  let c ← popOldest config c
  let c ← fillPool config s slot core c
  return c.pool

/-- A loop over the cores ends when their number fits the index, and updates each once. -/
theorem forEachCore_eq_ok {body : ℕ → CorePool → Except Abort CorePool}
    {cores cores' : List CorePool} (hlength : cores.length = config.coresCount.toNat) :
    forEachCore config body cores = .ok cores' ↔
      config.coresCount.toNat < 2 ^ 16 ∧ Slotwise body cores cores' := by
  simp only [forEachCore, bind_eq_ok, failIf_eq_ok, pure_eq_ok, not_le]
  constructor
  · rintro ⟨_, hloop, _, hcount, rfl⟩
    rw [min_eq_left hcount.le, ← hlength] at hloop
    exact ⟨hcount, foldlM_range_modifyAt.mp hloop⟩
  · rintro ⟨hcount, hcores⟩
    refine ⟨cores', ?_, (), hcount, rfl⟩
    rw [min_eq_left hcount.le, ← hlength]
    exact foldlM_range_modifyAt.mpr hcores

/-- The stages of the transition for one core, from copying its pool on. -/
def coreStages (config : Config) (s : State) (input : Input) (core : ℕ) (c : CorePool) :
    Except Abort (List AuthorizerHash) :=
  copyPool config s core c >>= fun c =>
    ((input.auths.filter (fun auth => auth.core.toNat = core)).foldlM (fun c auth =>
      useAuthorizer config s input.slot auth.core.toNat auth.authorizer c) c >>= fun c =>
    (popOldest config c >>= fun c =>
    (fillPool config s input.slot core c >>= fun c => .ok c.pool)))

/-- The transition runs the stages of all cores side by side. -/
theorem transition_eq_ok_iff_stages {post : State × Unit} :
    transition config s input = .ok post ↔
      config.coresCount.toNat < 2 ^ 16 ∧
      (∀ auth ∈ input.auths, auth.core.toNat < config.coresCount.toNat) ∧
      post.1.authQueues = s.authQueues ∧
      Slotwise (coreStages config s input)
        (List.replicate config.coresCount.toNat ⟨[], false⟩) post.1.authPools := by
  have hempty : (List.replicate config.coresCount.toNat (⟨[], false⟩ : CorePool)).length =
      config.coresCount.toNat := List.length_replicate
  simp only [transition, bind_eq_ok, pure_eq_ok]
  constructor
  · rintro ⟨copied, hcopied, used, hused, popped, hpopped, filled, hfilled, rfl⟩
    obtain ⟨hcount, hcopied⟩ := (forEachCore_eq_ok hempty).mp hcopied
    have hlength := hcopied.length_eq.trans hempty
    obtain ⟨hbounds, hused⟩ := foldlM_modifyAt.mp hused
    obtain ⟨_, hpopped⟩ := (forEachCore_eq_ok (hused.length_eq.trans hlength)).mp hpopped
    obtain ⟨_, hfilled⟩ :=
      (forEachCore_eq_ok (hpopped.length_eq.trans (hused.length_eq.trans hlength))).mp hfilled
    rw [hlength] at hbounds
    refine ⟨hcount, hbounds, rfl, ?_⟩
    exact slotwise_bind.mpr ⟨copied, hcopied, slotwise_bind.mpr ⟨used, hused,
      slotwise_bind.mpr ⟨popped, hpopped, slotwise_bind.mpr ⟨filled, hfilled,
        slotwise_ok_iff.mpr rfl⟩⟩⟩⟩
  · rintro ⟨hcount, hbounds, hqueues, hstages⟩
    obtain ⟨copied, hcopied, hstages⟩ := slotwise_bind.mp hstages
    obtain ⟨used, hused, hstages⟩ := slotwise_bind.mp hstages
    obtain ⟨popped, hpopped, hstages⟩ := slotwise_bind.mp hstages
    obtain ⟨filled, hfilled, hpools⟩ := slotwise_bind.mp hstages
    have hlength := hcopied.length_eq.trans hempty
    rw [← hlength] at hbounds
    refine ⟨copied, (forEachCore_eq_ok hempty).mpr ⟨hcount, hcopied⟩, used,
      foldlM_modifyAt.mpr ⟨hbounds, hused⟩, popped, ?_, filled, ?_, ?_⟩
    · exact (forEachCore_eq_ok (hused.length_eq.trans hlength)).mpr ⟨hcount, hpopped⟩
    · exact (forEachCore_eq_ok (hpopped.length_eq.trans (hused.length_eq.trans hlength))).mpr
        ⟨hcount, hfilled⟩
    · rw [slotwise_ok_iff.mp hpools, ← hqueues]

/-- The updates of a core are those by the authorizers that name it. -/
theorem foldlM_usedAt (core : ℕ) (auths : List CoreAuthorizer) (slot : UInt32) (c : CorePool) :
    (auths.filter (fun auth => auth.core.toNat = core)).foldlM (fun c auth =>
        useAuthorizer config s slot auth.core.toNat auth.authorizer c) c =
      (usedAt ⟨slot, auths⟩ core).foldlM (fun c a => useAuthorizer config s slot core a c) c := by
  unfold usedAt
  induction auths generalizing c with
  | nil => rfl
  | cons auth auths ih =>
    by_cases hcore : auth.core.toNat = core
    · simp only [List.filter_cons_of_pos, hcore, decide_true, List.map_cons, List.foldlM_cons, ih]
    · simp only [List.filter_cons_of_neg, hcore, decide_false, Bool.false_eq_true,
        not_false_eq_true, ih]

/-- The stages of a core read its pool and run its own transition. -/
theorem coreStages_eq_ok {core : ℕ} {c : CorePool} {pool' : List AuthorizerHash} :
    coreStages config s input core c = .ok pool' ↔
      ∃ pool, s.authPools[core]? = some pool ∧
        coreTransition config s input.slot core pool (usedAt input core) = .ok pool' := by
  simp only [coreStages, copyPool, coreTransition, bind_eq_ok, element_eq_ok, failIf_eq_ok,
    pure_eq_ok, Except.ok.injEq, foldlM_usedAt]
  constructor
  · rintro ⟨_, ⟨pool, hpool, _, hmax, rfl⟩, hstages⟩
    exact ⟨pool, hpool, (), hmax, hstages⟩
  · rintro ⟨pool, hpool, _, hmax, hstages⟩
    exact ⟨_, ⟨pool, hpool, (), hmax, rfl⟩, hstages⟩

/-- **The transition core by core.** It returns exactly when the number of cores fits the
16-bit index, every used authorizer names a core, and the transition of every core
returns; the new pools are the results of the cores, and the queues stay. -/
theorem transition_eq_ok_iff {post : State × Unit} :
    transition config s input = .ok post ↔
      config.coresCount.toNat < 2 ^ 16 ∧
      (∀ auth ∈ input.auths, auth.core.toNat < config.coresCount.toNat) ∧
      post.1.authQueues = s.authQueues ∧
      post.1.authPools.length = config.coresCount.toNat ∧
      ∀ core < config.coresCount.toNat, ∃ pool pool', s.authPools[core]? = some pool ∧
        post.1.authPools[core]? = some pool' ∧
        coreTransition config s input.slot core pool (usedAt input core) = .ok pool' := by
  rw [transition_eq_ok_iff_stages]
  refine and_congr_right fun _ => and_congr_right fun _ => and_congr_right fun _ => ?_
  constructor
  · rintro ⟨hlength, hcores⟩
    refine ⟨by simpa using hlength, ?_⟩
    intro core hcore
    obtain ⟨pool', hpool', hstages⟩ := hcores core ⟨[], false⟩ (by simp [hcore])
    obtain ⟨pool, hpool, hcoreTransition⟩ := coreStages_eq_ok.mp hstages
    exact ⟨pool, pool', hpool, hpool', hcoreTransition⟩
  · rintro ⟨hlength, hcores⟩
    refine ⟨by simpa using hlength, ?_⟩
    intro core c hc
    have hcore : core < config.coresCount.toNat := by
      simpa using (List.getElem?_eq_some_iff.mp hc).1
    obtain ⟨pool, pool', hpool, hpool', hcoreTransition⟩ := hcores core hcore
    exact ⟨pool', hpool', coreStages_eq_ok.mpr ⟨pool, hpool, hcoreTransition⟩⟩

/-- A core reads nothing of the state but its own queue. -/
theorem queueing_congr {t : State} {slot : UInt32} {core : ℕ}
    (hqueue : s.authQueues[core]? = t.authQueues[core]?) :
    queueing config s slot core = queueing config t slot core := by
  unfold queueing element
  rw [hqueue]

/-- The transition of a core reads nothing of the state but its own queue. -/
theorem coreTransition_congr {t : State} {slot : UInt32} {core : ℕ}
    {pool used : List AuthorizerHash} (hqueue : s.authQueues[core]? = t.authQueues[core]?) :
    coreTransition config s slot core pool used = coreTransition config t slot core pool used := by
  simp only [coreTransition, useAuthorizer, fillPool, queueing_congr hqueue]

end CppJam.Authorizations
