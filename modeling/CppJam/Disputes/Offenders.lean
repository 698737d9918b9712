import CppJam.Disputes.JudgedOnce

/-!
# Offenders and their mark

The keys of culprits and faults pass two validating loops and two grouped multimaps
on their way into the punish set and into the mark of the block. The punish set gains
exactly these keys, each of a current validator with a valid signature, and never
shrinks. The mark lists the keys of both sequences one after the other, so a validator
that is a culprit and has a fault in one block is listed twice.
-/

namespace CppJam.Disputes

open Bytes Checks Containers Runs

variable {Report : Type} {p : Primitives Report} {order : HashOrder} {config : Config}
  {s s' : State Report} {ext : DisputesExtrinsic}

/-- The grouped multimaps only reorder the reported keys. -/
theorem reportedKeys_perm (ext : DisputesExtrinsic) :
    (reportedKeys ext).Perm (ext.culprits.map Culprit.key ++ ext.faults.map Fault.key) := by
  have hculprits := (Multimap.foldl_emplace_items_perm Culprit.target id ext.culprits
    Multimap.empty).map (fun e => e.2.key)
  have hfaults := (Multimap.foldl_emplace_items_perm Fault.target id ext.faults
    Multimap.empty).map (fun e => e.2.key)
  refine (hculprits.append hfaults).trans ?_
  simp [Multimap.empty, Function.comp_def]

/-- The keys of an accepted extrinsic are reported once each exactly when no key is
both a culprit's and a fault's. -/
theorem Accepted.reportedKeys_nodup_iff (haccepted : Accepted p config s ext) :
    (reportedKeys ext).Nodup ↔ ∀ c ∈ ext.culprits, ∀ f ∈ ext.faults, c.key ≠ f.key := by
  have hculprits : (ext.culprits.map Culprit.key).Nodup :=
    haccepted.culprits_sorted.imp (fun h => h.ne)
  have hfaults : (ext.faults.map Fault.key).Nodup := haccepted.faults_sorted.imp (fun h => h.ne)
  rw [(reportedKeys_perm ext).nodup_iff, List.nodup_append]
  simp only [hculprits, hfaults, true_and, List.forall_mem_map]

/-- The reported keys of an accepted extrinsic are the keys that become offenders. -/
theorem Accepted.mem_reportedKeys_iff (haccepted : Accepted p config s ext)
    (hextends : Extends config s ext s') {key : Ed25519Public} :
    key ∈ reportedKeys ext ↔ key ∈ s'.psi.offenders ∧ key ∉ s.psi.offenders := by
  rw [mem_reportedKeys, hextends.offenders key]
  constructor
  · intro hreported
    refine ⟨Or.inr hreported, ?_⟩
    rcases hreported with ⟨c, hc, rfl⟩ | ⟨f, hf, rfl⟩
    · exact (haccepted.culprits_valid c hc).unpunished
    · exact (haccepted.faults_valid f hf).unpunished
  · rintro ⟨hold | hreported, hnew⟩
    · exact absurd hold hnew
    · exact hreported

/-! ## The punish set -/

/-- A current validator with this key is accused by the extrinsic, with a valid signature
of the guarantee or of the judgement. -/
def Accused (p : Primitives Report) (s : State Report) (ext : DisputesExtrinsic)
    (key : Ed25519Public) : Prop :=
  (∃ validator ∈ s.kappa, validator.ed25519 = key) ∧
    ((∃ c ∈ ext.culprits, c.key = key ∧
        p.verify c.signature (kJamGuarantee.bytes ++ c.target.bytes) key = true) ∨
      ∃ f ∈ ext.faults, f.key = key ∧
        p.verify f.signature
          ((if f.vote then kJamValid.bytes else kJamInvalid.bytes) ++ f.target.bytes) key = true)

/-- The keys that an accepted extrinsic reports are accused. -/
theorem Accepted.accused (haccepted : Accepted p config s ext) {key : Ed25519Public}
    (hkey : key ∈ reportedKeys ext) : Accused p s ext key := by
  rcases mem_reportedKeys.mp hkey with ⟨c, hc, rfl⟩ | ⟨f, hf, rfl⟩
  · have hvalid := haccepted.culprits_valid c hc
    exact ⟨hvalid.current, Or.inl ⟨c, hc, rfl, hvalid.signed⟩⟩
  · have hvalid := haccepted.faults_valid f hf
    exact ⟨hvalid.current, Or.inr ⟨f, hf, rfl, hvalid.signed⟩⟩

/-- How an accepted block changes the punish set. -/
structure PunishSetExact (p : Primitives Report) (s : State Report) (ext : DisputesExtrinsic)
    (s' : State Report) : Prop where
  /-- The new set is stored in order, without repetition. -/
  sorted : s'.psi.offenders.Pairwise (· < ·)
  /-- It consists of the old keys and those of the culprits and faults. -/
  members : ∀ key, key ∈ s'.psi.offenders ↔ key ∈ s.psi.offenders ∨
    key ∈ ext.culprits.map Culprit.key ∨ key ∈ ext.faults.map Fault.key
  /-- No culprit or fault names an old offender. -/
  fresh : ∀ key, key ∈ ext.culprits.map Culprit.key ∨ key ∈ ext.faults.map Fault.key →
    key ∉ s.psi.offenders
  /-- Whoever is added is accused with a valid signature. -/
  added : ∀ key ∈ s'.psi.offenders, key ∉ s.psi.offenders → Accused p s ext key

/-- A step keeps every offender. -/
theorem Step.offenders_subset {block : Block} (hstep : Step p config s block s') :
    s.psi.offenders ⊆ s'.psi.offenders := by
  obtain ⟨out, hout⟩ := hstep
  cases out with
  | ok data =>
    obtain ⟨_, hextends⟩ := transition_accepted hout
    exact fun key hkey => (hextends.offenders key).mpr (Or.inl hkey)
  | err code =>
    obtain rfl := transition_rejected hout
    exact List.Subset.refl _

/-- A run keeps every offender. -/
theorem offenders_subset_of_run {trace : List Block} {t : State Report}
    (hrun : Run (Step p config) s trace t) : s.psi.offenders ⊆ t.psi.offenders := by
  refine hrun.invariant ?_ ?_
  · exact List.Subset.refl _
  · intro _ _ _ _ _ ih hstep
    exact List.Subset.trans ih hstep.offenders_subset

/-- **Punish set.** An accepted block adds exactly the keys of its culprits and faults
to the offenders, all of them new keys of current validators that are accused with a
valid signature, and stores the set in order. Along a run no offender is ever dropped. -/
theorem punishSet_exact (p : Primitives Report) (config : Config) :
    (∀ order s input s' out, transition p order config s input = .ok (s', .ok out) →
      PunishSetExact p s input.disputes s') ∧
    ∀ s trace t, Run (Step p config) s trace t → s.psi.offenders ⊆ t.psi.offenders := by
  constructor
  · intro order s input s' out hok
    obtain ⟨_, haccepted, rho, _, rfl, _⟩ := transition_eq_ok_iff.mp hok
    have hextends := stateTick_extends config s input.disputes rho
    constructor
    · exact (outcome config s input.disputes).offences.newPunishSet.sorted
    · intro key
      rw [hextends.offenders key]
      simp only [List.mem_map]
    · intro key hkey
      simp only [List.mem_map] at hkey
      exact ((haccepted.mem_reportedKeys_iff hextends).mp (mem_reportedKeys.mpr hkey)).2
    · intro key hkey hnew
      exact haccepted.accused ((haccepted.mem_reportedKeys_iff hextends).mpr ⟨hkey, hnew⟩)
  · exact fun s trace t hrun => offenders_subset_of_run hrun

/-- Two culprits of a report judged bad become offenders. -/
theorem punishSet_exact_bad_verdict :
    ∃ s' out,
      transition Scenario.primitives HashOrder.insertion Scenario.config Scenario.state
        ⟨⟨[Scenario.verdict [false, false, false, false, false]],
          [Scenario.culprit 1, Scenario.culprit 2], []⟩⟩ = .ok (s', .ok out) ∧
      s'.psi.offenders = [ByteArr.fill 1, ByteArr.fill 2] ∧
      PunishSetExact Scenario.primitives Scenario.state
        ⟨[Scenario.verdict [false, false, false, false, false]],
          [Scenario.culprit 1, Scenario.culprit 2], []⟩ s' := by
  have hok : transition Scenario.primitives HashOrder.insertion Scenario.config Scenario.state
      ⟨⟨[Scenario.verdict [false, false, false, false, false]],
        [Scenario.culprit 1, Scenario.culprit 2], []⟩⟩ = .ok (_, .ok _) := rfl
  exact ⟨_, _, hok, rfl, (punishSet_exact _ _).1 _ _ _ _ _ hok⟩

/-! ## The offenders mark -/

/-- The mark lists every new offender once and nobody else. -/
structure MarkExact (s s' : State Report) (out : OutputData) : Prop where
  /-- No key is listed twice. -/
  once : out.offendersMark.Nodup
  /-- The keys are those of the new offenders. -/
  members : ∀ key, key ∈ out.offendersMark ↔ key ∈ s'.psi.offenders ∧ key ∉ s.psi.offenders

/-- **Offenders mark.** The mark of an accepted block lists every new offender once and
nobody else exactly when no validator is both a culprit and has a fault in the block. -/
theorem markExact_iff {input : Input} {out : OutputData}
    (hok : transition p order config s input = .ok (s', .ok out)) :
    MarkExact s s' out ↔
      ∀ c ∈ input.disputes.culprits, ∀ f ∈ input.disputes.faults, c.key ≠ f.key := by
  obtain ⟨_, haccepted, rho, _, rfl, rfl⟩ := transition_eq_ok_iff.mp hok
  have hextends := stateTick_extends config s input.disputes rho
  rw [← haccepted.reportedKeys_nodup_iff]
  constructor
  · exact fun hexact => hexact.once
  · exact fun hnodup => ⟨hnodup, fun _ => haccepted.mem_reportedKeys_iff hextends⟩

/-- The mark of a block with two culprits is exact. -/
theorem markExact_two_culprits :
    ∃ s' out,
      transition Scenario.primitives HashOrder.insertion Scenario.config Scenario.state
        ⟨⟨[Scenario.verdict [false, false, false, false, false]],
          [Scenario.culprit 1, Scenario.culprit 2], []⟩⟩ = .ok (s', .ok out) ∧
      MarkExact Scenario.state s' out := by
  have hok : transition Scenario.primitives HashOrder.insertion Scenario.config Scenario.state
      ⟨⟨[Scenario.verdict [false, false, false, false, false]],
        [Scenario.culprit 1, Scenario.culprit 2], []⟩⟩ = .ok (_, .ok _) := rfl
  exact ⟨_, _, hok, (markExact_iff hok).mpr (by decide)⟩

/-- A block that judges report 7 bad and report 8 good. Validator 1 guaranteed the one and
voted against the other. -/
def Scenario.bothRoles : Input :=
  ⟨⟨[verdict [false, false, false, false, false],
      { verdict [true, true, true, true, true] with target := ByteArr.fill 8 }],
    [culprit 1, culprit 2], [{ fault 1 with target := ByteArr.fill 8 }]⟩⟩

/-- A validator that is a culprit and has a fault in one block is in its mark twice. -/
theorem not_markExact_both_roles :
    ∃ s' out,
      transition Scenario.primitives HashOrder.insertion Scenario.config Scenario.state
        Scenario.bothRoles = .ok (s', .ok out) ∧
      s'.psi.offenders = [ByteArr.fill 1, ByteArr.fill 2] ∧
      out.offendersMark = [ByteArr.fill 1, ByteArr.fill 2, ByteArr.fill 1] ∧
      ¬MarkExact Scenario.state s' out := by
  refine ⟨_, _, rfl, rfl, rfl, fun hexact => ?_⟩
  have honce := hexact.once
  revert honce
  decide

end CppJam.Disputes
