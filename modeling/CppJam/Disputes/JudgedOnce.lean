import CppJam.Disputes.Effects
import CppJam.Runs

/-!
# No report is judged in two ways

The three sets of past judgements are filled by three loops over different
registries: good from faults, bad from culprits and wonky from tallies. They
stay disjoint along a run exactly when no accepted block names one report in two
of these roles.
-/

namespace CppJam.Disputes

open Bytes Checks Containers Runs

variable {Report : Type} {p : Primitives Report} {config : Config} {s s' : State Report}
  {ext : DisputesExtrinsic}

/-- The good, bad and wonky sets are pairwise disjoint. -/
structure JudgedOnce (s : State Report) : Prop where
  good_bad : ∀ r ∈ s.psi.good, r ∉ s.psi.bad
  good_wonky : ∀ r ∈ s.psi.good, r ∉ s.psi.wonky
  bad_wonky : ∀ r ∈ s.psi.bad, r ∉ s.psi.wonky

/-- No report has both a fault and a culprit, and none with a wonky verdict has
either. -/
structure SingleRole (config : Config) (s : State Report) (ext : DisputesExtrinsic) : Prop where
  fault_culprit : ∀ f ∈ ext.faults, ∀ c ∈ ext.culprits, f.target ≠ c.target
  fault_wonky : ∀ f ∈ ext.faults, ∀ v ∈ ext.verdicts, IsWonky config s v → f.target ≠ v.target
  culprit_wonky : ∀ c ∈ ext.culprits, ∀ v ∈ ext.verdicts, IsWonky config s v →
    c.target ≠ v.target

/-- The report of a culprit of an accepted extrinsic was not judged before. -/
theorem Accepted.not_judged_of_culprit (haccepted : Accepted p config s ext) {c : Culprit}
    (hc : c ∈ ext.culprits) : ¬Judged s c.target := by
  obtain ⟨v, _, htarget, hcounted, _⟩ := haccepted.culprits_backed c hc
  exact htarget ▸ hcounted.1

/-- An accepted block keeps the sets disjoint exactly when it gives every report
one role. -/
theorem judgedOnce_step_iff (hextends : Extends config s ext s')
    (haccepted : Accepted p config s ext) (hs : JudgedOnce s) :
    JudgedOnce s' ↔ SingleRole config s ext := by
  constructor
  · intro hs'
    constructor
    · intro f hf c hc heq
      exact hs'.good_bad f.target ((hextends.good _).mpr (Or.inr ⟨f, hf, rfl⟩))
        ((hextends.bad _).mpr (Or.inr ⟨c, hc, heq.symm⟩))
    · intro f hf v hv hwonky heq
      exact hs'.good_wonky f.target ((hextends.good _).mpr (Or.inr ⟨f, hf, rfl⟩))
        ((hextends.wonky _).mpr (Or.inr ⟨v, hv, hwonky, heq.symm⟩))
    · intro c hc v hv hwonky heq
      exact hs'.bad_wonky c.target ((hextends.bad _).mpr (Or.inr ⟨c, hc, rfl⟩))
        ((hextends.wonky _).mpr (Or.inr ⟨v, hv, hwonky, heq.symm⟩))
  · intro hrole
    constructor
    · intro r hgood hbad
      rcases (hextends.good r).mp hgood with hgood | ⟨f, hf, rfl⟩ <;>
        rcases (hextends.bad _).mp hbad with hbad | ⟨c, hc, htarget⟩
      · exact hs.good_bad r hgood hbad
      · exact haccepted.not_judged_of_culprit hc (htarget ▸ Or.inl hgood)
      · exact (haccepted.faults_valid f hf).contradicts
          (Or.inl ⟨haccepted.faults_negative f hf, hbad⟩)
      · exact hrole.fault_culprit f hf c hc htarget.symm
    · intro r hgood hwonky
      rcases (hextends.good r).mp hgood with hgood | ⟨f, hf, rfl⟩ <;>
        rcases (hextends.wonky _).mp hwonky with hwonky | ⟨v, hv, hnew, htarget⟩
      · exact hs.good_wonky r hgood hwonky
      · exact hnew.1.1 (htarget ▸ Or.inl hgood)
      · exact (haccepted.faults_valid f hf).notWonky hwonky
      · exact hrole.fault_wonky f hf v hv hnew htarget.symm
    · intro r hbad hwonky
      rcases (hextends.bad r).mp hbad with hbad | ⟨c, hc, rfl⟩ <;>
        rcases (hextends.wonky _).mp hwonky with hwonky | ⟨v, hv, hnew, htarget⟩
      · exact hs.bad_wonky r hbad hwonky
      · exact hnew.1.1 (htarget ▸ Or.inr (Or.inl hbad))
      · exact haccepted.not_judged_of_culprit hc (Or.inr (Or.inr hwonky))
      · exact hrole.culprit_wonky c hc v hv hnew htarget.symm

/-- One block of a run: the enumeration order of its execution and its input. -/
structure Block where
  /-- The enumeration order of the unordered containers. -/
  order : HashOrder
  /-- The input of the transition. -/
  input : Input

/-- A block that the transition accepts or rejects leads from `s` to `s'`. -/
def Step (p : Primitives Report) (config : Config) (s : State Report) (block : Block)
    (s' : State Report) : Prop :=
  ∃ out, transition p block.order config s block.input = .ok (s', out)

/-- A block and the state before it determine the state after it. -/
theorem Step.unique {block : Block} {u u' : State Report} (hstep : Step p config s block u)
    (hstep' : Step p config s block u') : u = u' := by
  obtain ⟨out, hout⟩ := hstep
  obtain ⟨out', hout'⟩ := hstep'
  rw [hout] at hout'
  cases hout'
  rfl

/-- The transition accepts the block in `s`. -/
def Accepts (p : Primitives Report) (config : Config) (s : State Report) (block : Block) : Prop :=
  ∃ s' out, transition p block.order config s block.input = .ok (s', .ok out)

/-- A step keeps the sets disjoint exactly when it is rejected or gives every
report one role. -/
theorem Step.judgedOnce_iff {block : Block} (hstep : Step p config s block s')
    (hs : JudgedOnce s) :
    JudgedOnce s' ↔ (Accepts p config s block → SingleRole config s block.input.disputes) := by
  obtain ⟨out, hout⟩ := hstep
  cases out with
  | ok data =>
    obtain ⟨haccepted, hextends⟩ := transition_accepted hout
    rw [judgedOnce_step_iff hextends haccepted hs]
    exact ⟨fun hrole _ => hrole, fun hrole => hrole ⟨s', data, hout⟩⟩
  | err code =>
    obtain rfl := transition_rejected hout
    refine ⟨?_, fun _ => hs⟩
    rintro _ ⟨u, data, haccepts⟩
    rw [hout] at haccepts
    cases haccepts

/-- Along a run of accepted and rejected blocks from disjoint sets, the sets stay
disjoint in every state exactly when every accepted block gives every report one
role. -/
theorem judgedOnce_run_iff {trace : List Block} {t : State Report} (hs : JudgedOnce s)
    (hrun : Run (Step p config) s trace t) :
    (∀ front back u, trace = front ++ back → Run (Step p config) s front u → JudgedOnce u) ↔
      ∀ front block back u, trace = front ++ block :: back → Run (Step p config) s front u →
        Accepts p config u block → SingleRole config u block.input.disputes :=
  hrun.forall_states_iff (fun _ _ _ _ h h' => h.unique h') (fun _ _ _ h => h.judgedOnce_iff) hs

/-- The sets of the small network start empty. -/
theorem Scenario.state_judgedOnce : JudgedOnce Scenario.state := ⟨by decide, by decide, by decide⟩

/-- A block with a wonky verdict, applied twice, keeps the sets disjoint. -/
theorem judgedOnce_wonky_blocks :
    ∃ trace t, trace.length = 2 ∧
      Run (Step Scenario.primitives Scenario.config) Scenario.state trace t ∧
      ∀ front back u, trace = front ++ back →
        Run (Step Scenario.primitives Scenario.config) Scenario.state front u → JudgedOnce u := by
  let block : Block := ⟨HashOrder.insertion,
    ⟨⟨[Scenario.verdict [true, true, false, false, false]], [], []⟩⟩⟩
  have hrun : Run (Step Scenario.primitives Scenario.config) Scenario.state [block, block] _ :=
    (Run.nil.snoc ⟨_, rfl⟩).snoc ⟨_, rfl⟩
  refine ⟨_, _, rfl, hrun, (judgedOnce_run_iff Scenario.state_judgedOnce hrun).mpr ?_⟩
  intro front label back u htrace _ _
  have hmem : label ∈ [block, block] := by simp [htrace]
  have hlabel : label = block := by simpa using hmem
  rw [hlabel]
  exact ⟨by simp [block], by simp [block], by simp [block]⟩

/-- A block with a wonky verdict and a culprit on its report puts the report in the
bad and the wonky set. -/
theorem not_judgedOnce_wonky_culprit :
    ∃ t, JudgedOnce Scenario.state ∧
      Run (Step Scenario.primitives Scenario.config) Scenario.state
        [⟨HashOrder.insertion,
          ⟨⟨[Scenario.verdict [true, true, false, false, false]], [Scenario.culprit 1], []⟩⟩⟩] t ∧
      ByteArr.fill 7 ∈ t.psi.bad ∧ ByteArr.fill 7 ∈ t.psi.wonky ∧ ¬JudgedOnce t := by
  refine ⟨_, Scenario.state_judgedOnce, Run.nil.snoc ⟨_, rfl⟩, List.mem_singleton_self _,
    List.mem_singleton_self _, fun honce => ?_⟩
  exact honce.bad_wonky _ (List.mem_singleton_self _) (List.mem_singleton_self _)

end CppJam.Disputes
