import CppJam.Disputes.Votes

/-!
# Effects of an accepted extrinsic

Fault targets become good, culprit targets bad and wonky verdicts wonky; the
keys of culprits and faults become offenders. Whether an extrinsic is accepted
and what it does is the same for every enumeration order of the two unordered
containers.
-/

namespace CppJam.Disputes

open Bytes Checks Containers

variable {Report : Type} {p : Primitives Report} {order : HashOrder} {config : Config}
  {s s' : State Report} {input : Input}

/-- A hash is in the ordered set made of a list exactly when the list has it. -/
@[simp] theorem mem_asSet {r : ByteArr 32} {l : List (ByteArr 32)} : r ∈ asSet l ↔ r ∈ l :=
  KeyedSet.mem_ofRange_id

/-- The list made of an ordered set has its elements. -/
@[simp] theorem mem_asVec {r : ByteArr 32} {t : OrderedSet} : r ∈ asVec t ↔ r ∈ t := Iff.rfl

/-- Reading back the list made of an ordered set gives the set. -/
@[simp] theorem asSet_asVec (t : OrderedSet) : asSet (asVec t) = t := KeyedSet.ofRange_items t

/-- The reported keys are those of the culprits and the faults. -/
theorem mem_reportedKeys {ext : DisputesExtrinsic} {key : Ed25519Public} :
    key ∈ reportedKeys ext ↔
      (∃ c ∈ ext.culprits, c.key = key) ∨ ∃ f ∈ ext.faults, f.key = key := by
  have hsplit {α : Type} (l : List (WorkReportHash × α)) (f : α → Ed25519Public) :
      l.map (fun e => f e.2) = (l.map Prod.snd).map f := by simp
  simp only [reportedKeys, List.mem_append, hsplit _ Culprit.key, hsplit _ Fault.key,
    List.mem_map (f := Culprit.key), List.mem_map (f := Fault.key),
    mem_culpritsRegistry_values, mem_faultsRegistry_values]

/-- How an accepted extrinsic extends the four sets. -/
structure Extends (config : Config) (s : State Report) (ext : DisputesExtrinsic)
    (s' : State Report) : Prop where
  good : ∀ r, r ∈ s'.psi.good ↔ r ∈ s.psi.good ∨ ∃ f ∈ ext.faults, f.target = r
  bad : ∀ r, r ∈ s'.psi.bad ↔ r ∈ s.psi.bad ∨ ∃ c ∈ ext.culprits, c.target = r
  wonky : ∀ r, r ∈ s'.psi.wonky ↔
    r ∈ s.psi.wonky ∨ ∃ v ∈ ext.verdicts, IsWonky config s v ∧ v.target = r
  offenders : ∀ key, key ∈ s'.psi.offenders ↔ key ∈ s.psi.offenders ∨
    (∃ c ∈ ext.culprits, c.key = key) ∨ ∃ f ∈ ext.faults, f.key = key

/-- The sets of the next state are the outcome of the extrinsic. -/
theorem stateTick_extends (config : Config) (s : State Report) (ext : DisputesExtrinsic)
    (rho : List (Option (AvailabilityAssignment Report))) :
    Extends config s ext (stateTick s (outcome config s ext) rho) where
  good r := by simp [stateTick, outcome]
  bad r := by simp [stateTick, outcome]
  wonky r := by simp [stateTick, outcome, and_assoc]
  offenders key := by simp [stateTick, outcome, mem_reportedKeys]

/-- An accepted block satisfies the acceptance conditions and extends the sets. -/
theorem transition_accepted {out : OutputData}
    (hok : transition p order config s input = .ok (s', .ok out)) :
    Accepted p config s input.disputes ∧ Extends config s input.disputes s' := by
  obtain ⟨_, haccepted, rho, _, rfl, _⟩ := transition_eq_ok_iff.mp hok
  exact ⟨haccepted, stateTick_extends config s input.disputes rho⟩

/-- A rejected block leaves the state unchanged. -/
theorem transition_rejected {code : ErrorCode}
    (herr : transition p order config s input = .ok (s', .err code)) : s' = s :=
  settle_eq_err herr

/-- The new judgements are the same for every enumeration order. -/
theorem judge_order (o₁ o₂ : HashOrder) {ext : DisputesExtrinsic} {j : Judgment} :
    judge p o₁ config s ext = .ok j ↔ judge p o₂ config s ext = .ok j :=
  judge_eq_ok_iff.trans judge_eq_ok_iff.symm

/-- The state after a block is the same for every enumeration order. -/
theorem transition_state_order (p : Primitives Report) (o₁ o₂ : HashOrder) (config : Config)
    (s : State Report) (input : Input) :
    (transition p o₁ config s input).map Prod.fst =
      (transition p o₂ config s input).map Prod.fst := by
  cases h₁ : judge p o₁ config s input.disputes with
  | ok j =>
    have h₂ := (judge_order o₁ o₂).mp h₁
    simp only [transition, transitionBody, h₁, h₂]
  | error e₁ =>
    cases h₂ : judge p o₂ config s input.disputes with
    | ok j => simp [(judge_order o₂ o₁).mp h₂] at h₁
    | error e₂ =>
      rw [transition_of_judge_error h₁, transition_of_judge_error h₂]
      split_ifs <;> rfl

/-- Acceptance, the state after the block and on acceptance the whole offenders
mark do not depend on the order in which `judgements_registry` and
`vote_count_by_judgements` enumerate their elements. -/
theorem transition_deterministic (p : Primitives Report) (o₁ o₂ : HashOrder) (config : Config)
    (s : State Report) (input : Input) :
    (∀ s' out, transition p o₁ config s input = .ok (s', .ok out) ↔
      transition p o₂ config s input = .ok (s', .ok out)) ∧
    (transition p o₁ config s input).map Prod.fst =
      (transition p o₂ config s input).map Prod.fst := by
  refine ⟨fun s' out => ?_, transition_state_order p o₁ o₂ config s input⟩
  exact transition_eq_ok_iff.trans transition_eq_ok_iff.symm

end CppJam.Disputes
