import CppJam.Disputes.Effects

/-!
# How verdicts are classified

The analysis compares the counters of a verdict with the super majority, and with
half of it for a wonky one. On an accepted extrinsic the 16-bit counters are exact,
so the class of a verdict is a matter of its numbers of votes. For a super majority
of two thirds of the validators and one more, half of it is a third of the
validators, rounded to the nearest number.
-/

namespace CppJam.Disputes

open Bytes Checks Containers

variable {Report : Type} {p : Primitives Report} {config : Config} {s s' : State Report}
  {ext : DisputesExtrinsic}

/-- The analysis finds counters for the report of a verdict and classifies them. -/
def TreatedAs (order : HashOrder) (config : Config) (registry : List (WorkReportHash × Judgement))
    (v : Verdict) (kind : VerdictKind) : Prop :=
  ∃ counts, ⟨v.target, counts⟩ ∈ order.votes (voteCountByJudgements order registry).entries ∧
    classify config counts = .ok kind

/-- The numbers of positive and negative votes for each class, in the order of the
tests: a super majority against the report comes before one for it. -/
def VerdictKind.Matches (majority positives negatives : ℕ) : VerdictKind → Prop
  | .bad => negatives = majority
  | .good => positives = majority ∧ negatives ≠ majority
  | .wonky => positives = majority / 2 ∧ negatives ≠ 0 ∧ positives ≠ majority ∧
      negatives ≠ majority

/-- The class of a verdict with judgements, by its numbers of votes. -/
def Verdict.HasKind (config : Config) (v : Verdict) (kind : VerdictKind) : Prop :=
  v.votes ≠ [] ∧ kind.Matches config.validatorsSuperMajority.toNat v.positives v.negatives

/-- Counters are classified as their values say. -/
theorem classify_eq_ok_iff {counts : UInt16 × UInt16} {kind : VerdictKind} :
    classify config counts = .ok kind ↔
      kind.Matches config.validatorsSuperMajority.toNat counts.1.toNat counts.2.toNat := by
  have hzero : counts.2 = 0 ↔ counts.2.toNat = 0 := by
    rw [← UInt16.toNat_inj]
    rfl
  simp only [classify, ne_eq, hzero]
  cases kind <;> simp only [VerdictKind.Matches] <;> split_ifs <;> simp <;> omega

/-- Exact counters are classified as the numbers of votes say. -/
theorem classify_tally_iff {v : Verdict} (hvotes : v.votes ≠ [])
    (hexact : v.tally.1.toNat = v.positives ∧ v.tally.2.toNat = v.negatives) {kind : VerdictKind} :
    classify config v.tally = .ok kind ↔ v.HasKind config kind := by
  rw [classify_eq_ok_iff, hexact.1, hexact.2]
  exact ⟨fun h => ⟨hvotes, h⟩, fun h => h.2⟩

/-- The analysis classifies the tally of a new verdict. -/
theorem treatedAs_iff {verdicts : List Verdict}
    (hsorted : (verdicts.map Verdict.target).Pairwise (· < ·)) (order : HashOrder) {v : Verdict}
    (hv : v ∈ verdicts) (hcounted : Counted s v) {kind : VerdictKind} :
    TreatedAs order config (judgementsRegistry s verdicts) v kind ↔
      classify config v.tally = .ok kind := by
  have hinj := List.inj_on_of_nodup_map (hsorted.imp (fun h => h.ne))
  constructor
  · rintro ⟨counts, hcounts, hkind⟩
    obtain ⟨w, hw, htarget, _, htally⟩ := (mem_votes_entries hsorted order).mp hcounts
    obtain rfl := hinj hw hv htarget
    rw [← hkind]
    exact congrArg _ htally
  · intro hkind
    exact ⟨v.tally, (mem_votes_entries hsorted order).mpr ⟨v, hv, rfl, hcounted, rfl⟩, hkind⟩

/-- The counters of an accepted new verdict are the exact numbers of votes: counters
that wrap are both zero, which no class with its evidence allows. -/
theorem Accepted.tally_exact (haccepted : Accepted p config s ext) {v : Verdict}
    (hv : v ∈ ext.verdicts) (hcounted : Counted s v) :
    v.tally.1.toNat = v.positives ∧ v.tally.2.toNat = v.negatives := by
  have hlength := List.length_pos_iff.mpr hcounted.2
  have hsum := v.positives_add_negatives
  obtain ⟨hbound, hfor, hagainst⟩ := haccepted.tally_bounds hv
  rcases haccepted.counted_cases hv hcounted with
    ⟨_, hculprits⟩ | ⟨hnot, hgood, _, _⟩ | ⟨_, _, _, hnonzero⟩
  · have hnonzero := (haccepted.verdict_of_culprit hv (by omega)).2
    omega
  · omega
  · omega

/-- The tally of an accepted new verdict is classified as its numbers of votes say. -/
theorem Accepted.classify_iff (haccepted : Accepted p config s ext) {v : Verdict}
    (hv : v ∈ ext.verdicts) (hcounted : Counted s v) {kind : VerdictKind} :
    classify config v.tally = .ok kind ↔ v.HasKind config kind :=
  classify_tally_iff hcounted.2 (haccepted.tally_exact hv hcounted)

/-- A new verdict that is in none of the three classes makes the transition return an
error. -/
theorem transition_of_no_kind {input : Input} {v : Verdict} (hv : v ∈ input.disputes.verdicts)
    (hcounted : Counted s v) (hnone : ∀ kind, ¬v.HasKind config kind)
    (hlength : config.epochLength.toNat ≠ 0) (order : HashOrder) :
    ∃ code, transition p order config s input = .ok (s, .err code) := by
  refine transition_of_not_accepted hlength (fun haccepted => ?_) order
  have hbacked := haccepted.verdicts_backed v hv hcounted
  cases hclass : classify config v.tally with
  | ok kind => exact hnone kind ((haccepted.classify_iff hv hcounted).mp hclass)
  | error code => simp [TallyBacked, hclass] at hbacked

/-- With a super majority of two thirds of the validators and one more, a verdict of
exactly that many judgements is bad without positive votes, good with positive votes
only, and wonky with a third of the validators voting for the report, rounded to the
nearest number. -/
theorem hasKind_iff_positives {V : ℕ} (hV : 3 ≤ V)
    (hmajority : config.validatorsSuperMajority.toNat = 2 * V / 3 + 1) {v : Verdict}
    (hlength : v.votes.length = config.validatorsSuperMajority.toNat) :
    (v.HasKind config .bad ↔ v.positives = 0) ∧
    (v.HasKind config .good ↔ v.positives = 2 * V / 3 + 1) ∧
    (v.HasKind config .wonky ↔ v.positives = (V + 1) / 3) := by
  have hsum := v.positives_add_negatives
  have hvotes : v.votes ≠ [] := by
    rw [← List.length_pos_iff]
    omega
  simp only [Verdict.HasKind, VerdictKind.Matches, hvotes, hmajority, not_false_eq_true, true_and,
    ne_eq]
  rw [hlength, hmajority] at hsum
  refine ⟨?_, ?_, ?_⟩ <;> omega

/-- **Classification.** Let the super majority be two thirds of `V` validators and one
more, and let an extrinsic have a new verdict of exactly that many valid judgements,
whose counters do not wrap. The analysis treats the verdict as bad when it has no
positive vote, as good when it has a super majority of them, and as wonky when it has a
third of `V`, rounded to the nearest number. With any other number of positive votes
the transition returns an error. -/
theorem verdict_classification {V : ℕ} (hV : 3 ≤ V) (hwrap : V ≠ 98303)
    (hmajority : config.validatorsSuperMajority.toNat = 2 * V / 3 + 1) {input : Input}
    {v : Verdict} (hv : v ∈ input.disputes.verdicts) (hnew : ¬Judged s v.target)
    (hvalid : VerdictValid p config s v)
    (hlength : v.votes.length = config.validatorsSuperMajority.toNat) (order : HashOrder) :
    (∀ registry, checkVerdicts p config s input.disputes.verdicts = .ok registry →
      (TreatedAs order config registry v .bad ↔ v.positives = 0) ∧
      (TreatedAs order config registry v .good ↔ v.positives = 2 * V / 3 + 1) ∧
      (TreatedAs order config registry v .wonky ↔ v.positives = (V + 1) / 3)) ∧
    (v.positives ≠ 0 → v.positives ≠ 2 * V / 3 + 1 → v.positives ≠ (V + 1) / 3 →
      config.epochLength.toNat ≠ 0 →
      ∃ code, transition p order config s input = .ok (s, .err code)) := by
  obtain ⟨hbad, hgood, hwonky⟩ := hasKind_iff_positives hV hmajority hlength
  have hcounted : Counted s v := by
    refine ⟨hnew, ?_⟩
    rw [← List.length_pos_iff]
    omega
  constructor
  · intro registry hregistry
    obtain ⟨hsorted, _, rfl⟩ := checkVerdicts_eq_ok.mp hregistry
    have hbound := hvalid.length_le
    have hexact := Verdict.tally_toNat_of_length_le (v := v) (by omega)
    simp only [treatedAs_iff hsorted order hv hcounted, classify_tally_iff hcounted.2 hexact]
    exact ⟨hbad, hgood, hwonky⟩
  · intro hzero hall hthird hepoch
    refine transition_of_no_kind hv hcounted (fun kind => ?_) hepoch order
    cases kind with
    | bad => exact mt hbad.mp hzero
    | good => exact mt hgood.mp hall
    | wonky => exact mt hwonky.mp hthird

/-- Among six validators a verdict with two positive votes of five is wonky. -/
theorem verdict_classification_six_validators :
    ∃ registry, checkVerdicts Scenario.primitives Scenario.config Scenario.state
        [Scenario.verdict [true, true, false, false, false]] = .ok registry ∧
      TreatedAs HashOrder.insertion Scenario.config registry
        (Scenario.verdict [true, true, false, false, false]) .wonky := by
  have hregistry : checkVerdicts Scenario.primitives Scenario.config Scenario.state
      [Scenario.verdict [true, true, false, false, false]] = .ok _ := rfl
  have hvalid := (checkVerdicts_eq_ok.mp hregistry).2.1 _ (List.mem_singleton_self _)
  have hv : Scenario.verdict [true, true, false, false, false] ∈
      (Input.mk ⟨[Scenario.verdict [true, true, false, false, false]], [], []⟩).disputes.verdicts :=
    List.mem_singleton_self _
  have hlaw := verdict_classification (V := 6) (by decide) (by decide) rfl hv (by decide) hvalid
    rfl HashOrder.insertion
  exact ⟨_, hregistry, (hlaw.1 _ hregistry).2.2.mpr rfl⟩

/-- Constants of a network with five validators. -/
def Scenario.configOfFive : Config :=
  { Scenario.config with validatorsCount := 5, validatorsSuperMajority := 4 }

/-- The state of the small network without its sixth validator. -/
def Scenario.stateOfFive : State Byte :=
  { Scenario.state with
    kappa := Scenario.validators.take 5
    lambda := Scenario.validators.take 5 }

/-- Among five validators a verdict with one positive vote, a third of five rounded
down, is rejected as a bad split, and one with two positive votes is wonky. -/
theorem third_of_five_is_bad_split :
    Scenario.configOfFive.validatorsSuperMajority.toNat = 2 * 5 / 3 + 1 ∧
    VerdictValid Scenario.primitives Scenario.configOfFive Scenario.stateOfFive
      (Scenario.verdict [true, false, false, false]) ∧
    (Scenario.verdict [true, false, false, false]).positives = 5 / 3 ∧
    transition Scenario.primitives HashOrder.insertion Scenario.configOfFive Scenario.stateOfFive
      ⟨⟨[Scenario.verdict [true, false, false, false]], [], []⟩⟩ =
        .ok (Scenario.stateOfFive, .err .badVoteSplit) ∧
    (Scenario.verdict [true, true, false, false]).positives = 5 / 3 + 1 ∧
    ∃ s' out,
      transition Scenario.primitives HashOrder.insertion Scenario.configOfFive Scenario.stateOfFive
        ⟨⟨[Scenario.verdict [true, true, false, false]], [], []⟩⟩ = .ok (s', .ok out) ∧
      s'.psi.wonky = [ByteArr.fill 7] := by
  have hregistry : checkVerdicts Scenario.primitives Scenario.configOfFive Scenario.stateOfFive
      [Scenario.verdict [true, false, false, false]] = .ok _ := rfl
  have hvalid := (checkVerdicts_eq_ok.mp hregistry).2.1 _ (List.mem_singleton_self _)
  exact ⟨rfl, hvalid, rfl, rfl, rfl, _, _, rfl, rfl⟩

end CppJam.Disputes
