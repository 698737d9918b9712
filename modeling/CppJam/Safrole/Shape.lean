import CppJam.Safrole.Blocks
import CppJam.Safrole.Sequencing

/-!
# Shapes of the validator sets and of the sealing keys

The partial operations of the transition are safe on states of the right shape: every
validator set has one entry for each validator and the sealing-key series has one entry
for each slot of an epoch. The transition then always returns, and it keeps the shape,
with fallback keys that belong to the current validators.
-/

namespace CppJam.Safrole

open Bytes Checks Containers

variable {crypto : Primitives} {config : Config} {s s' : State} {input : Input}

/-- A sealing-key series of the epoch length, with keys of the given validators. -/
def SeriesShaped (config : Config) (kappa : ValidatorsData) : TicketsOrKeys → Prop
  | .tickets tickets => tickets.length = config.epochLength.toNat
  | .keys keys =>
      keys.length = config.epochLength.toNat ∧ ∀ key ∈ keys, key ∈ bandersnatchKeys kappa

/-- The shape of a state. -/
structure Shaped (config : Config) (s : State) : Prop where
  lambda : s.lambda.length = config.validatorsCount.toNat
  kappa : s.kappa.length = config.validatorsCount.toNat
  gammaK : s.gammaK.length = config.validatorsCount.toNat
  iota : s.iota.length = config.validatorsCount.toNat
  gammaS : SeriesShaped config s.kappa s.gammaS

/-- The commitment of a ring with a key for each validator exists. -/
theorem mathcalO_of_length (hvalidators : 1 ≤ config.validatorsCount.toNat)
    {pks : BandersnatchKeys} (hlength : pks.length = config.validatorsCount.toNat) :
    mathcalO crypto config pks = .ok (crypto.ringCommitment config.validatorsCount pks) := by
  have hne : pks ≠ [] := by
    rw [← List.length_pos_iff]
    omega
  simp [mathcalO, ringCommitment, hlength, hne, Bind.bind, Except.bind, Pure.pure, Except.pure]

/-- The rotation of keys succeeds and keeps the sizes of the validator sets. -/
theorem Shaped.rotateKeys_ok (hs : Shaped config s) (crypto : Primitives)
    (hvalidators : 1 ≤ config.validatorsCount.toNat) (input : Input) :
    ∃ keys, rotateKeys crypto config s input = .ok keys ∧
      keys.lambda.length = config.validatorsCount.toNat ∧
      keys.kappa.length = config.validatorsCount.toNat ∧
      keys.gammaK.length = config.validatorsCount.toNat ∧
      (¬ChangeEpoch config s input → keys.kappa = s.kappa) := by
  unfold rotateKeys
  split_ifs with hchange
  · have hphi : (phi s.postOffenders s.iota).length = config.validatorsCount.toNat := by
      simp [phi, hs.iota]
    have hcommitment : mathcalO crypto config (bandersnatchKeys (phi s.postOffenders s.iota)) =
        .ok _ := mathcalO_of_length hvalidators (by simp [bandersnatchKeys, hphi])
    refine ⟨_, by rw [hcommitment]; rfl, hs.kappa, hs.gammaK, hphi, fun hstay => ?_⟩
    exact absurd hchange hstay
  · exact ⟨_, rfl, hs.lambda, hs.kappa, hs.gammaK, fun _ => rfl⟩

/-- A fallback key exists and belongs to one of the validators. -/
theorem fallbackKey_ok (crypto : Primitives) {k : ValidatorsData} (hk : k ≠ []) (r : OpaqueHash)
    (i : ℕ) :
    ∃ key ∈ bandersnatchKeys k, fallbackKey crypto r k i = .ok key := by
  have hfirst : ∃ first, firstBytes 4
      (crypto.mathcalH (frown r (mathcalE 4 i)).bytes).bytes = .ok first := by
    have hsize := (crypto.mathcalH (frown r (mathcalE 4 i)).bytes).size_eq
    exact ⟨_, dif_pos (by omega)⟩
  obtain ⟨first, hfirst⟩ := hfirst
  have hlt : de first % k.length < k.length := Nat.mod_lt _ (List.length_pos_iff.mpr hk)
  refine ⟨k[de first % k.length].bandersnatch, ?_, ?_⟩
  · exact List.mem_map_of_mem (List.getElem_mem hlt)
  · simp [fallbackKey, hfirst, circlearrowleft, hlt, Bind.bind, Except.bind, Pure.pure,
      Except.pure]

/-- The fallback series exists, has the epoch length and consists of keys of the
validators. -/
theorem F_ok (crypto : Primitives) (config : Config) {k : ValidatorsData} (hk : k ≠ [])
    (r : OpaqueHash) :
    ∃ keys, F crypto config r k = .ok keys ∧ SeriesShaped config k (.keys keys) := by
  obtain ⟨keys, hkeys, hlength, hall⟩ := mapM_total (l := List.range config.epochLength.toNat)
    (fun i _ => fallbackKey_ok crypto hk r i)
  exact ⟨keys, hkeys, hlength.trans (List.length_range), hall⟩

section Returns

variable (hepoch : 1 ≤ config.epochLength.toNat)
  (hsize : crypto.ticketsConfigSize config = config.epochLength.toNat)

include hepoch hsize

/-- The sealing keys exist and have the shape for the validators of the next state. -/
theorem Shaped.sealingKeys_ok (hs : Shaped config s) (input : Input) {kappa : ValidatorsData}
    (hkappa : kappa ≠ []) (hstay : ¬ChangeEpoch config s input → kappa = s.kappa)
    (eta2 : OpaqueHash) :
    ∃ series, sealingKeys crypto config s input eta2 kappa = .ok series ∧
      SeriesShaped config kappa series := by
  unfold sealingKeys
  split_ifs with hcompleted hsame
  · refine ⟨.tickets (outsideIn s.gammaA), ?_, (length_outsideIn _).trans hcompleted.2.2⟩
    rw [Z_eq_ok (by omega) hsize hcompleted.2.2]
    rfl
  · refine ⟨s.gammaS, rfl, ?_⟩
    rw [hstay (not_not.mpr hsame)]
    exact hs.gammaS
  · obtain ⟨keys, hkeys, hshaped⟩ := F_ok crypto config hkappa eta2
    exact ⟨.keys keys, by rw [hkeys]; rfl, hshaped⟩

/-- The tickets mark exists. -/
theorem ticketsMark_ok (s : State) (input : Input) :
    ∃ mark, ticketsMark crypto config s input = .ok mark := by
  unfold ticketsMark
  split_ifs with hcrossing
  · refine ⟨some (outsideIn s.gammaA), ?_⟩
    rw [Z_eq_ok (by omega) hsize hcrossing.2.2.2]
    rfl
  · exact ⟨none, rfl⟩

/-- On a state of the right shape no partial operation of the transition fails. -/
theorem Shaped.transitionBody_ne_abort (hvalidators : 1 ≤ config.validatorsCount.toNat)
    (hs : Shaped config s) (hinput : input.extrinsic.length ≤ K) (cause : Abort) :
    transitionBody crypto config s input ≠ .error (.abort cause) := by
  intro habort
  obtain ⟨keys, hkeys, _, hkappa, _, hstay⟩ := hs.rotateKeys_ok crypto hvalidators input
  have hne : keys.kappa ≠ [] := by
    rw [← List.length_pos_iff]
    omega
  obtain ⟨series, hseries, _⟩ := hs.sealingKeys_ok hepoch hsize input hne hstay
    (rotateEntropy crypto config s input).eta2
  obtain ⟨mark, hmark⟩ := ticketsMark_ok hepoch hsize s input
  simp only [transitionBody, bind_eq_error, failIf_eq_error, mapError_eq_error, mapError_eq_ok,
    failIf_eq_ok, hkeys, hmark, pure_ne_error, reduceCtorEq, and_false, false_and, exists_false,
    false_or, or_false, Except.ok.injEq, exists_eq_left'] at habort
  obtain ⟨_, _, ⟨hzero, _⟩ | ⟨_, _, ⟨hmany, _⟩ | ⟨_, _, _, _, _, _, _, hfails, _⟩⟩⟩ := habort
  · omega
  · omega
  · rw [hseries] at hfails
    cases hfails

end Returns

/-- A step to an accepted block keeps the shape. -/
theorem Advance.shaped {out : OutputData} (h : Advance crypto config s input s' out)
    (hvalidators : 1 ≤ config.validatorsCount.toNat)
    (hsize : crypto.ticketsConfigSize config = config.epochLength.toNat)
    (hs : Shaped config s) : Shaped config s' := by
  obtain ⟨keys, hkeys, hlambda, hkappa, hgammaK, hstay⟩ :=
    hs.rotateKeys_ok crypto hvalidators input
  rw [h.keys] at hkeys
  obtain rfl := Except.ok.inj hkeys
  have hepoch := h.epochLength_ne
  have hne : s'.kappa ≠ [] := by
    rw [← List.length_pos_iff]
    exact hvalidators.trans hkappa.ge
  obtain ⟨series, hseries, hshaped⟩ :=
    hs.sealingKeys_ok (by omega) hsize input hne hstay s'.eta.eta2
  rw [h.gammaS] at hseries
  obtain rfl := Except.ok.inj hseries
  exact ⟨hlambda, hkappa, hgammaK, h.iota ▸ hs.iota, hshaped⟩

/-- **Shape.** For an epoch of at least one slot, at least one validator, a state of the
right shape and an input with at most `K` tickets the transition returns, and the state
after it has the same shape. -/
theorem transition_shaped (crypto : Primitives) (config : Config) (s : State) (input : Input)
    (hepoch : 1 ≤ config.epochLength.toNat) (hvalidators : 1 ≤ config.validatorsCount.toNat)
    (hsize : crypto.ticketsConfigSize config = config.epochLength.toNat) (hs : Shaped config s)
    (hinput : input.extrinsic.length ≤ K) :
    ∃ s' out, transition crypto config s input = .ok (s', out) ∧ Shaped config s' := by
  obtain ⟨s', out, hout⟩ : ∃ s' out, transition crypto config s input = .ok (s', out) :=
    settle_returns (hs.transitionBody_ne_abort hepoch hsize hvalidators hinput)
  refine ⟨s', out, hout, ?_⟩
  cases out with
  | ok data => exact (transition_eq_ok_iff.mp hout).shaped hvalidators hsize hs
  | err code =>
    obtain rfl := settle_eq_err hout
    exact hs

/-- The state of one validator at the end of an epoch has the right shape, and so has the
state after the first block of the next epoch. -/
theorem transition_shaped_new_epoch :
    Shaped Scenario.config (Scenario.state 2) ∧
    ∃ s' out,
      transition Scenario.crypto Scenario.config (Scenario.state 2) ⟨2, ByteArr.fill 1, []⟩ =
        .ok (s', out) ∧ Shaped Scenario.config s' := by
  have hs : Shaped Scenario.config (Scenario.state 2) :=
    ⟨rfl, rfl, rfl, rfl, rfl, by decide⟩
  exact ⟨hs, transition_shaped _ _ _ _ (by decide) (by decide) rfl hs (by decide)⟩

end CppJam.Safrole
