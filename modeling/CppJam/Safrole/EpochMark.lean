import CppJam.Safrole.Blocks

/-!
# The epoch mark predicts the next epoch

The first block of an epoch announces the keys of the next validators and two
entropy values. The block that opens the next epoch, however many blocks later,
makes these validators the current ones and draws its fallback keys from the
announced entropy. In between nothing that the mark speaks about changes.
-/

namespace CppJam.Safrole

open Bytes Checks Containers Runs

variable {crypto : Primitives} {config : Config} {s t : State}

/-- Until the epoch changes the next validators and the entropy history stay. -/
theorem kept_of_run {trace : List Block} (hrun : Run (Step crypto config) s trace t) :
    (∀ b ∈ trace, ¬b.ChangesEpoch config) →
      t.gammaK = s.gammaK ∧ t.eta.eta1 = s.eta.eta1 := by
  intro hstays
  refine Prod.mk.inj (hrun.kept (fun s => (s.gammaK, s.eta.eta1)) ?_ hstays)
  intro t b u hstep hstay
  obtain ⟨hgammaK, _, _, heta1, _⟩ := hstep.advance.within_epoch hstay
  obtain ⟨_, hpreEta, hpreK, _, _⟩ := hstep.pre_fields
  rw [hgammaK, hpreK, heta1, hpreEta]

/-- Cyclic indexing commutes with a function on the elements. -/
theorem circlearrowleft_map {α β : Type} (f : α → β) (l : List α) (i : ℕ) :
    f <$> circlearrowleft l i = circlearrowleft (l.map f) i := by
  unfold circlearrowleft
  rw [List.length_map, List.getElem?_map]
  cases l[i % l.length]? <;> rfl

/-- The fallback series depends on the bandersnatch keys of the validators only. -/
theorem F_congr {r : OpaqueHash} {k k' : ValidatorsData}
    (hkeys : bandersnatchKeys k = bandersnatchKeys k') :
    F crypto config r k = F crypto config r k' := by
  have hkey : fallbackKey crypto r k = fallbackKey crypto r k' := by
    funext i
    simp only [fallbackKey, bind_pure_comp, circlearrowleft_map]
    unfold bandersnatchKeys at hkeys
    rw [hkeys]
  rw [F, F, hkey]

/-- Fallback keys that the first block of an epoch installs are drawn from its entropy
and its validators. -/
theorem Step.gammaS_eq_keys {b : Block} {keys : List BandersnatchPublic}
    (hstep : Step crypto config s b t) (hchange : b.ChangesEpoch config)
    (hkeys : t.gammaS = .keys keys) : F crypto config t.eta.eta2 t.kappa = .ok keys := by
  have hseal := hstep.advance.gammaS
  have hnew : (Epoch.ofSlot config b.input.slot).epoch ≠ (Epoch.ofSlot config b.pre.tau).epoch :=
    hchange
  unfold sealingKeys at hseal
  rw [hkeys, if_neg hnew] at hseal
  split_ifs at hseal
  · obtain ⟨_, _, htickets⟩ := map_eq_ok.mp hseal
    cases htickets
  · obtain ⟨result, hresult, heq⟩ := map_eq_ok.mp hseal
    cases heq
    exact hresult

/-- **The epoch mark predicts the next epoch.** For two consecutive blocks of a run that
change the epoch, the keys of the validators that are current after the second
are those of the first mark, the second mark takes over the entropy of the first
as its tickets entropy, and fallback keys that the second block installs are
drawn from the first mark alone. -/
theorem epoch_mark_predicts {front mid back : List Block} {c₁ c₂ : Block}
    (hrun : Run (Step crypto config) s (front ++ c₁ :: (mid ++ c₂ :: back)) t)
    (h₁ : c₁.ChangesEpoch config) (hmid : ∀ b ∈ mid, ¬b.ChangesEpoch config)
    (h₂ : c₂.ChangesEpoch config) :
    ∃ m₁ m₂, c₁.output.epochMark = some m₁ ∧ c₂.output.epochMark = some m₂ ∧
      bandersnatchKeys c₂.post.kappa = m₁.validators ∧
      m₂.ticketsEntropy = m₁.entropy ∧
      ∀ keys, c₂.post.gammaS = .keys keys → ∀ k, bandersnatchKeys k = m₁.validators →
        F crypto config m₁.entropy k = .ok keys := by
  obtain ⟨_, u, _, hstep₁, hrest⟩ := hrun.at_step
  obtain ⟨v, w, hrunmid, hstep₂, _⟩ := hrest.at_step
  obtain ⟨_, _, _, _, _, hmark₁⟩ := hstep₁.advance.new_epoch h₁
  obtain ⟨_, hkappa, _, _, heta2, hmark₂⟩ := hstep₂.advance.new_epoch h₂
  obtain ⟨hgammaK, heta1⟩ := kept_of_run hrunmid hmid
  obtain ⟨_, hpre, hpreK, _, _⟩ := hstep₂.pre_fields
  have hcurrent : w.kappa = u.gammaK := hkappa.trans (hpreK.trans hgammaK)
  have hentropy : w.eta.eta2 = u.eta.eta1 := by rw [heta2, hpre, heta1]
  refine ⟨_, _, hmark₁, hmark₂, ?_, hentropy, ?_⟩
  · rw [← hstep₂.post, hcurrent]
  · intro keys hkeys k hk
    rw [← hstep₂.post] at hkeys
    have hF := hstep₂.gammaS_eq_keys h₂ hkeys
    rw [hentropy, hcurrent] at hF
    exact (F_congr hk).trans hF

/-- The first block of epoch 1 without tickets, after which validator 2 is announced. -/
def Scenario.opening : Block := block (state 2) 2 []

/-- The first block of epoch 2, which makes validator 2 the current one. -/
def Scenario.succession : Block := block opening.post 4 []

/-- In the small network without tickets, the key of the scheduled validator in the first
mark is the current one after the next epoch change, and the fallback keys are
drawn from that mark. -/
theorem epoch_mark_scenario :
    ∃ m₁ keys, Scenario.opening.output.epochMark = some m₁ ∧
      m₁.validators = [ByteArr.fill 2] ∧
      bandersnatchKeys Scenario.succession.post.kappa = m₁.validators ∧
      Scenario.succession.post.gammaS = .keys keys ∧
      F Scenario.crypto Scenario.config m₁.entropy (Scenario.validators 2) = .ok keys := by
  have hrun : Run (Step Scenario.crypto Scenario.config) (Scenario.state 2)
      ([] ++ Scenario.opening :: ([] ++ Scenario.succession :: [])) Scenario.succession.post :=
    (Run.nil.snoc ⟨rfl, rfl, rfl⟩).snoc ⟨rfl, rfl, rfl⟩
  obtain ⟨m₁, m₂, hm₁, _, hkappa, _, hF⟩ :=
    epoch_mark_predicts hrun (by decide) (by simp) (by decide)
  have hvalidators : m₁.validators = [ByteArr.fill 2] := by
    cases hm₁
    rfl
  exact ⟨m₁, _, hm₁, hvalidators, hkappa, rfl, hF _ rfl _ hvalidators.symm⟩

end CppJam.Safrole
