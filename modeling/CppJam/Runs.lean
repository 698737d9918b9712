import CppJam.Checks
import Mathlib.Data.List.Induction

/-!
# Runs of a step relation

A run is a finite sequence of steps from a start state, recorded by the labels
of its steps in order. The rules below extend a run at its end, which is how
invariants are proved, and cut it at a position, which is how two steps far
apart are related.
-/

namespace Runs

variable {σ ℓ : Type} {step : σ → ℓ → σ → Prop}

/-- `Run step s trace t`: the steps labelled by `trace` lead from `s` to `t`. -/
inductive Run (step : σ → ℓ → σ → Prop) (s : σ) : List ℓ → σ → Prop
  | nil : Run step s [] s
  | snoc {trace : List ℓ} {label : ℓ} {t u : σ} :
      Run step s trace t → step t label u → Run step s (trace ++ [label]) u

/-- A property of the labels so far and the current state holds at the end of
every run when it holds at the start and every step keeps it. -/
@[elab_as_elim] theorem Run.invariant {I : List ℓ → σ → Prop} {s : σ} (hstart : I [] s)
    (hstep : ∀ {trace label t u}, Run step s trace t → I trace t → step t label u →
      I (trace ++ [label]) u)
    {trace : List ℓ} {t : σ} (hrun : Run step s trace t) : I trace t := by
  induction hrun with
  | nil => exact hstart
  | snoc hrun hlast ih => exact hstep hrun ih hlast

/-- A run without steps stays where it is. -/
theorem Run.eq_of_nil {s t : σ} (hrun : Run step s [] t) : t = s := by
  generalize htrace : ([] : List ℓ) = trace at hrun
  cases hrun with
  | nil => rfl
  | snoc _ _ => simp at htrace

/-- The last step of a nonempty run. -/
theorem Run.last {s u : σ} {trace : List ℓ} {label : ℓ} (hrun : Run step s (trace ++ [label]) u) :
    ∃ t, Run step s trace t ∧ step t label u := by
  generalize htrace : trace ++ [label] = whole at hrun
  cases hrun with
  | nil => simp at htrace
  | snoc hrun hlast =>
    obtain ⟨rfl, hlabel⟩ := List.append_inj' htrace rfl
    cases hlabel
    exact ⟨_, hrun, hlast⟩

/-- A run can be cut at any position of its trace. -/
theorem Run.split {s u : σ} {front back : List ℓ} (hrun : Run step s (front ++ back) u) :
    ∃ t, Run step s front t ∧ Run step t back u := by
  induction back using List.reverseRecOn generalizing u with
  | nil => exact ⟨u, by simpa using hrun, .nil⟩
  | append_singleton back label ih =>
    rw [← List.append_assoc] at hrun
    obtain ⟨mid, hrun, hlast⟩ := hrun.last
    obtain ⟨t, hfront, hback⟩ := ih hrun
    exact ⟨t, hfront, hback.snoc hlast⟩

/-- The first step of a nonempty run. -/
theorem Run.head {s u : σ} {label : ℓ} {rest : List ℓ} (hrun : Run step s (label :: rest) u) :
    ∃ t, step s label t ∧ Run step t rest u := by
  have hrun : Run step s ([] ++ [label] ++ rest) u := hrun
  obtain ⟨t, hfirst, hrest⟩ := hrun.split
  obtain ⟨mid, hnil, hstep⟩ := hfirst.last
  rw [hnil.eq_of_nil] at hstep
  exact ⟨t, hstep, hrest⟩

/-- What holds at the first step and, after it, at all others, holds at every step. -/
theorem forall_steps_cons {P : σ → ℓ → Prop} {s : σ} {label : ℓ} {rest : List ℓ}
    (hfirst : P s label)
    (hrest : ∀ t, step s label t → ∀ front label' back u, rest = front ++ label' :: back →
      Run step t front u → P u label') :
    ∀ front label' back u, label :: rest = front ++ label' :: back → Run step s front u →
      P u label' := by
  intro front label' back u hsplit hrun
  cases front with
  | nil =>
    obtain ⟨rfl, _⟩ := List.cons.inj hsplit
    rwa [hrun.eq_of_nil]
  | cons first front =>
    obtain ⟨rfl, hsplit'⟩ := List.cons.inj hsplit
    obtain ⟨t, hstep, hrun'⟩ := hrun.head
    exact hrest t hstep front label' back u hsplit' hrun'

/-- The states before and after a step inside a run. -/
theorem Run.at_step {s u : σ} {front back : List ℓ} {label : ℓ}
    (hrun : Run step s (front ++ label :: back) u) :
    ∃ t t', Run step s front t ∧ step t label t' ∧ Run step t' back u := by
  obtain ⟨t, hfront, hrest⟩ := hrun.split
  obtain ⟨t', hstep, hback⟩ := hrest.head
  exact ⟨t, t', hfront, hstep, hback⟩

/-- Every label of a run belongs to a step. -/
theorem Run.step_of_mem {s u : σ} {trace : List ℓ} {label : ℓ} (hrun : Run step s trace u)
    (hlabel : label ∈ trace) : ∃ t t', step t label t' := by
  obtain ⟨front, back, rfl⟩ := List.append_of_mem hlabel
  obtain ⟨t, t', _, hstep, _⟩ := hrun.at_step
  exact ⟨t, t', hstep⟩

/-- What every step with a given kind of label keeps is kept by a run of such steps. -/
theorem Run.kept {α : Type} (f : σ → α) {C : ℓ → Prop}
    (hstep : ∀ ⦃t label u⦄, step t label u → C label → f u = f t) {s t : σ} {trace : List ℓ}
    (hrun : Run step s trace t) : (∀ label ∈ trace, C label) → f t = f s := by
  refine hrun.invariant ?_ ?_
  · exact fun _ => rfl
  · intro trace label t u _ ih hlast hall
    have hlabel := hall label (List.mem_append_right _ (List.mem_singleton_self label))
    exact (hstep hlast hlabel).trans (ih fun c hc => hall c (List.mem_append_left _ hc))

/-- The steps of a computation that can fail form a run when all of them succeed. -/
theorem Run.of_foldlM {ε : Type} {f : σ → ℓ → Except ε σ} {s t : σ} {trace : List ℓ}
    (hfold : trace.foldlM f s = .ok t) : Run (fun s label t => f s label = .ok t) s trace t := by
  induction trace using List.reverseRecOn generalizing t with
  | nil =>
    cases hfold
    exact .nil
  | append_singleton trace label ih =>
    simp only [List.foldlM_append, List.foldlM_cons, List.foldlM_nil, Checks.bind_eq_ok,
      Checks.pure_eq_ok, exists_eq_right] at hfold
    obtain ⟨mid, hfront, hlast⟩ := hfold
    exact (ih hfront).snoc hlast

/-- The steps of a partial function form a run when all of them are defined. -/
theorem Run.of_foldlM_some {f : σ → ℓ → Option σ} {s t : σ} {trace : List ℓ}
    (hfold : trace.foldlM f s = some t) : Run (fun s label t => f s label = some t) s trace t := by
  induction trace using List.reverseRecOn generalizing t with
  | nil =>
    cases hfold
    exact .nil
  | append_singleton trace label ih =>
    simp only [List.foldlM_append, List.foldlM_cons, List.foldlM_nil, Option.bind_eq_bind,
      Option.bind_eq_some_iff, Option.pure_def, Option.some.injEq, exists_eq_right] at hfold
    obtain ⟨mid, hfront, hlast⟩ := hfold
    exact (ih hfront).snoc hlast

/-- A run of a partial function is its steps one after another. -/
theorem Run.foldlM_eq_some {f : σ → ℓ → Option σ} {s t : σ} {trace : List ℓ}
    (hrun : Run (fun s label t => f s label = some t) s trace t) :
    trace.foldlM f s = some t := by
  induction hrun with
  | nil => rfl
  | snoc _ hlast ih =>
    simp only [List.foldlM_append, ih, Option.bind_eq_bind, Option.bind_some, List.foldlM_cons,
      List.foldlM_nil, hlast, Option.pure_def]

/-- Steps that determine the next state determine the end of a run. -/
theorem Run.unique (hdet : ∀ ⦃t label u u'⦄, step t label u → step t label u' → u = u') {s : σ}
    {trace : List ℓ} {t t' : σ} (hrun : Run step s trace t) (hrun' : Run step s trace t') :
    t = t' := by
  induction hrun generalizing t' with
  | nil => exact hrun'.eq_of_nil.symm
  | snoc _ hlast ih =>
    obtain ⟨mid, hfront, hlast'⟩ := hrun'.last
    obtain rfl := ih hfront
    exact hdet hlast hlast'

/-- When steps that satisfy `C` keep `I`, a run whose steps all satisfy `C` keeps `I`. -/
theorem Run.of_steps {I : σ → Prop} {C : σ → ℓ → Prop}
    (hstep : ∀ ⦃t label u⦄, step t label u → C t label → I t → I u) {s t : σ} (hs : I s)
    {trace : List ℓ} (hrun : Run step s trace t) :
    (∀ front label back u, trace = front ++ label :: back → Run step s front u → C u label) →
      I t := by
  refine hrun.invariant ?_ ?_
  · exact fun _ => hs
  · intro trace label t u hfront ih hlast hall
    refine hstep hlast (hall trace label [] t rfl hfront) (ih ?_)
    rintro front label' back v rfl hv
    exact hall front label' (back ++ [label]) v (by simp) hv

/-- When each step is matched by a step of another system between related states, a run is matched
by a run. -/
theorem Run.matched {τ : Type} {step' : τ → ℓ → τ → Prop} {R : τ → σ → Prop}
    (hstep : ∀ ⦃t label u a⦄, step t label u → R a t → ∃ b, step' a label b ∧ R b u)
    {s t : σ} {a : τ} (hs : R a s) {trace : List ℓ} (hrun : Run step s trace t) :
    ∃ b, Run step' a trace b ∧ R b t := by
  refine hrun.invariant ?_ ?_
  · exact ⟨a, .nil, hs⟩
  · rintro trace label t u _ ⟨b, hrun', hb⟩ hlast
    obtain ⟨c, hstep', hc⟩ := hstep hlast hb
    exact ⟨c, hrun'.snoc hstep', hc⟩

/-- One run after another. -/
theorem Run.append {s t u : σ} {front back : List ℓ} (hfront : Run step s front t)
    (hback : Run step t back u) : Run step s (front ++ back) u := by
  induction hback with
  | nil => rwa [List.append_nil]
  | snoc _ hlast ih =>
    rw [← List.append_assoc]
    exact ih.snoc hlast

/-- When steps keep `I` and each is seen as a run of another system, a run is seen as the runs of
its steps, one after another. -/
theorem Run.viewed {τ κ : Type} {step' : τ → κ → τ → Prop} {I : σ → Prop} {view : σ → τ}
    {shown : ℓ → List κ}
    (hstep : ∀ ⦃t label u⦄, step t label u → I t → I u ∧ Run step' (view t) (shown label) (view u))
    {s t : σ} (hs : I s) {trace : List ℓ} (hrun : Run step s trace t) :
    I t ∧ Run step' (view s) (trace.flatMap shown) (view t) := by
  refine hrun.invariant ?_ ?_
  · exact ⟨hs, .nil⟩
  · rintro trace label t u _ ⟨ht, hfront⟩ hlast
    obtain ⟨hu, hback⟩ := hstep hlast ht
    refine ⟨hu, ?_⟩
    rw [List.flatMap_append, List.flatMap_singleton]
    exact hfront.append hback

/-- A run of steps that are all steps of another kind. -/
theorem Run.mono {step' : σ → ℓ → σ → Prop}
    (hstep : ∀ ⦃s label t⦄, step s label t → step' s label t) {s t : σ} {trace : List ℓ}
    (hrun : Run step s trace t) : Run step' s trace t := by
  induction hrun with
  | nil => exact .nil
  | snoc _ hlast ih => exact ih.snoc (hstep hlast)

/-- When there is always a step that keeps `I` and lowers a rank until a goal is reached, the goal
can be reached. -/
theorem exists_run_of_progress {I goal : σ → Prop} (rank : σ → ℕ)
    (hprogress : ∀ s, I s → ¬goal s → ∃ label t, step s label t ∧ I t ∧ rank t < rank s)
    {s : σ} (hs : I s) : ∃ trace t, Run step s trace t ∧ goal t := by
  induction hrank : rank s using Nat.strong_induction_on generalizing s with
  | h n ih =>
    by_cases hgoal : goal s
    · exact ⟨[], s, .nil, hgoal⟩
    · obtain ⟨label, t, hstep, ht, hlt⟩ := hprogress s hs hgoal
      obtain ⟨trace, u, hrun, hu⟩ := ih (rank t) (hrank ▸ hlt) ht rfl
      exact ⟨[label] ++ trace, u, (Run.nil.snoc hstep).append hrun, hu⟩

/-- When steps keep `C` and do not raise a rank, and the steps of a kind lower it, a run has at
most as many steps of this kind as the rank at its start. -/
theorem Run.countP_le {C : σ → Prop} {rank : σ → ℕ} {p : ℓ → Bool}
    (hstep : ∀ ⦃t label u⦄, step t label u → C t →
      C u ∧ rank u ≤ rank t ∧ (p label = true → rank u < rank t))
    {s t : σ} (hs : C s) {trace : List ℓ} (hrun : Run step s trace t) :
    C t ∧ rank t + trace.countP p ≤ rank s := by
  refine hrun.invariant ?_ ?_
  · exact ⟨hs, le_rfl⟩
  · rintro trace label t u _ ⟨ht, hrank⟩ hlast
    obtain ⟨hu, hle, hlower⟩ := hstep hlast ht
    refine ⟨hu, ?_⟩
    rw [List.countP_append, List.countP_singleton]
    split_ifs with hlabel
    · have hlt := hlower hlabel
      omega
    · omega

/-- When a step keeps `I` exactly under a condition `C` on the state before it, all
states of a run satisfy `I` exactly when all its steps satisfy `C`. -/
theorem Run.forall_states_iff {I : σ → Prop} {C : σ → ℓ → Prop}
    (hdet : ∀ ⦃t label u u'⦄, step t label u → step t label u' → u = u')
    (hstep : ∀ ⦃t label u⦄, step t label u → I t → (I u ↔ C t label)) {s t : σ} (hs : I s)
    {trace : List ℓ} (hrun : Run step s trace t) :
    (∀ front back u, trace = front ++ back → Run step s front u → I u) ↔
      ∀ front label back u, trace = front ++ label :: back → Run step s front u → C u label := by
  constructor
  · rintro hall front label back u rfl hfront
    obtain ⟨v, w, hfront', hlabel, _⟩ := hrun.at_step
    obtain rfl := hfront.unique hdet hfront'
    have hw : I w := hall (front ++ [label]) back w (by simp) (hfront.snoc hlabel)
    exact (hstep hlabel (hall front (label :: back) u rfl hfront)).mp hw
  · rintro hall front back u rfl hu
    refine Run.of_steps (I := I) (C := C) (fun t label v hlabel hC ht => (hstep hlabel ht).mpr hC)
      hs hu ?_
    rintro front' label back' v rfl hv
    exact hall front' label (back' ++ back) v (by simp) hv

end Runs
