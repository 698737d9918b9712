import CppJam.Runs

/-!
# What a history says about now

A history is the list of events so far, the latest last. Something is open since an event
that opened it and none that closed it. A counter that is only looked at by samples hides
the ticks since the last sample. The times of the events of a run whose clock never goes
back are in order.
-/

namespace Histories

variable {ℓ : Type} {trace : List ℓ} {e : ℓ}

/-! ## Open since -/

/-- Some event opened, and none after it closed. -/
def Since (opens closes : ℓ → Prop) (trace : List ℓ) : Prop :=
  ∃ front e back, trace = front ++ e :: back ∧ opens e ∧ ∀ f ∈ back, ¬closes f

section Since

variable {opens closes : ℓ → Prop}

/-- Nothing is open before the first event. -/
theorem not_since_nil : ¬Since opens closes ([] : List ℓ) := by
  rintro ⟨front, e, back, hsplit, _⟩
  exact absurd hsplit (by simp)

/-- What is open stays open while nothing closes it. -/
theorem Since.append (hopen : Since opens closes trace) {later : List ℓ}
    (hlater : ∀ f ∈ later, ¬closes f) : Since opens closes (trace ++ later) := by
  obtain ⟨front, e, back, rfl, he, hback⟩ := hopen
  refine ⟨front, e, back ++ later, by simp, he, ?_⟩
  intro f hf
  rcases List.mem_append.mp hf with hf | hf
  · exact hback f hf
  · exact hlater f hf

/-- One more event opens, or leaves open what was open and does not close it. -/
theorem since_append_singleton :
    Since opens closes (trace ++ [e]) ↔ opens e ∨ (Since opens closes trace ∧ ¬closes e) := by
  constructor
  · rintro ⟨front, f, back, hsplit, hf, hback⟩
    rcases List.eq_nil_or_concat' back with rfl | ⟨back, last, rfl⟩
    · obtain ⟨_, hlast⟩ := List.append_inj' hsplit rfl
      cases hlast
      exact .inl hf
    · rw [← List.cons_append, ← List.append_assoc] at hsplit
      obtain ⟨rfl, hlast⟩ := List.append_inj' hsplit rfl
      cases hlast
      refine .inr ⟨⟨front, f, back, rfl, hf, fun g hg => hback g ?_⟩, hback e ?_⟩
      · exact List.mem_append_left _ hg
      · exact List.mem_append_right _ (List.mem_singleton_self e)
  · rintro (he | ⟨hopen, he⟩)
    · exact ⟨trace, e, [], rfl, he, by simp⟩
    · exact hopen.append (by simpa using he)

end Since

/-! ## Ticks between samples -/

/-- Every stretch from one sample to the next has fewer than `n` ticks. -/
def Sparse (tick sample : ℓ → Bool) (n : ℕ) (trace : List ℓ) : Prop :=
  ∀ front rest e back, trace = front ++ rest ++ e :: back → sample e = true →
    (∀ f ∈ rest, sample f = false) → rest.countP tick < n

/-- From an event that sets the anchor on there was no tick until a sample, and `k` ticks but no
sample after that. -/
def Unseen (anchor : ℓ → Prop) (tick sample : ℓ → Bool) (k : ℕ) (trace : List ℓ) : Prop :=
  ∃ front o quiet rest, trace = front ++ o :: (quiet ++ rest) ∧ anchor o ∧
    (∀ e ∈ quiet, tick e = false) ∧ (∀ e ∈ rest, sample e = false) ∧ rest.countP tick = k

section Unseen

variable {anchor : ℓ → Prop} {tick sample : ℓ → Bool} {n k : ℕ}

/-- A short history is sparse. -/
theorem sparse_of_length_lt (hlength : trace.length < n) : Sparse tick sample n trace := by
  rintro front rest e back rfl _ _
  have hcount : rest.countP tick ≤ rest.length := List.countP_le_length
  simp only [List.length_append] at hlength
  omega

/-- A sparse history was sparse before. -/
theorem Sparse.of_append {later : List ℓ} (hsparse : Sparse tick sample n (trace ++ later)) :
    Sparse tick sample n trace := by
  rintro front rest e back rfl
  exact hsparse front rest e (back ++ later) (by simp)

/-- An event that sets the anchor. -/
theorem unseen_of_anchor (he : anchor e) : Unseen anchor tick sample 0 (trace ++ [e]) :=
  ⟨trace, e, [], [], rfl, he, by simp, by simp, rfl⟩

/-- An event that is not a sample adds its tick. -/
theorem Unseen.concat (hunseen : Unseen anchor tick sample k trace) (he : sample e = false) :
    Unseen anchor tick sample (k + if tick e then 1 else 0) (trace ++ [e]) := by
  obtain ⟨front, o, quiet, rest, rfl, ho, hquiet, hrest, rfl⟩ := hunseen
  refine ⟨front, o, quiet, rest ++ [e], by simp, ho, hquiet, ?_, ?_⟩
  · intro f hf
    rcases List.mem_append.mp hf with hf | hf
    · exact hrest f hf
    · rwa [List.mem_singleton.mp hf]
  · rw [List.countP_append, List.countP_singleton]

/-- Nothing ticked since the anchor when nothing ticked since the sample. -/
theorem Unseen.exists_quiet (hunseen : Unseen anchor tick sample 0 trace) :
    ∃ front o mid, trace = front ++ o :: mid ∧ anchor o ∧ ∀ e ∈ mid, tick e = false := by
  obtain ⟨front, o, quiet, rest, rfl, ho, hquiet, _, hcount⟩ := hunseen
  refine ⟨front, o, quiet ++ rest, rfl, ho, ?_⟩
  intro e he
  rcases List.mem_append.mp he with he | he
  · exact hquiet e he
  · simpa using List.countP_eq_zero.mp hcount e he

/-- A sample after which nothing has ticked. -/
theorem Unseen.sampled (hunseen : Unseen anchor tick sample 0 trace) (he : tick e = false) :
    Unseen anchor tick sample 0 (trace ++ [e]) := by
  obtain ⟨front, o, mid, rfl, ho, hmid⟩ := hunseen.exists_quiet
  refine ⟨front, o, mid ++ [e], [], by simp, ho, ?_, by simp, rfl⟩
  intro f hf
  rcases List.mem_append.mp hf with hf | hf
  · exact hmid f hf
  · rwa [List.mem_singleton.mp hf]

/-- In a sparse history fewer than `n` ticks are unseen before a sample. -/
theorem Unseen.lt (hunseen : Unseen anchor tick sample k trace)
    (hsparse : Sparse tick sample n (trace ++ [e])) (he : sample e = true) : k < n := by
  obtain ⟨front, o, quiet, rest, rfl, _, _, hrest, rfl⟩ := hunseen
  exact hsparse (front ++ o :: quiet) rest e [] (by simp) he hrest

end Unseen

/-! ## Times in order -/

section Times

variable {σ τ : Type} [Preorder τ] {step : σ → ℓ → σ → Prop}

/-- When every step happens no earlier than the clock, and sets it, no event of a run is later than
the clock, and the events are in order. -/
theorem times_ordered (clock : σ → τ) (time : ℓ → τ)
    (hstep : ∀ ⦃s e t⦄, step s e t → clock s ≤ time e ∧ clock t = time e) {s t : σ}
    (hrun : Runs.Run step s trace t) :
    (∀ e ∈ trace, time e ≤ clock t) ∧ trace.Pairwise (fun e f => time e ≤ time f) := by
  refine hrun.invariant ?_ ?_
  · simp
  · rintro trace e t u _ ⟨hbefore, hordered⟩ hlast
    obtain ⟨hle, hclock⟩ := hstep hlast
    have hlater : ∀ f ∈ trace, time f ≤ time e := fun f hf => (hbefore f hf).trans hle
    refine ⟨?_, ?_⟩
    · intro f hf
      rw [hclock]
      rcases List.mem_append.mp hf with hf | hf
      · exact hlater f hf
      · rw [List.mem_singleton.mp hf]
    · rw [List.pairwise_append]
      refine ⟨hordered, List.pairwise_singleton _ e, fun f hf g hg => ?_⟩
      rw [List.mem_singleton.mp hg]
      exact hlater f hf

end Times

end Histories
