import Mathlib.Algebra.GroupWithZero.Nat
import CppJam.Checks

/-!
# Loops that update one slot of a vector per round

A loop over a vector of independent slots changes in every round the one slot
that the round's element names. Such a loop succeeds when for every slot the
sequence of its own updates does, and the final slot is their result: what
happens to one slot does not depend on the others, nor on how the rounds of
different slots interleave.
-/

namespace Slots

open Checks

variable {ε α σ τ ρ : Type}

/-- Update the slot at an index by a function that can fail; an index outside the vector
fails with `outside`. -/
def modifyAt (outside : ε) (slots : List σ) (i : ℕ) (f : σ → Except ε σ) :
    Except ε (List σ) :=
  match slots[i]? with
  | some a => slots.set i <$> f a
  | none => .error outside

/-- An update succeeds when the index is inside and the function succeeds on its slot. -/
theorem modifyAt_eq_ok {outside : ε} {slots slots' : List σ} {i : ℕ} {f : σ → Except ε σ} :
    modifyAt outside slots i f = .ok slots' ↔
      ∃ a b, slots[i]? = some a ∧ f a = .ok b ∧ slots.set i b = slots' := by
  unfold modifyAt
  cases slots[i]? with
  | none => simp
  | some a => simp

/-- `slots'` holds at every index what `g` makes of the slot at that index. -/
structure Slotwise (g : ℕ → σ → Except ε τ) (slots : List σ) (slots' : List τ) : Prop where
  length_eq : slots'.length = slots.length
  slot : ∀ i a, slots[i]? = some a → ∃ b, slots'[i]? = some b ∧ g i a = .ok b

/-- A slot on which the computation cannot fail. -/
theorem Slotwise.getElem?_eq {g : ℕ → σ → Except ε τ} {slots : List σ} {slots' : List τ}
    (hslots : Slotwise g slots slots') {i : ℕ} {f : σ → τ} (hg : ∀ a, g i a = .ok (f a)) :
    slots'[i]? = slots[i]?.map f := by
  cases ha : slots[i]? with
  | none =>
    rw [List.getElem?_eq_none_iff, ← hslots.length_eq, ← List.getElem?_eq_none_iff] at ha
    exact ha
  | some a =>
    obtain ⟨b, hb, hab⟩ := hslots.slot i a ha
    obtain rfl : f a = b := Except.ok.inj ((hg a).symm.trans hab)
    exact hb

/-- Two slotwise computations one after the other are one slotwise computation. -/
theorem slotwise_bind {g : ℕ → σ → Except ε τ} {h : ℕ → τ → Except ε ρ} {slots : List σ}
    {slots' : List ρ} :
    Slotwise (fun i a => g i a >>= h i) slots slots' ↔
      ∃ mid, Slotwise g slots mid ∧ Slotwise h mid slots' := by
  constructor
  · rintro ⟨hlength, hslot⟩
    have hmid : ∀ i : Fin slots.length, ∃ b, g i slots[i] = .ok b := by
      intro i
      obtain ⟨_, _, hboth⟩ := hslot i slots[i] (List.getElem?_eq_getElem i.isLt)
      obtain ⟨b, hb, _⟩ := bind_eq_ok.mp hboth
      exact ⟨b, hb⟩
    choose f hf using hmid
    refine ⟨List.ofFn f, ⟨List.length_ofFn, ?_⟩, ⟨by simp [hlength], ?_⟩⟩
    · intro i a ha
      obtain ⟨hi, rfl⟩ := List.getElem?_eq_some_iff.mp ha
      exact ⟨f ⟨i, hi⟩, by simp [hi], hf ⟨i, hi⟩⟩
    · intro i b hb
      obtain ⟨hi, rfl⟩ := List.getElem?_eq_some_iff.mp hb
      rw [List.length_ofFn] at hi
      obtain ⟨c, hc, hboth⟩ := hslot i slots[i] (List.getElem?_eq_getElem hi)
      obtain ⟨b, hb, hbc⟩ := bind_eq_ok.mp hboth
      refine ⟨c, hc, ?_⟩
      obtain rfl : f ⟨i, hi⟩ = b := Except.ok.inj ((hf ⟨i, hi⟩).symm.trans hb)
      simpa using hbc
  · rintro ⟨mid, hfirst, hsecond⟩
    refine ⟨hsecond.length_eq.trans hfirst.length_eq, ?_⟩
    intro i a ha
    obtain ⟨b, hb, hab⟩ := hfirst.slot i a ha
    obtain ⟨c, hc, hbc⟩ := hsecond.slot i b hb
    exact ⟨c, hc, bind_eq_ok.mpr ⟨b, hab, hbc⟩⟩

/-- A slotwise computation that cannot fail maps the slots. -/
theorem slotwise_ok_iff {f : σ → τ} {slots : List σ} {slots' : List τ} :
    Slotwise (fun _ a => (.ok (f a) : Except ε τ)) slots slots' ↔ slots.map f = slots' := by
  constructor
  · intro hslots
    apply List.ext_getElem?
    intro i
    rw [List.getElem?_map, hslots.getElem?_eq fun _ => rfl]
  · rintro rfl
    exact ⟨List.length_map _, fun i a ha => ⟨f a, by simp [ha], rfl⟩⟩

/-- An update of one slot is a slotwise computation that leaves the other slots. -/
theorem modifyAt_slotwise {outside : ε} {j : ℕ} {f : σ → Except ε σ} {slots slots' : List σ} :
    modifyAt outside slots j f = .ok slots' ↔
      j < slots.length ∧ Slotwise (fun i a => if j = i then f a else .ok a) slots slots' := by
  rw [modifyAt_eq_ok]
  constructor
  · rintro ⟨a₀, b₀, ha₀, hb₀, rfl⟩
    have hj : j < slots.length := (List.getElem?_eq_some_iff.mp ha₀).1
    refine ⟨hj, List.length_set, fun i a ha => ?_⟩
    by_cases hi : j = i
    · subst hi
      obtain rfl : a₀ = a := Option.some.inj (ha₀.symm.trans ha)
      exact ⟨b₀, List.getElem?_set_self hj, by rw [if_pos rfl, hb₀]⟩
    · exact ⟨a, by rw [List.getElem?_set_ne hi, ha], if_neg hi⟩
  · rintro ⟨hj, hslots⟩
    obtain ⟨b₀, hb₀, hf⟩ := hslots.slot j slots[j] (List.getElem?_eq_getElem hj)
    rw [if_pos rfl] at hf
    refine ⟨_, b₀, List.getElem?_eq_getElem hj, hf, List.ext_getElem? fun i => ?_⟩
    by_cases hi : j = i
    · subst hi
      rw [List.getElem?_set_self hj, hb₀]
    · have hkept : slots'[i]? = slots[i]?.map id := hslots.getElem?_eq fun _ => if_neg hi
      rw [List.getElem?_set_ne hi, hkept, Option.map_id, id]

/-- A loop of updates succeeds when every round names a slot and the updates of each slot
succeed one after the other. -/
theorem foldlM_modifyAt {outside : ε} {index : α → ℕ} {f : α → σ → Except ε σ} {l : List α}
    {slots slots' : List σ} :
    l.foldlM (fun slots a => modifyAt outside slots (index a) (f a)) slots = .ok slots' ↔
      (∀ a ∈ l, index a < slots.length) ∧
      Slotwise (fun i => (l.filter (fun x => index x = i)).foldlM (fun slot x => f x slot))
        slots slots' := by
  induction l generalizing slots with
  | nil =>
    simp only [List.foldlM_nil, pure_eq_ok, List.filter_nil]
    constructor
    · rintro rfl
      exact ⟨by simp, slotwise_ok_iff.mpr (List.map_id _)⟩
    · rintro ⟨_, hslots⟩
      rw [← slotwise_ok_iff.mp hslots, List.map_id']
  | cons x l ih =>
    -- seen from a slot, the first round is an update or nothing
    have hround : (fun i => ((x :: l).filter (fun x => index x = i)).foldlM
        (fun slot x => f x slot)) = fun i a => (if index x = i then f x a else .ok a) >>=
          (l.filter (fun x => index x = i)).foldlM (fun slot x => f x slot) := by
      funext i a
      by_cases hi : index x = i
      · rw [List.filter_cons_of_pos (by simpa using hi), List.foldlM_cons, if_pos hi]
      · rw [List.filter_cons_of_neg (by simpa using hi), if_neg hi]
        rfl
    rw [hround, slotwise_bind, List.foldlM_cons, bind_eq_ok, List.forall_mem_cons]
    simp only [modifyAt_slotwise, ih]
    constructor
    · rintro ⟨mid, ⟨hx, hfirst⟩, hbounds, hrest⟩
      rw [hfirst.length_eq] at hbounds
      exact ⟨⟨hx, hbounds⟩, mid, hfirst, hrest⟩
    · rintro ⟨⟨hx, hbounds⟩, mid, hfirst, hrest⟩
      rw [← hfirst.length_eq] at hbounds
      exact ⟨mid, ⟨hx, hfirst⟩, hbounds, hrest⟩

/-- A loop over all indices updates every slot once. -/
theorem foldlM_range_modifyAt {outside : ε} {f : ℕ → σ → Except ε σ} {slots slots' : List σ} :
    (List.range slots.length).foldlM (fun slots i => modifyAt outside slots i (f i)) slots =
        .ok slots' ↔ Slotwise f slots slots' := by
  have honce : ∀ i a, slots[i]? = some a →
      ((List.range slots.length).filter (fun x => x = i)).foldlM (fun slot x => f x slot) a =
        f i a := by
    intro i a ha
    have hi := (List.getElem?_eq_some_iff.mp ha).1
    rw [List.filter_eq, List.count_eq_one_of_mem List.nodup_range (List.mem_range.mpr hi)]
    exact bind_pure _
  rw [foldlM_modifyAt]
  constructor
  · rintro ⟨_, hlength, hslots⟩
    refine ⟨hlength, fun i a ha => ?_⟩
    rw [← honce i a ha]
    exact hslots i a ha
  · rintro ⟨hlength, hslots⟩
    refine ⟨fun i hi => List.mem_range.mp hi, hlength, fun i a ha => ?_⟩
    rw [honce i a ha]
    exact hslots i a ha

/-- Counting slots after one of them was replaced. -/
theorem countP_set {p : σ → Bool} {slots : List σ} {i : ℕ} {a : σ} (ha : slots[i]? = some a)
    (b : σ) : (slots.set i b).countP p + [a].countP p = slots.countP p + [b].countP p := by
  obtain ⟨hi, rfl⟩ := List.getElem?_eq_some_iff.mp ha
  have hle := List.boole_getElem_le_countP (p := p) hi
  rw [List.countP_set hi, List.countP_singleton, List.countP_singleton]
  omega

/-- What holds of all slots holds after one of them was replaced, when it holds of the new one. -/
theorem forall_mem_set {P : σ → Prop} {slots : List σ} (hslots : ∀ a ∈ slots, P a) {b : σ}
    (hb : P b) (i : ℕ) : ∀ a ∈ slots.set i b, P a := by
  intro a ha
  rcases List.mem_or_eq_of_mem_set ha with hold | rfl
  · exact hslots a hold
  · exact hb

/-- Adding up the slots after one of them was replaced. -/
theorem sum_map_set {f : σ → ℕ} {slots : List σ} {i : ℕ} {a : σ} (ha : slots[i]? = some a)
    (b : σ) : ((slots.set i b).map f).sum + f a = (slots.map f).sum + f b := by
  induction slots generalizing i with
  | nil => simp at ha
  | cons x slots ih =>
    cases i with
    | zero =>
      cases ha
      simp only [List.set_cons_zero, List.map_cons, List.sum_cons]
      omega
    | succ i =>
      have hrest := ih ha
      simp only [List.set_cons_succ, List.map_cons, List.sum_cons]
      omega

end Slots
