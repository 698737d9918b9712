import Mathlib.Data.List.Sort

/-!
# Loops that stop at the first failed check

A validating loop visits a list, tests each element and updates its variables;
the first failed test ends the whole computation with an error. The rules below
say when such a loop succeeds and what it leaves in its variables. The second
rule is for loops that also remember the previous key and demand that keys
strictly increase.
-/

namespace Checks

variable {ε α β κ ρ : Type}

/-- Stop with error `e` when `p` holds. -/
def failIf (p : Prop) [Decidable p] (e : ε) : Except ε Unit :=
  if p then .error e else .ok ()

/-- A passed test says that its error condition is false. -/
@[simp] theorem failIf_eq_ok {p : Prop} [Decidable p] {e : ε} {u : Unit} :
    failIf p e = .ok u ↔ ¬p := by
  unfold failIf
  split_ifs with hp <;> simp [hp]

/-- A sequence of two computations succeeds when the first does and the second
does on its result. -/
@[simp] theorem bind_eq_ok {x : Except ε α} {f : α → Except ε β} {b : β} :
    (x >>= f) = .ok b ↔ ∃ a, x = .ok a ∧ f a = .ok b := by
  cases x with
  | error e => simp [Bind.bind, Except.bind]
  | ok a => simp [Bind.bind, Except.bind]

/-- Returning a value succeeds with that value. -/
@[simp] theorem pure_eq_ok {a b : α} : (pure a : Except ε α) = .ok b ↔ a = b := by
  simp [Pure.pure, Except.pure]

/-- Mapping a result succeeds when the computation does. -/
@[simp] theorem map_eq_ok {x : Except ε α} {f : α → β} {b : β} :
    (f <$> x) = .ok b ↔ ∃ a, x = .ok a ∧ f a = b := by
  cases x with
  | error e => simp [Functor.map, Except.map]
  | ok a => simp [Functor.map, Except.map]

/-- Renaming errors does not change when a computation succeeds. -/
@[simp] theorem mapError_eq_ok {ε' : Type} {x : Except ε α} {f : ε → ε'} {a : α} :
    x.mapError f = .ok a ↔ x = .ok a := by
  cases x with
  | error e => simp [Except.mapError]
  | ok b => simp [Except.mapError]

/-- Renaming errors renames the error of a failed computation. -/
theorem mapError_eq_error {ε' : Type} {x : Except ε α} {f : ε → ε'} {e : ε'} :
    x.mapError f = .error e ↔ ∃ c, x = .error c ∧ f c = e := by
  cases x with
  | error c => simp [Except.mapError]
  | ok a => simp [Except.mapError]

/-- A failed test says that its error condition is true. -/
theorem failIf_eq_error {p : Prop} [Decidable p] {e e' : ε} :
    failIf p e = .error e' ↔ p ∧ e = e' := by
  unfold failIf
  split_ifs with hp <;> simp [hp]

/-- A sequence of two computations fails when the first does or the second does
on its result. -/
theorem bind_eq_error {x : Except ε α} {f : α → Except ε β} {e : ε} :
    (x >>= f) = .error e ↔ x = .error e ∨ ∃ a, x = .ok a ∧ f a = .error e := by
  cases x with
  | error e => simp [Bind.bind, Except.bind]
  | ok a => simp [Bind.bind, Except.bind]

/-- Returning a value does not fail. -/
theorem pure_ne_error {a : α} {e : ε} : (pure a : Except ε α) ≠ .error e := by
  simp [Pure.pure, Except.pure]

/-- Mapping a result fails when the computation does. -/
theorem map_eq_error {x : Except ε α} {f : α → β} {e : ε} :
    (f <$> x) = .error e ↔ x = .error e := by
  cases x with
  | error e => simp [Functor.map, Except.map]
  | ok a => simp [Functor.map, Except.map]

/-- A computation does not both succeed and fail. -/
theorem not_error_of_ok {x : Except ε α} {a : α} (hok : x = .ok a) (e : ε) : x ≠ .error e := by
  rintro rfl
  cases hok

/-- What follows a failed test is not reached. -/
theorem failIf_bind_of {p : Prop} [Decidable p] {e : ε} {f : Unit → Except ε β} (hp : p) :
    (failIf p e >>= f) = .error e := by
  rw [failIf, if_pos hp]
  rfl

/-- A passed test is followed by the rest. -/
theorem failIf_bind_of_not {p : Prop} [Decidable p] {e : ε} {f : Unit → Except ε β} (hp : ¬p) :
    (failIf p e >>= f) = f () := by
  rw [failIf, if_neg hp]
  rfl

/-- A value is passed on. -/
theorem ok_bind (a : α) (f : α → Except ε β) : (Except.ok a >>= f) = f a := rfl

/-- An error is passed on. -/
theorem error_bind (e : ε) (f : α → Except ε β) : (Except.error e >>= f) = .error e := rfl

/-- The loop fails with `e` in the round of `a`, which begins with the variables `mid`. -/
def FailsAt (body : ρ → α → Except ε ρ) (l : List α) (r : ρ) (e : ε) (mid : ρ) (a : α) : Prop :=
  ∃ front back, l = front ++ a :: back ∧ front.foldlM body r = .ok mid ∧ body mid a = .error e

/-- A loop that fails does so in one of its rounds. -/
theorem foldlM_eq_error_iff_failsAt {body : ρ → α → Except ε ρ} {l : List α} {r : ρ} {e : ε} :
    l.foldlM body r = .error e ↔ ∃ mid a, FailsAt body l r e mid a := by
  constructor
  · intro hl
    induction l generalizing r with
    | nil => exact absurd hl pure_ne_error
    | cons a l ih =>
      rw [List.foldlM_cons, bind_eq_error] at hl
      rcases hl with ha | ⟨r', hr', hrest⟩
      · exact ⟨r, a, [], l, rfl, rfl, ha⟩
      · obtain ⟨mid, b, front, back, rfl, hfront, hb⟩ := ih hrest
        refine ⟨mid, b, a :: front, back, rfl, ?_, hb⟩
        rw [List.foldlM_cons, hr']
        exact hfront
  · rintro ⟨mid, a, front, back, rfl, hfront, ha⟩
    rw [List.foldlM_append, hfront, ok_bind, List.foldlM_cons, ha]
    rfl

/-- The error of a loop is the error of its body on some element. -/
theorem exists_of_foldlM_eq_error {body : ρ → α → Except ε ρ} {l : List α} {r : ρ} {e : ε}
    (hl : l.foldlM body r = .error e) : ∃ a ∈ l, ∃ r', body r' a = .error e := by
  obtain ⟨mid, a, front, back, rfl, _, ha⟩ := foldlM_eq_error_iff_failsAt.mp hl
  exact ⟨a, by simp, mid, ha⟩

/-- A loop whose body fails by a defect of the element fails by the first defect. -/
theorem foldlM_eq_error_iff {body : ρ → α → Except ε ρ} {defect : α → Option ε}
    (hbody : ∀ r a e, body r a = .error e ↔ defect a = some e) (l : List α) (r : ρ) (e : ε) :
    l.foldlM body r = .error e ↔ l.findSome? defect = some e := by
  induction l generalizing r with
  | nil => simp [pure_ne_error]
  | cons a l ih =>
    rw [List.foldlM_cons, bind_eq_error, List.findSome?_cons, hbody]
    cases ha : body r a with
    | error c =>
      rw [hbody] at ha
      simp [ha]
    | ok r' =>
      have hnone : defect a = none := by
        rw [Option.eq_none_iff_forall_ne_some]
        intro c hc
        rw [← hbody r, ha] at hc
        cases hc
      simp [hnone, ih]

/-- A loop whose body fails by a defect of the element fails in the round of the first element
with a defect. -/
theorem exists_failsAt_iff {body : ρ → α → Except ε ρ} {defect : α → Option ε}
    (hbody : ∀ r a e, body r a = .error e ↔ defect a = some e) {l : List α} {r : ρ} {e : ε}
    {a : α} :
    (∃ mid, FailsAt body l r e mid a) ↔
      ∃ front back, l = front ++ a :: back ∧ (∀ b ∈ front, defect b = none) ∧
        defect a = some e := by
  have hpassed (front : List α) :
      (∃ mid, front.foldlM body r = .ok mid) ↔ ∀ b ∈ front, defect b = none := by
    rw [← List.findSome?_eq_none_iff]
    have herror := foldlM_eq_error_iff hbody front r
    cases hfront : front.foldlM body r with
    | ok mid =>
      simp only [hfront, reduceCtorEq, false_iff] at herror
      simpa using Option.eq_none_iff_forall_ne_some.mpr herror
    | error c => simp [(herror c).mp hfront]
  constructor
  · rintro ⟨mid, front, back, hl, hfront, ha⟩
    exact ⟨front, back, hl, (hpassed front).mp ⟨mid, hfront⟩, (hbody mid a e).mp ha⟩
  · rintro ⟨front, back, hl, hnone, ha⟩
    obtain ⟨mid, hfront⟩ := (hpassed front).mpr hnone
    exact ⟨mid, front, back, hl, hfront, (hbody mid a e).mpr ha⟩

/-- A loop whose body tests `P` and then updates by `emit` succeeds when every
element passes, and its variables are then those of the plain fold. -/
theorem foldlM_eq_ok_iff {body : ρ → α → Except ε ρ} {P : α → Prop} {emit : ρ → α → ρ}
    (hbody : ∀ r a r', body r a = .ok r' ↔ P a ∧ emit r a = r') (l : List α) (r r' : ρ) :
    l.foldlM body r = .ok r' ↔ (∀ a ∈ l, P a) ∧ l.foldl emit r = r' := by
  induction l generalizing r with
  | nil => simp
  | cons a l ih =>
    simp only [List.foldlM_cons, bind_eq_ok, hbody, List.forall_mem_cons, List.foldl_cons]
    constructor
    · rintro ⟨mid, ⟨ha, rfl⟩, hrest⟩
      obtain ⟨hl, hfold⟩ := (ih _).mp hrest
      exact ⟨⟨ha, hl⟩, hfold⟩
    · rintro ⟨⟨ha, hl⟩, hfold⟩
      exact ⟨emit r a, ⟨ha, rfl⟩, (ih _).mpr ⟨hl, hfold⟩⟩

/-- A loop whose body succeeds and keeps an invariant succeeds and keeps it. -/
theorem foldlM_total {body : ρ → α → Except ε ρ} {I : ρ → Prop} {l : List α}
    (hbody : ∀ a ∈ l, ∀ r, I r → ∃ r', body r a = .ok r' ∧ I r') {r : ρ} (hr : I r) :
    ∃ r', l.foldlM body r = .ok r' ∧ I r' := by
  induction l generalizing r with
  | nil => exact ⟨r, rfl, hr⟩
  | cons a l ih =>
    obtain ⟨ha, hl⟩ := List.forall_mem_cons.mp hbody
    obtain ⟨mid, hmid, hI⟩ := ha r hr
    obtain ⟨r', hr', hI'⟩ := ih hl hI
    exact ⟨r', by rw [List.foldlM_cons, hmid]; exact hr', hI'⟩

/-- What the rounds of a loop emit, each for the variables it starts with, until the loop
ends or fails. -/
def emitted (body : ρ → α → Except ε ρ) (emit : ρ → α → List β) : List α → ρ → List β
  | [], _ => []
  | a :: l, r => emit r a ++
    match body r a with
    | .ok r' => emitted body emit l r'
    | .error _ => []

/-- All that a loop emits has a property that the rounds ensure under an invariant. -/
theorem forall_mem_emitted {body : ρ → α → Except ε ρ} {emit : ρ → α → List β} {I : ρ → Prop}
    {Q : β → Prop} {l : List α} (hbody : ∀ r a r', I r → body r a = .ok r' → I r')
    (hemit : ∀ a ∈ l, ∀ r, I r → ∀ b ∈ emit r a, Q b) {r : ρ} (hr : I r) :
    ∀ b ∈ emitted body emit l r, Q b := by
  induction l generalizing r with
  | nil => simp [emitted]
  | cons a l ih =>
    obtain ⟨ha, hl⟩ := List.forall_mem_cons.mp hemit
    rw [emitted]
    intro b hb
    rcases List.mem_append.mp hb with hb | hb
    · exact ha r hr b hb
    · cases hround : body r a with
      | error e => simp [hround] at hb
      | ok r' =>
        rw [hround] at hb
        exact ih hl (hbody r a r' hr hround) b hb

/-- A round that is reached emits. -/
theorem mem_emitted {body : ρ → α → Except ε ρ} {emit : ρ → α → List β} {front back : List α}
    {a : α} {r r' : ρ} {b : β} (hfront : front.foldlM body r = .ok r') (hb : b ∈ emit r' a) :
    b ∈ emitted body emit (front ++ a :: back) r := by
  induction front generalizing r with
  | nil =>
    obtain rfl : r = r' := pure_eq_ok.mp hfront
    exact List.mem_append_left _ hb
  | cons c front ih =>
    rw [List.foldlM_cons] at hfront
    obtain ⟨mid, hmid, hrest⟩ := bind_eq_ok.mp hfront
    rw [List.cons_append, emitted, hmid]
    exact List.mem_append_right _ (ih hrest)

/-- A loop whose body succeeds only by decoding its element and storing the result
has decoded every element, and the stored part of its variables is the plain fold
over the decoded elements. -/
theorem foldlM_filterMap {σ : Type} {body : ρ → α → Except ε ρ} {decode : α → Option β}
    {store : σ → β → σ} (stored : ρ → σ)
    (hbody : ∀ r a r', body r a = .ok r' →
      ∃ b, decode a = some b ∧ stored r' = store (stored r) b)
    {l : List α} {r r' : ρ} (hl : l.foldlM body r = .ok r') :
    (∀ a ∈ l, ∃ b, decode a = some b) ∧
      stored r' = (l.filterMap decode).foldl store (stored r) := by
  induction l generalizing r with
  | nil =>
    simp only [List.foldlM_nil, pure_eq_ok] at hl
    simp [hl]
  | cons a l ih =>
    simp only [List.foldlM_cons, bind_eq_ok] at hl
    obtain ⟨mid, ha, hrest⟩ := hl
    obtain ⟨b, hdecode, hstore⟩ := hbody r a mid ha
    obtain ⟨hall, hfold⟩ := ih hrest
    refine ⟨List.forall_mem_cons.mpr ⟨⟨b, hdecode⟩, hall⟩, ?_⟩
    rw [hfold, hstore, List.filterMap_cons_some hdecode, List.foldl_cons]

/-- A computation applied to each element of a list succeeds when it does on
every element, and yields the results in order. -/
theorem mapM_eq_ok_iff {f : α → Except ε β} {l : List α} {l' : List β} :
    l.mapM f = .ok l' ↔ List.Forall₂ (fun a b => f a = .ok b) l l' := by
  induction l generalizing l' with
  | nil => cases l' <;> simp
  | cons a l ih =>
    simp only [List.mapM_cons, bind_eq_ok, pure_eq_ok, ih, List.forall₂_cons_left_iff]
    constructor
    · rintro ⟨b, hb, bs, hbs, rfl⟩
      exact ⟨b, bs, hb, hbs, rfl⟩
    · rintro ⟨b, bs, hb, hbs, rfl⟩
      exact ⟨b, hb, bs, hbs, rfl⟩

/-- A computation that succeeds with `Q` on every element succeeds on the list, with `Q`
of all results. -/
theorem mapM_total {f : α → Except ε β} {Q : β → Prop} {l : List α}
    (hl : ∀ a ∈ l, ∃ b, Q b ∧ f a = .ok b) :
    ∃ l', l.mapM f = .ok l' ∧ l'.length = l.length ∧ ∀ b ∈ l', Q b := by
  induction l with
  | nil => exact ⟨[], rfl, rfl, by simp⟩
  | cons a l ih =>
    obtain ⟨⟨b, hb, hf⟩, hrest⟩ := List.forall_mem_cons.mp hl
    obtain ⟨l', hl', hlength, hall⟩ := ih hrest
    refine ⟨b :: l', ?_, by simp [hlength], List.forall_mem_cons.mpr ⟨hb, hall⟩⟩
    rw [mapM_eq_ok_iff] at hl' ⊢
    exact .cons hf hl'

/-- Each result stands at the position of its element. -/
theorem mapM_getElem? {f : α → Except ε β} {l : List α} {l' : List β} (hl : l.mapM f = .ok l')
    {i : ℕ} {a : α} (ha : l[i]? = some a) : ∃ b, l'[i]? = some b ∧ f a = .ok b := by
  rw [mapM_eq_ok_iff] at hl
  induction hl generalizing i with
  | nil => simp at ha
  | cons hhead _ ih =>
    cases i with
    | zero =>
      simp only [List.getElem?_cons_zero, Option.some.injEq] at ha
      exact ⟨_, List.getElem?_cons_zero, ha ▸ hhead⟩
    | succ i =>
      simp only [List.getElem?_cons_succ] at ha ⊢
      exact ih ha

/-- A computation that succeeds on a list succeeds on its elements. -/
theorem ok_of_mapM {f : α → Except ε β} {l : List α} {l' : List β}
    (hl : l.mapM f = .ok l') {a : α} (ha : a ∈ l) : ∃ b ∈ l', f a = .ok b := by
  obtain ⟨i, hi⟩ := List.mem_iff_getElem?.mp ha
  obtain ⟨b, hb, hf⟩ := mapM_getElem? hl hi
  exact ⟨b, List.mem_of_getElem? hb, hf⟩

/-- Every result of a computation on a list comes from an element. -/
theorem exists_of_mem_mapM {f : α → Except ε β} {l : List α} {l' : List β}
    (hl : l.mapM f = .ok l') {b : β} (hb : b ∈ l') : ∃ a ∈ l, f a = .ok b := by
  rw [mapM_eq_ok_iff] at hl
  induction hl with
  | nil => cases hb
  | cons hhead _ ih =>
    rcases List.mem_cons.mp hb with rfl | hb
    · exact ⟨_, List.mem_cons_self, hhead⟩
    · obtain ⟨a, ha, hf⟩ := ih hb
      exact ⟨a, List.mem_cons_of_mem _ ha, hf⟩

/-- The results of a computation on a list, element by element. -/
theorem mem_flatten_of_mapM {f : α → Except ε (List β)} {l : List α}
    {ls : List (List β)} (hl : l.mapM f = .ok ls) {b : β} :
    b ∈ ls.flatten ↔ ∃ a ∈ l, ∃ m, f a = .ok m ∧ b ∈ m := by
  rw [mapM_eq_ok_iff] at hl
  induction hl with
  | nil => simp
  | @cons a m l ls hhead _ ih =>
    rw [List.flatten_cons, List.mem_append, ih, List.exists_mem_cons_iff]
    refine or_congr_left ⟨fun hb => ⟨m, hhead, hb⟩, ?_⟩
    rintro ⟨m', hm', hb⟩
    rw [hhead] at hm'
    cases hm'
    exact hb

/-- A second computation that keeps every result of the first keeps them all. -/
theorem mapM_fixed {f : α → Except ε β} {g : β → Except ε β}
    (hfixed : ∀ a b, f a = .ok b → g b = .ok b) {l : List α} {l' : List β}
    (hl : l.mapM f = .ok l') : l'.mapM g = .ok l' := by
  rw [mapM_eq_ok_iff] at hl ⊢
  induction hl with
  | nil => exact .nil
  | cons hhead _ ih => exact .cons (hfixed _ _ hhead) ih

section Increasing

variable [LinearOrder κ]

/-- The comparison `prev >= x` of an optional value with a value: an absent
value is below every value. -/
def OptionalGe (prev : Option κ) (x : κ) : Prop := ∃ p, prev = some p ∧ x ≤ p

instance (prev : Option κ) (x : κ) : Decidable (OptionalGe prev x) :=
  match prev with
  | none => isFalse (by rintro ⟨p, hp, _⟩; cases hp)
  | some p => decidable_of_iff (x ≤ p)
      ⟨fun h => ⟨p, rfl, h⟩, fun ⟨_, hp, h⟩ => by cases hp; exact h⟩

/-- A present previous key is below the next one when it is smaller. -/
@[simp] theorem optionalGe_some {p x : κ} : OptionalGe (some p) x ↔ x ≤ p := by
  simp [OptionalGe]

private theorem foldlM_increasing_from {key : α → κ} {P : α → Prop} {emit : ρ → α → ρ}
    {body : Option κ × ρ → α → Except ε (Option κ × ρ)}
    (hbody : ∀ prev r a out, body (prev, r) a = .ok out ↔
      ¬OptionalGe prev (key a) ∧ P a ∧ (some (key a), emit r a) = out)
    {l : List α} {prev : Option κ} {r r' : ρ} :
    (∃ out, l.foldlM body (prev, r) = .ok out ∧ out.2 = r') ↔
      (∀ p, prev = some p → ∀ a ∈ l, p < key a) ∧ (l.map key).Pairwise (· < ·) ∧
        (∀ a ∈ l, P a) ∧ l.foldl emit r = r' := by
  induction l generalizing prev r with
  | nil => simp
  | cons a l ih =>
    have hstep : (∃ out, (a :: l).foldlM body (prev, r) = .ok out ∧ out.2 = r') ↔
        (¬OptionalGe prev (key a) ∧ P a) ∧
          ∃ out, l.foldlM body (some (key a), emit r a) = .ok out ∧ out.2 = r' := by
      simp only [List.foldlM_cons, bind_eq_ok, hbody]
      constructor
      · rintro ⟨out, ⟨mid, ⟨hprev, ha, rfl⟩, hrest⟩, hout⟩
        exact ⟨⟨hprev, ha⟩, out, hrest, hout⟩
      · rintro ⟨⟨hprev, ha⟩, out, hrest, hout⟩
        exact ⟨out, ⟨_, ⟨hprev, ha, rfl⟩, hrest⟩, hout⟩
    rw [hstep, ih]
    simp only [Option.some.injEq, List.map_cons, List.pairwise_cons, List.forall_mem_map,
      List.forall_mem_cons, List.foldl_cons]
    constructor
    · rintro ⟨⟨hprev, ha⟩, hall, hsorted, hl, hfold⟩
      refine ⟨?_, ⟨hall _ rfl, hsorted⟩, ⟨ha, hl⟩, hfold⟩
      rintro p rfl
      have hpa : p < key a := not_le.mp (mt optionalGe_some.mpr hprev)
      exact ⟨hpa, fun b hb => hpa.trans (hall _ rfl b hb)⟩
    · rintro ⟨hprev, ⟨hall, hsorted⟩, ⟨ha, hl⟩, hfold⟩
      refine ⟨⟨?_, ha⟩, ?_, hsorted, hl, hfold⟩
      · rintro ⟨p, rfl, hle⟩
        exact (hprev p rfl).1.not_ge hle
      · rintro _ rfl b hb
        exact hall b hb

/-- A loop that remembers the previous key, tests that keys increase, tests `P`
and then updates by `emit` succeeds when the keys strictly increase and every
element passes. -/
theorem foldlM_increasing_iff {key : α → κ} {P : α → Prop} (emit : ρ → α → ρ)
    {body : Option κ × ρ → α → Except ε (Option κ × ρ)}
    (hbody : ∀ prev r a out, body (prev, r) a = .ok out ↔
      ¬OptionalGe prev (key a) ∧ P a ∧ (some (key a), emit r a) = out)
    (l : List α) (r r' : ρ) :
    (∃ out, l.foldlM body (none, r) = .ok out ∧ out.2 = r') ↔
      (l.map key).Pairwise (· < ·) ∧ (∀ a ∈ l, P a) ∧ l.foldl emit r = r' := by
  rw [foldlM_increasing_from hbody]
  simp

end Increasing

end Checks
