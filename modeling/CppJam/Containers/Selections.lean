import Mathlib.Data.List.Basic

/-!
# Items selected by what comes after them

A sequence of operations brings in items, and later operations decide which of them
stay: an item stays when it satisfies a condition together with all that follows it. Such
a selection can be followed operation by operation, and two selections whose conditions
are inherited by later items of the same value are equal exactly when they take the same
items.
-/

namespace Containers

variable {ℓ α : Type} {item : ℓ → Option α} {C D : α → List ℓ → Bool} {ops rest : List ℓ} {a : α}

/-- The items that satisfy a condition with the operations after them, in order. -/
def selected (item : ℓ → Option α) (C : α → List ℓ → Bool) : List ℓ → List α
  | [] => []
  | op :: rest => ((item op).toList.filter (fun a => C a rest)) ++ selected item C rest

/-- The selection with one more operation. -/
theorem selected_append_singleton (ops : List ℓ) (op : ℓ) :
    selected item C (ops ++ [op]) =
      selected item (fun a rest => C a (rest ++ [op])) ops ++ selected item C [op] := by
  induction ops with
  | nil => rfl
  | cons first ops ih => simp only [List.cons_append, selected, ih, List.append_assoc]

/-- A condition on the items alone selects among the selected ones. -/
theorem selected_and (ops : List ℓ) (P : α → Bool) :
    selected item (fun a rest => C a rest && P a) ops = (selected item C ops).filter P := by
  induction ops with
  | nil => rfl
  | cons first ops ih =>
    rw [selected, selected, List.filter_append, ih, List.filter_filter]
    simp only [Bool.and_comm]

/-- Conditions that agree at every item select the same. -/
theorem selected_congr (hsame : ∀ front op rest a, ops = front ++ op :: rest → item op = some a →
      C a rest = D a rest) :
    selected item C ops = selected item D ops := by
  induction ops with
  | nil => rfl
  | cons first ops ih =>
    have hrest := ih fun front op rest a hsplit =>
      hsame (first :: front) op rest a (by rw [hsplit]; rfl)
    rw [selected, selected, hrest]
    congr 1
    exact List.filter_congr fun a ha => hsame [] first ops a rfl (Option.mem_toList.mp ha)

/-- The condition still holds of later items of the same value. -/
def Inherited (item : ℓ → Option α) (C : α → List ℓ → Bool) : Prop :=
  ∀ a front op rest, item op = some a → C a (front ++ op :: rest) = true → C a rest = true

/-- A condition on every operation that follows is inherited. -/
theorem inherited_of_all {P : α → Bool} {Q : α → ℓ → Bool} :
    Inherited item fun a rest => P a && rest.all (Q a) := by
  intro a front op rest _ hall
  simp only [List.all_append, List.all_cons, Bool.and_eq_true] at hall ⊢
  exact ⟨hall.1, hall.2.2.2⟩

variable [DecidableEq α]

/-- A selection that takes no item of some value that another one leaves takes no more of them. -/
theorem count_selected_le (hCD : ∀ front op rest, ops = front ++ op :: rest → item op = some a →
      C a rest = true → D a rest = true) :
    (selected item C ops).count a ≤ (selected item D ops).count a := by
  induction ops with
  | nil => exact Nat.le_refl _
  | cons first ops ih =>
    have hrest := ih fun front op rest hsplit =>
      hCD (first :: front) op rest (by rw [hsplit]; rfl)
    rw [selected, selected, List.count_append, List.count_append]
    refine Nat.add_le_add ?_ hrest
    cases hitem : item first with
    | none => exact Nat.le_refl _
    | some b =>
      by_cases hb : b = a
      · subst hb
        have hfirst := hCD [] first ops rfl hitem
        cases hC : C b ops with
        | false => simp [hC]
        | true => simp [hC, hfirst hC]
      · rw [List.count_eq_zero.mpr]
        · exact Nat.zero_le _
        · simp [Ne.symm hb]

/-- If a selection takes all further items of some value, another one cannot take one more. -/
theorem selected_ne_cons (hC : Inherited item C) (ha : C a ops = true) :
    a :: selected item C ops ≠ selected item D ops := by
  intro heq
  have hle : (selected item D ops).count a ≤ (selected item C ops).count a := by
    refine count_selected_le ?_
    rintro front op rest rfl hitem _
    exact hC a front op rest hitem ha
  rw [← heq, List.count_cons_self] at hle
  omega

/-- Equal selections take the same items. -/
theorem condition_eq_of_selected_eq (hC : Inherited item C) (hD : Inherited item D)
    (heq : selected item C ops = selected item D ops) :
    ∀ front op rest a, ops = front ++ op :: rest → item op = some a → C a rest = D a rest := by
  induction ops with
  | nil => simp
  | cons first ops ih =>
    have hfirst : ∀ a, item first = some a → C a ops = D a ops := by
      intro a hitem
      rw [selected, selected, hitem] at heq
      cases hCa : C a ops <;> cases hDa : D a ops
      · rfl
      · simp only [Option.toList_some, List.filter_cons, hCa, hDa] at heq
        exact absurd heq.symm (selected_ne_cons hD hDa)
      · simp only [Option.toList_some, List.filter_cons, hCa, hDa] at heq
        exact absurd heq (selected_ne_cons hC hCa)
      · rfl
    have hrest : selected item C ops = selected item D ops := by
      have hhead : (item first).toList.filter (fun a => C a ops) =
          (item first).toList.filter (fun a => D a ops) :=
        List.filter_congr fun a ha => hfirst a (Option.mem_toList.mp ha)
      rw [selected, selected, hhead] at heq
      exact List.append_cancel_left heq
    intro front op rest a hsplit hitem
    cases front with
    | nil =>
      obtain ⟨rfl, rfl⟩ := List.cons.inj hsplit
      exact hfirst a hitem
    | cons op' front => exact ih hrest front op rest a (List.cons.inj hsplit).2 hitem

/-- **Equal selections.** Two selections by inherited conditions are equal exactly when they take
the same items. -/
theorem selected_eq_iff (hC : Inherited item C) (hD : Inherited item D) :
    selected item C ops = selected item D ops ↔
      ∀ front op rest a, ops = front ++ op :: rest → item op = some a → C a rest = D a rest :=
  ⟨condition_eq_of_selected_eq hC hD, selected_congr⟩

end Containers
