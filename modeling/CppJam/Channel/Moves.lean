import CppJam.Channel.LinkedSessions

/-!
# Moving an endpoint of a channel in use

A move takes the connection along and leaves the value and the event of a receiver
behind. The values that later calls of `wait` return are the same as without the move
when a sender was moved, and when a receiver was moved to one with the same pending
value; in all other cases already the next `wait` tells the difference.
-/

namespace CppJam.Channel

open Checks

variable {T : Type} {moved : T → T} {u u' : Session T} {k : Kind} {target : Target}

/-- What is pending at an endpoint; a sender has nothing pending. -/
def Heap.pendingAt (h : Heap T) (a : ℕ) : Kind → Option (Option T)
  | .receiver => (h.mail a).pending
  | .sender => none

/-- What matters about an endpoint that is not in use. -/
inductive View (T : Type) where
  | free
  | connected
  | unconnected (pending : Option (Option T))

/-- The view of an endpoint. -/
def Heap.view (h : Heap T) (k : Kind) (a : ℕ) : View T :=
  match h.opp k a with
  | none => .free
  | some (some _) => .connected
  | some none => .unconnected (h.pendingAt a k)

/-- The mail of a connected receiver does not matter to others. -/
theorem view_setMail {h : Heap T} {r s : ℕ} (hr : h.opp .receiver r = some (some s)) (m : Mail T)
    (k : Kind) (a : ℕ) : (h.setMail r m).view k a = h.view k a := by
  by_cases hself : k = .receiver ∧ a = r
  · obtain ⟨rfl, rfl⟩ := hself
    simp [Heap.view, hr]
  · have hpending : (h.setMail r m).pendingAt a k = h.pendingAt a k := by
      cases k with
      | receiver => simp [Heap.pendingAt, show a ≠ r from fun ha => hself ⟨rfl, ha⟩]
      | sender => rfl
    simp [Heap.view, hpending]

/-- How a move changes the view of an endpoint. -/
theorem Session.MovedTo.view (hmoved : u.MovedTo k target u') (hlinked : u.Linked) (k' : Kind)
    (b : ℕ) :
    u'.heap.view k' b =
      if k' = k ∧ b = target.address then .connected
      else if k' = k ∧ b = u.ends k then .unconnected (u.heap.pendingAt b k')
      else u.heap.view k' b := by
  have hpending : ¬(k' = k ∧ b = target.address) →
      u'.heap.pendingAt b k' = u.heap.pendingAt b k' := by
    intro hb
    cases k' with
    | receiver => exact congrArg Mail.pending (hmoved.mail b fun hk => hb ⟨hk.1.symm, hk.2⟩)
    | sender => rfl
  have hother := hlinked k.other
  rw [Heap.view, hmoved.opp]
  split_ifs with htarget hfrom hpartner
  · rfl
  · rw [hpending htarget]
  · rw [Heap.view, hpartner.1, hpartner.2, hother]
  · rw [Heap.view, hpending htarget]

/-- Two sessions that differ in the endpoints of `X` only, and in nothing that can be
seen. -/
structure Alike (X : Kind → ℕ → Prop) (u₁ u₂ : Session T) : Prop where
  linked₁ : u₁.Linked
  linked₂ : u₂.Linked
  pending : (u₁.heap.mail (u₁.ends .receiver)).pending = (u₂.heap.mail (u₂.ends .receiver)).pending
  view : ∀ k a, ¬X k a → u₁.heap.view k a = u₂.heap.view k a
  ends : ∀ k, u₁.ends k = u₂.ends k ∨ (X k (u₁.ends k) ∧ X k (u₂.ends k))

/-- An action that does not touch the endpoints of `X`. -/
def Action.Avoids (X : Kind → ℕ → Prop) : Action T → Prop
  | .move k target => ¬X k target.address
  | _ => True

variable {X : Kind → ℕ → Prop} {u₁ u₂ : Session T}

/-- An address is free exactly when it looks so. -/
theorem view_eq_free {h : Heap T} {a : ℕ} : h.view k a = .free ↔ h.opp k a = none := by
  rw [Heap.view]
  split <;> simp_all

/-- An endpoint is unconnected exactly when it looks so. -/
theorem view_eq_unconnected {h : Heap T} {a : ℕ} {pending : Option (Option T)} :
    h.view k a = .unconnected pending ↔ h.opp k a = some none ∧ h.pendingAt a k = pending := by
  rw [Heap.view]
  split <;> simp_all

/-- Whether a target is available can be seen. -/
theorem Target.Available.of_view {h₁ h₂ : Heap T} (havailable : target.Available k h₁)
    (hview : h₁.view k target.address = h₂.view k target.address) : target.Available k h₂ := by
  cases target with
  | construct a => exact view_eq_free.mp (hview ▸ view_eq_free.mpr havailable)
  | assign a => exact (view_eq_unconnected.mp (hview ▸ view_eq_unconnected.mpr ⟨havailable, rfl⟩)).1

/-- What is pending at an available target can be seen. -/
theorem Target.Available.pending_eq {h₁ h₂ : Heap T} (havailable : target.Available .receiver h₁)
    (hview : h₁.view .receiver target.address = h₂.view .receiver target.address) :
    target.pending h₁ = target.pending h₂ := by
  cases target with
  | construct a => rfl
  | assign a =>
    exact (view_eq_unconnected.mp (hview ▸ view_eq_unconnected.mpr ⟨havailable, rfl⟩)).2.symm

/-- The same mail for both receivers in use keeps two sessions alike. -/
theorem Alike.setMail (halike : Alike X u₁ u₂) (m : Mail T) :
    Alike X ⟨u₁.heap.setMail (u₁.ends .receiver) m, u₁.ends⟩
      ⟨u₂.heap.setMail (u₂.ends .receiver) m, u₂.ends⟩ where
  linked₁ := halike.linked₁
  linked₂ := halike.linked₂
  pending := by simp
  view k a ha := by
    rw [view_setMail (halike.linked₁ .receiver), view_setMail (halike.linked₂ .receiver),
      halike.view k a ha]
  ends := halike.ends

/-- Moving the endpoints in use of two sessions to the same target keeps them alike. -/
theorem Alike.move {u₁' u₂' : Session T} (halike : Alike X u₁ u₂) (hX : ¬X k target.address)
    (h₁ : u₁.MovedTo k target u₁') (h₂ : u₂.MovedTo k target u₂') : Alike X u₁' u₂' where
  linked₁ := h₁.linked
  linked₂ := h₂.linked
  pending := by
    cases k with
    | receiver =>
      rw [h₁.ends, h₂.ends, Function.update_self, Function.update_self, h₁.pending rfl,
        h₂.pending rfl]
      exact h₁.available.pending_eq (halike.view _ _ hX)
    | sender =>
      rw [h₁.ends, h₂.ends, Function.update_of_ne (by decide), Function.update_of_ne (by decide),
        h₁.mail _ (by simp), h₂.mail _ (by simp)]
      exact halike.pending
  view k' a ha := by
    rw [h₁.view halike.linked₁, h₂.view halike.linked₂, halike.view k' a ha]
    by_cases hk : k' = k
    · subst hk
      rcases halike.ends k' with hsame | ⟨hX₁, hX₂⟩
      · have hpending : a = u₂.ends k' → u₁.heap.pendingAt a k' = u₂.heap.pendingAt a k' := by
          rintro rfl
          cases k' with
          | receiver => exact hsame ▸ halike.pending
          | sender => rfl
        grind
      · have hne₁ : a ≠ u₁.ends k' := fun ha' => ha (ha' ▸ hX₁)
        have hne₂ : a ≠ u₂.ends k' := fun ha' => ha (ha' ▸ hX₂)
        simp [hne₁, hne₂]
    · simp [hk]
  ends k' := by
    rw [h₁.ends, h₂.ends]
    obtain rfl | rfl := k.eq_or_eq_other k'
    · simp
    · simpa using halike.ends k.other

/-- An action that avoids the endpoints of `X` has the same effect in both sessions. -/
theorem Alike.act (halike : Alike X u₁ u₂) (moved : T → T) {action : Action T}
    (havoids : action.Avoids X) :
    (u₁.act moved action = none ∧ u₂.act moved action = none) ∨
      ∃ results u₁' u₂', u₁.act moved action = some (results, u₁') ∧
        u₂.act moved action = some (results, u₂') ∧ Alike X u₁' u₂' := by
  cases action with
  | set t =>
    exact Or.inr ⟨_, _, _, halike.linked₁.act_set t, halike.linked₂.act_set t, halike.setMail _⟩
  | wait =>
    rw [halike.linked₁.act_wait, halike.linked₂.act_wait, halike.pending]
    cases (u₂.heap.mail (u₂.ends .receiver)).pending with
    | none => exact Or.inl ⟨rfl, rfl⟩
    | some result => exact Or.inr ⟨_, _, _, rfl, rfl, halike.setMail _⟩
  | move k target =>
    have hview := halike.view k target.address havoids
    by_cases havailable : target.Available k u₁.heap
    · obtain ⟨u₁', hact₁, hmoved₁⟩ := halike.linked₁.act_move moved havailable
      obtain ⟨u₂', hact₂, hmoved₂⟩ := halike.linked₂.act_move moved (havailable.of_view hview)
      exact Or.inr ⟨_, _, _, hact₁, hact₂, halike.move havoids hmoved₁ hmoved₂⟩
    · refine Or.inl ⟨Session.act_move_of_not_available havailable,
        Session.act_move_of_not_available fun havailable₂ => ?_⟩
      exact havailable (havailable₂.of_view hview.symm)

/-- Alike sessions return the same values. -/
theorem Alike.returned_eq {actions : List (Action T)} (halike : Alike X u₁ u₂)
    (havoids : ∀ action ∈ actions, action.Avoids X) :
    u₁.returned moved actions = u₂.returned moved actions := by
  induction actions generalizing u₁ u₂ with
  | nil => rfl
  | cons action actions ih =>
    rw [List.forall_mem_cons] at havoids
    rcases halike.act moved havoids.1 with ⟨h₁, h₂⟩ | ⟨results, u₁', u₂', h₁, h₂, halike'⟩
    · simp [Session.returned, h₁, h₂]
    · simp [Session.returned, h₁, h₂, ih halike' havoids.2]

/-- The two endpoints of a move. -/
def movedEnds (u : Session T) (k : Kind) (target : Target) (k' : Kind) (a : ℕ) : Prop :=
  k' = k ∧ (a = u.ends k ∨ a = target.address)

/-- A move that keeps what is pending leads to an alike session. -/
theorem Session.MovedTo.alike (hmoved : u.MovedTo k target u') (hlinked : u.Linked)
    (hpending : k = .receiver →
      (u.heap.mail (u.ends .receiver)).pending = target.pending u.heap) :
    Alike (movedEnds u k target) u u' where
  linked₁ := hlinked
  linked₂ := hmoved.linked
  pending := by
    cases k with
    | receiver => rw [hpending rfl, hmoved.ends, Function.update_self, hmoved.pending rfl]
    | sender =>
      rw [hmoved.ends, Function.update_of_ne (by decide), hmoved.mail _ (by simp)]
  view k' a ha := by
    rw [hmoved.view hlinked]
    rw [movedEnds] at ha
    grind
  ends k' := by
    rw [hmoved.ends, movedEnds]
    obtain rfl | rfl := k.eq_or_eq_other k'
    · simp [movedEnds]
    · simp

/-- What a single `wait` returns is what is pending. -/
theorem Session.Linked.returned_wait (hlinked : u.Linked) :
    (u.returned moved [.wait]).head? = (u.heap.mail (u.ends .receiver)).pending := by
  rw [Session.returned, hlinked.act_wait]
  cases (u.heap.mail (u.ends .receiver)).pending <;> rfl

/-- After any actions of a program on a linked pair, a move of an endpoint changes no
value that later calls of `wait` return, exactly when a sender is moved or a receiver
with the same pending value as the one that it is moved to. -/
theorem returned_move_iff {start : Session T} {before : List (Action T)} (hstart : start.Linked)
    (hbefore : start.perform moved before = some u)
    (hmove : u.act moved (.move k target) = some ([], u')) :
    (∀ after : List (Action T), (∀ action ∈ after, action.Avoids (movedEnds u k target)) →
      u'.returned moved after = u.returned moved after) ↔
      (k = .receiver → (u.heap.mail (u.ends .receiver)).pending = target.pending u.heap) := by
  have hlinked := hstart.perform hbefore
  have hmoved : u.MovedTo k target u' := by
    by_cases havailable : target.Available k u.heap
    · obtain ⟨u'', hact, hmoved⟩ := hlinked.act_move moved havailable
      rw [hmove] at hact
      cases hact
      exact hmoved
    · rw [Session.act_move_of_not_available havailable] at hmove
      cases hmove
  constructor
  · rintro hsame rfl
    have hwait := congrArg List.head? (hsame [.wait] (by simp [Action.Avoids]))
    rw [hmoved.linked.returned_wait, hlinked.returned_wait, hmoved.ends, Function.update_self,
      hmoved.pending rfl] at hwait
    exact hwait.symm
  · intro hpending after havoids
    exact ((hmoved.alike hlinked hpending).returned_eq havoids).symm

/-- After a value was set and received, moving the receiver of a new channel loses
nothing. -/
theorem returned_move_received :
    ∃ h u u', (Heap.empty : Heap ℕ).createChannel 0 0 1 1 = .ok h ∧
      Session.perform id ⟨h, pairOf 1 1⟩ [.set 7, .wait] = some u ∧
      u.act id (.move .receiver (.construct 2)) = some ([], u') ∧
      ∀ after : List (Action ℕ),
        (∀ action ∈ after, action.Avoids (movedEnds u .receiver (.construct 2))) →
        u'.returned id after = u.returned id after := by
  obtain ⟨h, hcreate⟩ : ∃ h, (Heap.empty : Heap ℕ).createChannel 0 0 1 1 = .ok h := ⟨_, rfl⟩
  have hlinked := createChannel_linked hcreate
  cases hcreate
  exact ⟨_, _, _, rfl, rfl, rfl, (returned_move_iff hlinked
    (show Session.perform id _ [.set 7, .wait] = some _ from rfl) rfl).mpr fun _ => rfl⟩

/-- After a value was set and not received, moving the receiver loses the value: the
next `wait` blocks where it would have returned it. -/
theorem returned_move_pending_lost :
    ∃ h u u', (Heap.empty : Heap ℕ).createChannel 0 0 1 1 = .ok h ∧
      Session.perform id ⟨h, pairOf 1 1⟩ [.set 7] = some u ∧
      u.act id (.move .receiver (.construct 2)) = some ([], u') ∧
      u.returned id [.wait] = [some 7] ∧ u'.returned id [.wait] = [] :=
  ⟨_, _, _, rfl, rfl, rfl, rfl, rfl⟩

end CppJam.Channel
