import CppJam.Channel.Links

/-!
# A program that uses a channel

A program holds a receiver and a sender, sets values, waits for them, and moves either
endpoint to a new one or onto one that it has lying around unconnected. What such a
program sees of the channel are the values that `wait` returns, up to the first `wait`
that blocks.
-/

namespace CppJam.Channel

open Checks

variable {T : Type} {moved : T → T}

/-- Where an endpoint is moved to. -/
inductive Target where
  /-- A new endpoint at a free address. -/
  | construct (a : ℕ)
  /-- An unconnected endpoint. -/
  | assign (a : ℕ)

/-- The address of the endpoint moved to. -/
def Target.address : Target → ℕ
  | construct a => a
  | assign a => a

/-- Move the endpoint at `other` to the target. -/
def Target.move (k : Kind) (other : ℕ) (h : Heap T) : Target → Except Abort (Heap T)
  | construct a => h.moveConstruct k other a
  | assign a => do
    failIf (h.opp k a ≠ some none) .undefinedBehaviour
    h.moveAssign k other a

/-- What the program does with its endpoints. -/
inductive Action (T : Type) where
  | set (t : T)
  | wait
  | move (k : Kind) (target : Target)

/-- The heap and the endpoints that the program uses at present. -/
structure Session (T : Type) where
  /-- All endpoints. -/
  heap : Heap T
  /-- The receiver and the sender in use. -/
  ends : Kind → ℕ

/-- The two endpoints in use point at each other. -/
def Session.Linked (u : Session T) : Prop :=
  ∀ k, u.heap.opp k (u.ends k) = some (some (u.ends k.other))

/-- One action, with the values that it returns; `none` when it blocks or has no
meaning. -/
def Session.act (moved : T → T) (u : Session T) : Action T → Option (List (Option T) × Session T)
  | .set t =>
    match u.heap.set (u.ends .sender) t with
    | .ok h => some ([], ⟨h, u.ends⟩)
    | .error _ => none
  | .wait =>
    match u.heap.wait moved (u.ends .receiver) with
    | .ok (some (result, h)) => some ([result], ⟨h, u.ends⟩)
    | _ => none
  | .move k target =>
    match target.move k (u.ends k) u.heap with
    | .ok h => some ([], ⟨h, Function.update u.ends k target.address⟩)
    | .error _ => none

/-- The values that the calls of `wait` return. -/
def Session.returned (moved : T → T) : Session T → List (Action T) → List (Option T)
  | _, [] => []
  | u, action :: rest =>
    match u.act moved action with
    | none => []
    | some (results, u') => results ++ u'.returned moved rest

/-- The session after all actions; `none` when one of them blocks. -/
def Session.perform (moved : T → T) : Session T → List (Action T) → Option (Session T)
  | u, [] => some u
  | u, action :: rest => do
    let (_, u') ← u.act moved action
    u'.perform moved rest

/-- What a `wait` would return now, `none` if it would block. -/
def Mail.pending (m : Mail T) : Option (Option T) := if m.signalled then some m.data else none

/-- The pending value of the endpoint moved to. A new one has none. -/
def Target.pending (h : Heap T) : Target → Option (Option T)
  | construct _ => none
  | assign a => (h.mail a).pending

/-- The target can be moved to: its address is free, or its endpoint unconnected. -/
def Target.Available (k : Kind) (h : Heap T) : Target → Prop
  | construct a => h.opp k a = none
  | assign a => h.opp k a = some none

instance (k : Kind) (h : Heap T) (target : Target) : Decidable (target.Available k h) :=
  match target with
  | .construct _ => inferInstanceAs (Decidable (_ = _))
  | .assign _ => inferInstanceAs (Decidable (_ = _))

/-- A move within a linked session: the target takes over the link, the endpoint moved
from is left unconnected with its mail, and the target has its own mail. -/
structure Session.MovedTo (u : Session T) (k : Kind) (target : Target) (u' : Session T) :
    Prop where
  available : target.Available k u.heap
  ends : u'.ends = Function.update u.ends k target.address
  opp : ∀ k' b, u'.heap.opp k' b =
    if k' = k ∧ b = target.address then some (some (u.ends k.other))
    else if k' = k ∧ b = u.ends k then some none
    else if k' = k.other ∧ b = u.ends k.other then some (some target.address)
    else u.heap.opp k' b
  mail : ∀ b, ¬(k = .receiver ∧ b = target.address) → u'.heap.mail b = u.heap.mail b
  pending : k = .receiver → (u'.heap.mail target.address).pending = target.pending u.heap

/-- In a linked session `set` stores the value for the receiver in use. -/
theorem Session.Linked.act_set {u : Session T} (hlinked : u.Linked) (t : T) :
    u.act moved (.set t) =
      some ([], ⟨u.heap.setMail (u.ends .receiver) ⟨some t, true⟩, u.ends⟩) := by
  have hsender := hlinked .sender
  have hreceiver := hlinked .receiver
  simp only [Kind.other] at hsender hreceiver
  simp [Session.act, Heap.set, hsender, hreceiver, failIf, Bind.bind, Except.bind, Pure.pure,
    Except.pure, Mail.store, Mail.signal]

/-- In a linked session `wait` returns what is pending. -/
theorem Session.Linked.act_wait {u : Session T} (hlinked : u.Linked) :
    u.act moved .wait = (u.heap.mail (u.ends .receiver)).pending.map (fun result =>
      ([result], ⟨u.heap.setMail (u.ends .receiver) ⟨result.map moved, false⟩, u.ends⟩)) := by
  have hreceiver := hlinked .receiver
  cases hsignalled : (u.heap.mail (u.ends .receiver)).signalled <;>
    simp [Session.act, Heap.wait, hreceiver, hsignalled, failIf, Bind.bind, Except.bind, Pure.pure,
      Except.pure, Mail.consume, Mail.moveOut, Mail.pending]

/-- A transfer from a connected endpoint succeeds. -/
theorem transfer_of_connected {h : Heap T} {k : Kind} {other opp : ℕ} (this : ℕ)
    (hother : h.opp k other = some (some opp)) (hopp : h.opp k.other opp ≠ none) :
    h.transfer k other this = .ok (((h.setOpp k.other opp (some (some this))).setOpp k other
      (some none)).setOpp k this (some (some opp))) := by
  simp [Heap.transfer, hother, Heap.registerOpp, hopp, failIf, Bind.bind, Except.bind, Pure.pure,
    Except.pure]

/-- A move to a target that is not available has no meaning. -/
theorem Session.act_move_of_not_available {u : Session T} {k : Kind} {target : Target}
    (hnot : ¬target.Available k u.heap) : u.act moved (.move k target) = none := by
  cases target with
  | construct a =>
    have hnot : u.heap.opp k a ≠ none := hnot
    simp [Session.act, Target.move, Heap.moveConstruct, Heap.construct, failIf, hnot, Bind.bind,
      Except.bind]
  | assign a =>
    have hnot : u.heap.opp k a ≠ some none := hnot
    simp [Session.act, Target.move, failIf, hnot, Bind.bind, Except.bind]

/-- In a linked session an endpoint can be moved to every available target. -/
theorem Session.Linked.act_move {u : Session T} (hlinked : u.Linked) (moved : T → T) {k : Kind}
    {target : Target} (havailable : target.Available k u.heap) :
    ∃ u', u.act moved (.move k target) = some ([], u') ∧ u.MovedTo k target u' := by
  have hthis := hlinked k
  have hopp : u.heap.opp k.other (u.ends k.other) ≠ none := by simp [hlinked k.other]
  cases target with
  | construct a =>
    have hfree : u.heap.opp k a = none := havailable
    have hne : u.ends k ≠ a := by
      rintro rfl
      simp [hthis] at hfree
    let h₁ := (if k = .receiver then u.heap.setMail a Mail.empty else u.heap).setOpp k a (some none)
    have hconstruct : u.heap.construct k a = .ok h₁ := by
      simp [Heap.construct, failIf, hfree, Bind.bind, Except.bind, Pure.pure, Except.pure, h₁]
    have hopp₁ : ∀ k' b, h₁.opp k' b = if k' = k ∧ b = a then some none else u.heap.opp k' b := by
      intro k' b
      cases k <;> rfl
    have hthis₁ : h₁.opp k (u.ends k) = some (some (u.ends k.other)) := by
      simp [hopp₁, hne, hthis]
    have htransfer := transfer_of_connected a hthis₁ (by simp [hopp₁, hopp])
    refine ⟨_, by simp [Session.act, Target.move, Heap.moveConstruct, hconstruct, htransfer,
      Bind.bind, Except.bind]; rfl, havailable, rfl, ?_, ?_, ?_⟩
    · intro k' b
      simp only [Heap.setOpp_opp, hopp₁, Target.address]
      grind
    · intro b hb
      cases k with
      | receiver => exact if_neg fun hba => hb ⟨rfl, hba⟩
      | sender => rfl
    · rintro rfl
      exact congrArg Mail.pending (if_pos rfl)
  | assign a =>
    have hfree : u.heap.opp k a = some none := havailable
    have hne : a ≠ u.ends k := by
      rintro rfl
      simp [hthis] at hfree
    have htransfer := transfer_of_connected a hthis hopp
    refine ⟨_, by simp [Session.act, Target.move, Heap.moveAssign, hfree, hne, htransfer, failIf,
      Bind.bind, Except.bind]; rfl, havailable, rfl, ?_, ?_, ?_⟩
    · intro k' b
      rfl
    · intro b _
      rfl
    · intro _
      rfl

end CppJam.Channel
