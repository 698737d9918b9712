import CppJam.Channel.Endpoints
import CppJam.Runs

/-!
# Both endpoints point at each other

A link is symmetric when a receiver points at a sender exactly when the sender points
back, and then no endpoint points at one that is gone or was moved from. Every
operation keeps links symmetric with one exception: assigning to an endpoint that is
still connected forgets to tell its former opposite. Links are therefore symmetric
along a run exactly when assignments are made to unconnected endpoints only.
-/

namespace CppJam.Channel

open Checks Runs

variable {T : Type} {h h' : Heap T} {k : Kind} {a b : ℕ}

/-- The live receivers and senders point at each other, and no endpoint points at one
that is gone or, moved from, points nowhere. -/
structure LinksSymmetric (h : Heap T) : Prop where
  /-- A live receiver and a live sender agree on whether they are linked. -/
  agree : ∀ r s, h.opp .receiver r ≠ none → h.opp .sender s ≠ none →
    (h.opp .receiver r = some (some s) ↔ h.opp .sender s = some (some r))
  /-- The opposite endpoint is alive. -/
  alive : ∀ k a b, h.opp k a = some (some b) → h.opp k.other b ≠ none
  /-- The opposite endpoint was not moved from. -/
  connected : ∀ k a b, h.opp k a = some (some b) → h.opp k.other b ≠ some none

/-- Every endpoint that is pointed at points back. -/
def Mutual (h : Heap T) : Prop :=
  ∀ k a b, h.opp k a = some (some b) → h.opp k.other b = some (some a)

/-- Links are symmetric exactly when every endpoint that is pointed at points back. -/
theorem linksSymmetric_iff : LinksSymmetric h ↔ Mutual h := by
  constructor
  · intro hlinks k a b hab
    have halive := hlinks.alive k a b hab
    have hself : h.opp k a ≠ none := by simp [hab]
    cases k with
    | receiver => exact (hlinks.agree a b hself halive).mp hab
    | sender => exact (hlinks.agree b a halive hself).mpr hab
  · intro hmutual
    constructor
    · intro r s _ _
      exact ⟨fun hr => hmutual .receiver r s hr, fun hs => hmutual .sender s r hs⟩
    · intro k a b hab
      simp [hmutual k a b hab]
    · intro k a b hab
      simp [hmutual k a b hab]

/-- A new endpoint is unconnected. -/
theorem construct_eq_ok (hok : h.construct k a = .ok h') :
    h.opp k a = none ∧ h'.opp = (h.setOpp k a (some none)).opp := by
  simp only [Heap.construct, bind_eq_ok, failIf_eq_ok, pure_eq_ok, not_not] at hok
  obtain ⟨_, hfree, rfl⟩ := hok
  refine ⟨hfree, ?_⟩
  cases k <;> rfl

/-- Registering an opposite endpoint writes the link of a live endpoint. -/
theorem registerOpp_eq_ok (hok : h.registerOpp k a b = .ok h') :
    h.opp k a ≠ none ∧ h' = h.setOpp k a (some (some b)) := by
  simp only [Heap.registerOpp, bind_eq_ok, failIf_eq_ok, pure_eq_ok] at hok
  obtain ⟨_, halive, rfl⟩ := hok
  exact ⟨halive, rfl⟩

/-- Unregistering the registered endpoint unlinks a live endpoint. -/
theorem unregisterOpp_eq_ok (hok : h.unregisterOpp k a b = .ok h') :
    h' = h.setOpp k a (some none) := by
  simp only [Heap.unregisterOpp, bind_eq_ok, failIf_eq_ok, pure_eq_ok] at hok
  obtain ⟨_, _, _, _, rfl⟩ := hok
  rfl

/-- What a transfer does to the links. -/
theorem transfer_eq_ok {other this : ℕ} (hok : h.transfer k other this = .ok h') :
    (h.opp k other = some none ∧ h' = h.setOpp k this (some none)) ∨
      ∃ opp, h.opp k other = some (some opp) ∧
        h' = ((h.setOpp k.other opp (some (some this))).setOpp k other (some none)).setOpp k this
          (some (some opp)) := by
  cases hother : h.opp k other with
  | none => simp [Heap.transfer, hother] at hok
  | some link =>
    cases link with
    | none =>
      simp only [Heap.transfer, hother, Except.ok.injEq] at hok
      exact Or.inl ⟨rfl, hok.symm⟩
    | some opp =>
      simp only [Heap.transfer, hother, bind_eq_ok, pure_eq_ok] at hok
      obtain ⟨mid, hregister, rfl⟩ := hok
      obtain ⟨_, rfl⟩ := registerOpp_eq_ok hregister
      exact Or.inr ⟨opp, rfl, rfl⟩

/-- Whether links are mutual depends on the links only. -/
theorem Mutual.of_opp_eq (hmutual : Mutual h) (hopp : h'.opp = h.opp) : Mutual h' := by
  intro k a b hab
  rw [hopp] at hab ⊢
  exact hmutual k a b hab

/-- Leaving an endpoint unconnected, or removing it, keeps links mutual when it was not
connected before. -/
theorem Mutual.setOpp {entry : Option (Option ℕ)} (hmutual : Mutual h)
    (hbefore : ∀ b, h.opp k a ≠ some (some b)) (hafter : ∀ b, entry ≠ some (some b)) :
    Mutual (h.setOpp k a entry) := by
  intro k' a' b' hab
  have hback := hmutual k' a' b'
  grind

/-- Constructing an endpoint keeps links mutual. -/
theorem construct_mutual (hmutual : Mutual h) (hok : h.construct k a = .ok h') : Mutual h' := by
  obtain ⟨hfree, hopp⟩ := construct_eq_ok hok
  exact (hmutual.setOpp (by simp [hfree]) (by simp)).of_opp_eq hopp

/-- Linking two unconnected endpoints keeps links mutual. -/
theorem register_mutual (hmutual : Mutual h) (ha : h.opp k a = some none)
    (hb : h.opp k.other b = some none) :
    Mutual ((h.setOpp k a (some (some b))).setOpp k.other b (some (some a))) := by
  intro k' a' b' hab
  have hback := hmutual k' a' b'
  obtain rfl | rfl := k.eq_or_eq_other k'
  · grind
  · grind

/-- A transfer to an unconnected endpoint keeps links mutual. -/
theorem transfer_mutual {other this : ℕ} (hmutual : Mutual h) (hthis : h.opp k this = some none)
    (hok : h.transfer k other this = .ok h') : Mutual h' := by
  rcases transfer_eq_ok hok with ⟨_, rfl⟩ | ⟨opp, hother, rfl⟩
  · exact hmutual.setOpp (by simp [hthis]) (by simp)
  · intro k' a' b' hab
    have hopp := hmutual k other opp hother
    have hback := hmutual k' a' b'
    obtain rfl | rfl := k.eq_or_eq_other k'
    · grind
    · grind

/-- A transfer to a connected endpoint breaks the link of its former opposite, which
still points at it. -/
theorem transfer_not_mutual {other this former : ℕ} (hmutual : Mutual h) (hne : this ≠ other)
    (hthis : h.opp k this = some (some former)) (hok : h.transfer k other this = .ok h') :
    ¬Mutual h' := by
  have hformer := hmutual k this former hthis
  intro hmutual'
  have hback := hmutual' k.other former this
  rcases transfer_eq_ok hok with ⟨_, rfl⟩ | ⟨opp, hother, rfl⟩
  · simp [hformer] at hback
  · have hopp := hmutual k other opp hother
    have hdistinct : former ≠ opp := by
      rintro rfl
      rw [hformer] at hopp
      simp [hne] at hopp
    simp [hformer, hdistinct, hdistinct.symm] at hback

/-- A move construction keeps links mutual. -/
theorem moveConstruct_mutual {other this : ℕ} (hmutual : Mutual h)
    (hok : h.moveConstruct k other this = .ok h') : Mutual h' := by
  simp only [Heap.moveConstruct, bind_eq_ok] at hok
  obtain ⟨mid, hconstruct, htransfer⟩ := hok
  refine transfer_mutual (construct_mutual hmutual hconstruct) ?_ htransfer
  rw [(construct_eq_ok hconstruct).2]
  simp

/-- A move assignment keeps links mutual exactly when it is made to an unconnected
endpoint or to itself. -/
theorem moveAssign_mutual_iff {other this : ℕ} (hmutual : Mutual h)
    (hok : h.moveAssign k other this = .ok h') :
    Mutual h' ↔ (this ≠ other → h.opp k this = some none) := by
  simp only [Heap.moveAssign, bind_eq_ok, failIf_eq_ok] at hok
  obtain ⟨_, halive, hok⟩ := hok
  split_ifs at hok with hself
  · cases hok
    simp [hself, hmutual]
  · constructor
    · intro hmutual' hne
      cases hthis : h.opp k this with
      | none => exact absurd hthis halive
      | some link =>
        cases link with
        | none => rfl
        | some former => exact absurd hmutual' (transfer_not_mutual hmutual hne hthis hok)
    · intro hthis
      exact transfer_mutual hmutual (hthis hself) hok

/-- Destroying an endpoint keeps links mutual. -/
theorem destroy_mutual (hmutual : Mutual h) (hok : h.destroy k a = .ok h') : Mutual h' := by
  cases ha : h.opp k a with
  | none => simp [Heap.destroy, ha] at hok
  | some link =>
    cases link with
    | none =>
      simp only [Heap.destroy, ha, Except.ok.injEq] at hok
      subst hok
      exact hmutual.setOpp (by simp [ha]) (by simp)
    | some opp =>
      simp only [Heap.destroy, ha, bind_eq_ok, pure_eq_ok] at hok
      obtain ⟨mid, hunregister, rfl⟩ := hok
      obtain rfl := unregisterOpp_eq_ok hunregister
      have hunlinked : Mutual ((h.setOpp k.other opp (some none)).setOpp k a none) := by
        intro k' a' b' hab
        have hopp := hmutual k a opp ha
        have hback := hmutual k' a' b'
        obtain rfl | rfl := k.eq_or_eq_other k'
        · grind
        · grind
      refine hunlinked.of_opp_eq ?_
      cases k <;> rfl

/-- Creating a channel keeps links mutual. -/
theorem createChannel_mutual {localR localS r s : ℕ} (hmutual : Mutual h)
    (hok : h.createChannel localR localS r s = .ok h') : Mutual h' := by
  simp only [Heap.createChannel, bind_eq_ok] at hok
  obtain ⟨h₁, hreceiver, h₂, hsender, h₃, hlink, h₄, hback, h₅, hmoveR, h₆, hmoveS, h₇, hgoneS,
    hgoneR⟩ := hok
  have hnew := construct_mutual (construct_mutual hmutual hreceiver) hsender
  obtain ⟨_, rfl⟩ := registerOpp_eq_ok hlink
  obtain ⟨_, rfl⟩ := registerOpp_eq_ok hback
  have hr : h₂.opp .receiver localR = some none := by
    rw [(construct_eq_ok hsender).2, Heap.setOpp_opp, (construct_eq_ok hreceiver).2]
    simp
  have hs : h₂.opp .sender localS = some none := by
    rw [(construct_eq_ok hsender).2]
    simp
  have hlinked := register_mutual hnew hr hs
  exact destroy_mutual (destroy_mutual (moveConstruct_mutual
    (moveConstruct_mutual hlinked hmoveR) hmoveS) hgoneS) hgoneR

/-- The operations that create, move and destroy endpoints. -/
inductive LinkOp where
  | construct (k : Kind) (a : ℕ)
  | createChannel (localR localS r s : ℕ)
  | moveConstruct (k : Kind) (other this : ℕ)
  | moveAssign (k : Kind) (other this : ℕ)
  | destroy (k : Kind) (a : ℕ)

/-- Execute one operation. -/
def LinkOp.exec : LinkOp → Heap T → Except Abort (Heap T)
  | construct k a => Heap.construct k a
  | createChannel localR localS r s => Heap.createChannel localR localS r s
  | moveConstruct k other this => Heap.moveConstruct k other this
  | moveAssign k other this => Heap.moveAssign k other this
  | destroy k a => Heap.destroy k a

/-- The operation, which uses live endpoints and free addresses, leads from `h` to
`h'`. -/
def LinkStep (h : Heap T) (op : LinkOp) (h' : Heap T) : Prop := op.exec h = .ok h'

/-- An operation and the heap before it determine the heap after it. -/
theorem LinkStep.unique {op : LinkOp} {u u' : Heap T} (hstep : LinkStep h op u)
    (hstep' : LinkStep h op u') : u = u' :=
  Except.ok.inj (hstep.symm.trans hstep')

/-- An assignment is made to an unconnected endpoint or to itself. -/
def AssignsUnconnected (h : Heap T) : LinkOp → Prop
  | .moveAssign k other this => this ≠ other → h.opp k this = some none
  | _ => True

/-- A step keeps links symmetric exactly when it does not assign to another connected
endpoint. -/
theorem LinkStep.linksSymmetric_iff {op : LinkOp} (hstep : LinkStep h op h')
    (hlinks : LinksSymmetric h) : LinksSymmetric h' ↔ AssignsUnconnected h op := by
  rw [Channel.linksSymmetric_iff] at hlinks ⊢
  cases op with
  | construct k a => exact iff_of_true (construct_mutual hlinks hstep) trivial
  | createChannel localR localS r s => exact iff_of_true (createChannel_mutual hlinks hstep) trivial
  | moveConstruct k other this => exact iff_of_true (moveConstruct_mutual hlinks hstep) trivial
  | moveAssign k other this => exact moveAssign_mutual_iff hlinks hstep
  | destroy k a => exact iff_of_true (destroy_mutual hlinks hstep) trivial

/-- Links are symmetric when no endpoint is alive. -/
theorem linksSymmetric_empty : LinksSymmetric (Heap.empty : Heap T) :=
  Channel.linksSymmetric_iff.mpr fun _ _ _ hab => nomatch hab

/-- Along a run of creations, moves and destructions, links are symmetric in every
state exactly when every assignment is made to an unconnected endpoint or to itself. -/
theorem linksSymmetric_run_iff {trace : List LinkOp} {h : Heap T}
    (hrun : Run LinkStep Heap.empty trace h) :
    (∀ front back u, trace = front ++ back → Run LinkStep (Heap.empty : Heap T) front u →
      LinksSymmetric u) ↔
      ∀ front op back u, trace = front ++ op :: back →
        Run LinkStep (Heap.empty : Heap T) front u → AssignsUnconnected u op := by
  exact hrun.forall_states_iff (fun _ _ _ _ hu hu' => hu.unique hu')
    (fun _ _ _ hstep hlinks => hstep.linksSymmetric_iff hlinks) linksSymmetric_empty

/-- A channel whose receiver is moved away and assigned back. -/
def Scenario.moveBack : List LinkOp :=
  [.createChannel 0 0 1 1, .moveConstruct .receiver 1 2, .moveAssign .receiver 2 1]

/-- Moving a receiver away and assigning it back keeps links symmetric. -/
theorem linksSymmetric_moveBack :
    ∃ h : Heap ℕ, Run LinkStep Heap.empty Scenario.moveBack h ∧
      ∀ front back u, Scenario.moveBack = front ++ back →
        Run LinkStep (Heap.empty : Heap ℕ) front u → LinksSymmetric u := by
  have hrun : Run LinkStep (Heap.empty : Heap ℕ) Scenario.moveBack _ := Run.of_foldlM rfl
  refine ⟨_, hrun, (linksSymmetric_run_iff hrun).mpr ?_⟩
  intro front op back u htrace hfront
  rcases front with _ | ⟨first, _ | ⟨second, _ | ⟨third, front⟩⟩⟩
  · cases htrace
    trivial
  · cases htrace
    trivial
  · cases htrace
    obtain rfl := hfront.unique (fun _ _ _ _ hu hu' => hu.unique hu') (Run.of_foldlM rfl)
    intro _
    rfl
  · simp [Scenario.moveBack] at htrace

/-- Assigning the receiver of a second channel to that of a first one leaves the first
sender pointing at a receiver that points elsewhere. -/
theorem not_linksSymmetric_assign_connected :
    ∃ h : Heap ℕ,
      Run LinkStep Heap.empty [.createChannel 0 0 1 1, .createChannel 0 0 2 2,
        .moveAssign .receiver 2 1] h ∧
      h.opp .sender 1 = some (some 1) ∧ h.opp .receiver 1 = some (some 2) ∧
      ¬LinksSymmetric h := by
  refine ⟨_, Run.of_foldlM rfl, rfl, rfl, fun hlinks => ?_⟩
  have hagree := hlinks.agree 1 1 (by decide) (by decide)
  revert hagree
  decide

end CppJam.Channel
