import CppJam.Channel.Sessions

/-!
# Sessions stay linked

A new channel gives a linked pair of endpoints, and setting, waiting and moving keep the
current endpoints linked to each other.
-/

namespace CppJam.Channel

open Checks

variable {T : Type} {moved : T → T} {u u' : Session T} {k : Kind} {target : Target}

/-- A move keeps a session linked. -/
theorem Session.MovedTo.linked (hmoved : u.MovedTo k target u') : u'.Linked := by
  intro k'
  rw [hmoved.opp, hmoved.ends]
  obtain rfl | rfl := k.eq_or_eq_other k'
  · simp
  · simp

/-- Every action keeps a session linked. -/
theorem Session.Linked.act (hlinked : u.Linked) {action : Action T} {results : List (Option T)}
    (hact : u.act moved action = some (results, u')) : u'.Linked := by
  cases action with
  | set t =>
    rw [hlinked.act_set] at hact
    cases hact
    exact hlinked
  | wait =>
    rw [hlinked.act_wait, Option.map_eq_some_iff] at hact
    obtain ⟨_, _, hsession⟩ := hact
    cases hsession
    exact hlinked
  | move k target =>
    by_cases havailable : target.Available k u.heap
    · obtain ⟨u'', hact', hmoved⟩ := hlinked.act_move moved havailable
      rw [hact'] at hact
      cases hact
      exact hmoved.linked
    · rw [Session.act_move_of_not_available havailable] at hact
      cases hact

/-- A sequence of actions keeps a session linked. -/
theorem Session.Linked.perform (hlinked : u.Linked) {actions : List (Action T)}
    (hperform : u.perform moved actions = some u') : u'.Linked := by
  induction actions generalizing u with
  | nil =>
    cases hperform
    exact hlinked
  | cons action actions ih =>
    simp only [Session.perform, Option.bind_eq_bind, Option.bind_eq_some_iff] at hperform
    obtain ⟨⟨_, mid⟩, hact, hrest⟩ := hperform
    exact ih (hlinked.act hact) hrest

/-- A receiver and a sender as the endpoints in use. -/
def pairOf (r s : ℕ) : Kind → ℕ
  | .receiver => r
  | .sender => s

/-- Destroying an unconnected endpoint touches no other. -/
theorem destroy_of_unconnected {h h' : Heap T} {a : ℕ} (ha : h.opp k a = some none)
    (hok : h.destroy k a = .ok h') : h' = h.setOpp k a none := by
  simp only [Heap.destroy, ha, Except.ok.injEq] at hok
  exact hok.symm

/-- An endpoint in use is not moved to itself. -/
theorem Session.MovedTo.ne_address (hmoved : u.MovedTo k target u') (hlinked : u.Linked) :
    u.ends k ≠ target.address := by
  intro hsame
  have havailable := hmoved.available
  have hthis := hlinked k
  rw [hsame] at hthis
  cases target with
  | construct a => exact absurd (hthis.symm.trans havailable) (by simp)
  | assign a => exact absurd (hthis.symm.trans havailable) (by simp)

/-- A move construction from the endpoint in use of a linked session. -/
theorem Session.Linked.moveConstruct (hlinked : u.Linked) {a : ℕ} {h : Heap T}
    (hok : u.heap.moveConstruct k (u.ends k) a = .ok h) :
    u.MovedTo k (.construct a) ⟨h, Function.update u.ends k a⟩ := by
  have hact : u.act id (.move k (.construct a)) =
      some ([], ⟨h, Function.update u.ends k a⟩) := by
    simp [Session.act, Target.move, hok, Target.address]
  by_cases havailable : (Target.construct a).Available k u.heap
  · obtain ⟨u', hact', hmoved⟩ := hlinked.act_move id havailable
    rw [hact] at hact'
    cases hact'
    exact hmoved
  · rw [Session.act_move_of_not_available havailable] at hact
    cases hact

/-- The endpoints of a new channel are linked. -/
theorem createChannel_linked {h h' : Heap T} {localR localS r s : ℕ}
    (hok : h.createChannel localR localS r s = .ok h') :
    Session.Linked ⟨h', pairOf r s⟩ := by
  simp only [Heap.createChannel, bind_eq_ok] at hok
  obtain ⟨h₁, hreceiver, h₂, hsender, h₃, hlink, h₄, hback, h₅, hmoveR, h₆, hmoveS, h₇, hgoneS,
    hgoneR⟩ := hok
  obtain ⟨_, rfl⟩ := registerOpp_eq_ok hlink
  obtain ⟨_, rfl⟩ := registerOpp_eq_ok hback
  let u₄ : Session T := ⟨(h₂.setOpp .receiver localR (some (some localS))).setOpp .sender localS
    (some (some localR)), pairOf localR localS⟩
  have hlinked : u₄.Linked := by
    intro k
    cases k <;> simp [u₄, pairOf, Kind.other]
  have hmovedR := hlinked.moveConstruct hmoveR
  have hmovedS := hmovedR.linked.moveConstruct hmoveS
  have hr : localR ≠ r := hmovedR.ne_address hlinked
  have hs : localS ≠ s := hmovedS.ne_address hmovedR.linked
  have hlocalS : h₆.opp .sender localS = some none := by
    rw [hmovedS.opp]
    simp [Target.address, pairOf, hs, u₄]
  have hlocalR : h₆.opp .receiver localR = some none := by
    rw [hmovedS.opp, hmovedR.opp]
    simp [Target.address, pairOf, hr, u₄, Kind.other]
  obtain rfl := destroy_of_unconnected hlocalS hgoneS
  obtain rfl := destroy_of_unconnected (by simpa using hlocalR) hgoneR
  have hpair := hmovedS.linked
  intro k
  cases k with
  | receiver => simpa [pairOf, Kind.other, hr.symm] using hpair .receiver
  | sender => simpa [pairOf, Kind.other, hs.symm] using hpair .sender

end CppJam.Channel
