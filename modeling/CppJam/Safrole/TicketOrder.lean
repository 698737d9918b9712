import CppJam.Safrole.Blocks

/-!
# Order and uniqueness of tickets

The tickets of a block should come in strictly increasing order of their identifiers, and
none of them should repeat an identifier of the accumulator. The transition looks a
ticket up, with its attempt, in the accumulator that it truncates while it reads the
tickets, and compares neighbours without strictness. It misses a repetition when the
attempts differ or when the earlier ticket has been dropped from the accumulator, and
only then.
-/

namespace CppJam.Safrole

open Bytes Checks Containers

variable {crypto : Primitives} {config : Config} {s s' : State} {input : Input}
  {out : OutputData}

/-- The ticket bodies that the extrinsic of an input carries in a state. -/
def inputBodies (crypto : Primitives) (config : Config) (s : State) (input : Input) :
    List TicketBody :=
  input.extrinsic.filterMap
    (ticketBody crypto config s.gammaZ (rotateEntropy crypto config s input).eta2)

/-- The tickets that the accumulator starts from. -/
def priorTickets (config : Config) (s : State) (input : Input) : List TicketBody :=
  if ChangeEpoch config s input then [] else s.gammaA

/-- The identifiers of the extrinsic strictly increase, and within an epoch none of them is
in the accumulator. -/
structure TicketsOrdered (crypto : Primitives) (config : Config) (s : State) (input : Input) :
    Prop where
  increasing : ((inputBodies crypto config s input).map TicketBody.id).Pairwise (· < ·)
  fresh : ¬ChangeEpoch config s input → ∀ ticket ∈ inputBodies crypto config s input,
    ∀ held ∈ s.gammaA, held.id ≠ ticket.id

/-- A ticket is recognised behind earlier ones: those with its identifier have its attempt,
and fewer identifiers than the epoch has slots are smaller. -/
def Recognised (config : Config) (earlier : List TicketBody) (ticket : TicketBody) : Prop :=
  ∀ other ∈ earlier, other.id = ticket.id → other.attempt = ticket.attempt ∧
    (firstByKey TicketBody.id earlier).countP (fun t => t.id < ticket.id) <
      config.epochLength.toNat

/-- The ticket loop accepts identifiers that do not decrease, and each ticket only when the
accumulator at that point does not hold it. -/
theorem acceptTickets_ok {gammaZ : RingCommitment} {eta2 : OpaqueHash}
    {envelopes : List TicketEnvelope} {prev : Option TicketBody} {tickets : TicketSet}
    {loop : Option TicketBody × TicketSet}
    (hok : envelopes.foldlM (acceptTicket crypto config gammaZ eta2) (prev, tickets) = .ok loop) :
    (∀ p ∈ prev, ∀ t ∈ envelopes.filterMap (ticketBody crypto config gammaZ eta2), p.id ≤ t.id) ∧
    ((envelopes.filterMap (ticketBody crypto config gammaZ eta2)).map TicketBody.id).Pairwise
      (· ≤ ·) ∧
    ∀ front t back, envelopes.filterMap (ticketBody crypto config gammaZ eta2) =
      front ++ t :: back → t ∉ front.foldl (insertTicket config) tickets := by
  induction envelopes generalizing prev tickets with
  | nil => simp
  | cons envelope envelopes ih =>
    rw [List.foldlM_cons, bind_eq_ok] at hok
    obtain ⟨mid, hfirst, hrest⟩ := hok
    obtain ⟨ticket, hticket, _, hnew, hprev, rfl⟩ := acceptTicket_eq_ok.mp hfirst
    obtain ⟨hle, hsorted, hsplits⟩ := ih hrest
    have hle : ∀ t ∈ envelopes.filterMap (ticketBody crypto config gammaZ eta2),
        ticket.id ≤ t.id := hle ticket rfl
    rw [List.filterMap_cons_some hticket]
    refine ⟨?_, ?_, ?_⟩
    · intro p hp
      refine List.forall_mem_cons.mpr ⟨hprev p hp, fun t ht => ?_⟩
      exact (hprev p hp).trans (hle t ht)
    · rw [List.map_cons, List.pairwise_cons, List.forall_mem_map]
      exact ⟨hle, hsorted⟩
    · intro front t back hsplit
      cases front with
      | nil =>
        cases hsplit
        exact hnew
      | cons first front =>
        obtain ⟨rfl, hback⟩ := List.cons.inj hsplit
        exact hsplits front t back hback

/-- The accumulator behind the tickets of `front` holds the smallest ones of the prior
tickets and `front`. -/
theorem startTickets_foldl (hsorted : s.gammaA.Pairwise (fun x y => x.id < y.id))
    (hlength : s.gammaA.length ≤ config.epochLength.toNat) (front : List TicketBody) :
    (front.foldl (insertTicket config) (startTickets config s input)).items =
      smallest TicketBody.id config.epochLength.toNat (priorTickets config s input ++ front) := by
  refine foldl_emplaceBounded_items ?_ front
  unfold startTickets priorTickets
  split_ifs
  · simp [smallest, firstByKey, KeyedSet.empty]
  · rw [KeyedSet.ofRange_items_of_sorted hsorted, smallest_of_sorted hsorted hlength]

/-- A recognised ticket that the accumulator does not hold has a new identifier. -/
theorem Recognised.id_ne {earlier : List TicketBody} {ticket : TicketBody}
    (hrecognised : Recognised config earlier ticket)
    (hnew : ticket ∉ smallest TicketBody.id config.epochLength.toNat earlier) :
    ∀ other ∈ earlier, other.id ≠ ticket.id := by
  intro other hother hid
  obtain ⟨first, hfirst, hkey⟩ : ∃ first ∈ firstByKey TicketBody.id earlier,
      first.id = other.id := exists_mem_firstByKey hother
  obtain ⟨hattempt, hfew⟩ :=
    hrecognised first (firstByKey_subset earlier hfirst) (hkey.trans hid)
  have hsame : first = ticket := by
    cases first
    cases ticket
    simp_all
  rw [hsame] at hfirst
  exact hnew (mem_smallest_iff.mpr ⟨hfirst, hfew⟩)

/-- Identifiers that do not decrease, and of which none repeats one before it, increase. -/
theorem pairwise_id_lt {bodies : List TicketBody}
    (hle : (bodies.map TicketBody.id).Pairwise (· ≤ ·))
    (hne : ∀ front ticket back, bodies = front ++ ticket :: back →
      ∀ other ∈ front, other.id ≠ ticket.id) :
    (bodies.map TicketBody.id).Pairwise (· < ·) := by
  rw [List.pairwise_map, List.pairwise_iff_getElem] at hle ⊢
  intro i j hi hj hij
  -- the ticket at `j` is new behind the tickets before it, of which one is at `i`
  have hsplit : bodies = bodies.take j ++ bodies[j] :: bodies.drop (j + 1) := by
    rw [← List.drop_eq_getElem_cons hj, List.take_append_drop]
  refine lt_of_le_of_ne (hle i j hi hj hij) (hne _ _ _ hsplit _ ?_)
  exact List.mem_take_iff_getElem.mpr ⟨i, by omega, rfl⟩

/-- In ordered tickets no identifier comes back, so all of them are recognised. -/
theorem TicketsOrdered.recognised (hordered : TicketsOrdered crypto config s input)
    {front back : List TicketBody} {ticket : TicketBody}
    (hsplit : inputBodies crypto config s input = front ++ ticket :: back) :
    Recognised config (priorTickets config s input ++ front) ticket := by
  intro other hother hid
  exfalso
  rcases List.mem_append.mp hother with hprior | hfront
  · unfold priorTickets at hprior
    split_ifs at hprior with hchange
    · cases hprior
    · exact hordered.fresh hchange ticket (by simp [hsplit]) other hprior hid
  · have hincreasing := hordered.increasing
    rw [hsplit, List.map_append, List.map_cons, List.pairwise_append] at hincreasing
    have hlt := hincreasing.2.2 other.id (List.mem_map_of_mem hfront) ticket.id
      List.mem_cons_self
    exact hlt.ne hid

/-- **Order of tickets.** Let a block be accepted in a state whose accumulator is strictly
sorted and not longer than an epoch. Its identifiers strictly increase and repeat none of
the accumulator exactly when every ticket is recognised behind the accumulator and the
tickets before it. -/
theorem ticketsOrdered_iff (hsorted : s.gammaA.Pairwise (fun x y => x.id < y.id))
    (hlength : s.gammaA.length ≤ config.epochLength.toNat)
    (hok : transition crypto config s input = .ok (s', .ok out)) :
    TicketsOrdered crypto config s input ↔
      ∀ front ticket back, inputBodies crypto config s input = front ++ ticket :: back →
        Recognised config (priorTickets config s input ++ front) ticket := by
  have hadvance := transition_eq_ok_iff.mp hok
  obtain ⟨loop, hloop, _⟩ := hadvance.tickets
  rw [hadvance.eta] at hloop
  obtain ⟨_, hle, hsplits⟩ := acceptTickets_ok hloop
  constructor
  · exact fun hordered front ticket back hsplit => hordered.recognised hsplit
  · intro hrecognised
    have hne : ∀ front ticket back, inputBodies crypto config s input = front ++ ticket :: back →
        ∀ other ∈ priorTickets config s input ++ front, other.id ≠ ticket.id := by
      intro front ticket back hsplit
      refine (hrecognised front ticket back hsplit).id_ne ?_
      rw [← startTickets_foldl hsorted hlength front]
      exact hsplits front ticket back hsplit
    constructor
    · refine pairwise_id_lt hle fun front ticket back hsplit other hother => ?_
      exact hne front ticket back hsplit other (List.mem_append_right _ hother)
    · intro hstay ticket hticket held hheld
      obtain ⟨front, back, hsplit⟩ := List.append_of_mem hticket
      refine hne front ticket back hsplit held (List.mem_append_left _ ?_)
      rw [priorTickets, if_neg hstay]
      exact hheld

/-- Epochs of three slots, of which two accept tickets. -/
def Scenario.configOfThree : Config := { Scenario.config with epochLength := 3 }

/-- The first slot of epoch 1, with an accumulator of three tickets. -/
def Scenario.fullState : State :=
  { Scenario.state 1 with
    tau := 3
    eta := ⟨ByteArr.fill 9, ByteArr.fill 10, ByteArr.fill 11, ByteArr.fill 12⟩
    gammaA := [⟨ByteArr.fill 10, 0⟩, ⟨ByteArr.fill 20, 0⟩, ⟨ByteArr.fill 30, 0⟩] }

/-- The input of the next slot with the given tickets. -/
def Scenario.submission (extrinsic : List TicketEnvelope) : Input :=
  ⟨4, ByteArr.fill 1, extrinsic⟩

/-- Two new tickets of increasing identifiers are ordered, though the second finds no room. -/
theorem ticketsOrdered_two_tickets :
    TicketsOrdered Scenario.crypto Scenario.configOfThree Scenario.fullState
      (Scenario.submission [Scenario.ticket 0 25, Scenario.ticket 1 40]) := by
  refine (ticketsOrdered_iff (by decide) (by decide) rfl).mpr ?_
  intro front ticket back hsplit
  rcases front with _ | ⟨first, _ | ⟨second, front⟩⟩
  · obtain ⟨rfl, _⟩ := List.cons.inj hsplit
    unfold Recognised
    decide
  · obtain ⟨rfl, hback⟩ := List.cons.inj hsplit
    obtain ⟨rfl, _⟩ := List.cons.inj hback
    unfold Recognised
    decide
  · have hcount : 2 = (first :: second :: front ++ ticket :: back).length :=
      congrArg List.length hsplit
    simp only [List.length_append, List.length_cons] at hcount
    omega

/-- A full accumulator loses its largest ticket to a smaller one, and the ticket that it
lost is accepted again. A ticket that finds no room is accepted twice in a row. -/
theorem not_ticketsOrdered_full :
    (∃ post out, transition Scenario.crypto Scenario.configOfThree Scenario.fullState
        (Scenario.submission [Scenario.ticket 0 5, Scenario.ticket 0 30]) = .ok (post, .ok out)) ∧
      ¬TicketsOrdered Scenario.crypto Scenario.configOfThree Scenario.fullState
        (Scenario.submission [Scenario.ticket 0 5, Scenario.ticket 0 30]) ∧
    (∃ post out, transition Scenario.crypto Scenario.configOfThree Scenario.fullState
        (Scenario.submission [Scenario.ticket 0 40, Scenario.ticket 0 40]) = .ok (post, .ok out)) ∧
      ¬TicketsOrdered Scenario.crypto Scenario.configOfThree Scenario.fullState
        (Scenario.submission [Scenario.ticket 0 40, Scenario.ticket 0 40]) := by
  refine ⟨⟨_, _, rfl⟩, ?_, ⟨_, _, rfl⟩, ?_⟩
  · rintro ⟨_, hfresh⟩
    revert hfresh
    decide
  · rintro ⟨hincreasing, _⟩
    revert hincreasing
    decide

end CppJam.Safrole
