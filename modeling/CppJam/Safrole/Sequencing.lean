import CppJam.Containers.OutsideIn
import CppJam.Safrole.Acceptance

/-!
# Outside-in sequencing of tickets

`Z` moves two iterators towards each other, driven by a flag that toggles in every
round. After `n` rounds the first iterator has moved once for every even round and the
second one once for every odd round, so they never leave the sequence, and the tickets
are the first `n` ones in outside-in order.
-/

namespace CppJam.Safrole

open Bytes Checks Containers

variable {crypto : Primitives} {config : Config} {s : List TicketBody}

/-- The loop variables of `Z` after `n` rounds. -/
def OutsideIn.after (s : List TicketBody) (n : ℕ) : OutsideIn :=
  ⟨(n + 1) / 2, s.length - 1 - n / 2, n % 2 = 0, (outsideIn s).take n⟩

/-- A round takes the next ticket in outside-in order and stays inside the sequence. -/
theorem OutsideIn.round_after {n : ℕ} (hn : n < s.length) (i : ℕ) :
    OutsideIn.round s (OutsideIn.after s n) i = .ok (OutsideIn.after s (n + 1)) := by
  obtain ⟨ticket, hticket⟩ : ∃ ticket, s[outsideInIndex s.length n]? = some ticket :=
    ⟨_, List.getElem?_eq_getElem (outsideInIndex_lt hn)⟩
  have htake : (outsideIn s).take (n + 1) = (outsideIn s).take n ++ [ticket] := by
    rw [List.take_add_one, getElem?_outsideIn hn, hticket]
    rfl
  unfold outsideInIndex at hticket
  by_cases heven : n % 2 = 0
  · have hfront : (n + 1) / 2 = n / 2 := by omega
    have hnext : (n + 1 + 1) / 2 = n / 2 + 1 := by omega
    have hodd : (n + 1) % 2 ≠ 0 := by omega
    rw [if_pos heven] at hticket
    simp [OutsideIn.round, OutsideIn.after, heven, hfront, hticket, hnext, hodd, htake]
  · have hback : (n + 1 + 1) / 2 = (n + 1) / 2 := by omega
    have hnext : s.length - 1 - (n + 1) / 2 = s.length - 1 - n / 2 - 1 := by omega
    have hinside : s.length - 1 - n / 2 ≠ 0 := by omega
    have hodd : (n + 1) % 2 = 0 := by omega
    rw [if_neg heven] at hticket
    simp [OutsideIn.round, OutsideIn.after, heven, hback, hticket, hnext, hodd, htake, hinside]

/-- The loop of `Z` runs through any number of rounds up to the length of the sequence. -/
theorem OutsideIn.rounds {n : ℕ} (hn : n ≤ s.length) :
    (List.range n).foldlM (OutsideIn.round s) ⟨0, s.length - 1, true, []⟩ =
      .ok (OutsideIn.after s n) := by
  induction n with
  | zero => rfl
  | succ n ih =>
    rw [List.range_succ, List.foldlM_append, ih (by omega)]
    simp [OutsideIn.round_after (show n < s.length by omega), Bind.bind, Except.bind]

/-- `Z` returns a sequence of the epoch length in outside-in order. -/
theorem Z_eq_ok (hepoch : config.epochLength.toNat ≠ 0)
    (hsize : crypto.ticketsConfigSize config = config.epochLength.toNat)
    (hs : s.length = config.epochLength.toNat) : Z crypto config s = .ok (outsideIn s) := by
  have hne : s ≠ [] := by
    rintro rfl
    exact hepoch hs.symm
  have hloop := OutsideIn.rounds (s := s) le_rfl
  have htickets : (OutsideIn.after s s.length).tickets = outsideIn s :=
    List.take_of_length_le (length_outsideIn s).le
  unfold Z
  rw [hsize, ← hs, hloop]
  simp [failIf, hne, htickets, Bind.bind, Except.bind, Pure.pure, Except.pure]

/-- **Outside-in sequencing.** For an epoch of at least one slot and any sequence of the
epoch length, `Z` takes its tickets alternately from the front and from the back. Its
result is a permutation of the sequence, and no iterator is read outside the sequence
or moved before its beginning, which would have no result. -/
theorem Z_outside_in (crypto : Primitives) (config : Config) (s : List TicketBody)
    (hepoch : 1 ≤ config.epochLength.toNat)
    (hsize : crypto.ticketsConfigSize config = config.epochLength.toNat)
    (hs : s.length = config.epochLength.toNat) :
    ∃ z, Z crypto config s = .ok z ∧ z.length = config.epochLength.toNat ∧
      (∀ i, 2 * i < config.epochLength.toNat → z[2 * i]? = s[i]?) ∧
      (∀ i, 2 * i + 1 < config.epochLength.toNat →
        z[2 * i + 1]? = s[config.epochLength.toNat - 1 - i]?) ∧
      z.Perm s := by
  refine ⟨outsideIn s, Z_eq_ok (by omega) hsize hs, ?_, ?_, ?_, outsideIn_perm s⟩
  · rw [length_outsideIn, hs]
  · intro i hi
    rw [getElem?_outsideIn (by omega), outsideInIndex, if_pos (by omega)]
    congr 1
    omega
  · intro i hi
    rw [getElem?_outsideIn (by omega), outsideInIndex, if_neg (by omega), hs]
    congr 1
    omega

/-- Three tickets are sequenced as the first, the last and the middle one. -/
theorem Z_outside_in_three_tickets :
    let config : Config := ⟨1, 1, 3, 3, 1, 8, 80⟩
    let crypto : Primitives := ⟨fun _ => ByteArr.fill 0, fun _ _ => ByteArr.fill 0,
      fun _ _ _ _ => none, fun config => config.epochLength.toNat⟩
    let tickets : List TicketBody :=
      [⟨ByteArr.fill 1, 0⟩, ⟨ByteArr.fill 2, 0⟩, ⟨ByteArr.fill 3, 0⟩]
    ∃ z, Z crypto config tickets = .ok z ∧ z.Perm tickets ∧
      z = [⟨ByteArr.fill 1, 0⟩, ⟨ByteArr.fill 3, 0⟩, ⟨ByteArr.fill 2, 0⟩] := by
  intro config crypto tickets
  obtain ⟨z, hz, _, _, _, hperm⟩ := Z_outside_in crypto config tickets (by decide) rfl rfl
  refine ⟨z, hz, hperm, ?_⟩
  have hvalue : Z crypto config tickets =
      .ok [⟨ByteArr.fill 1, 0⟩, ⟨ByteArr.fill 3, 0⟩, ⟨ByteArr.fill 2, 0⟩] := rfl
  rw [hvalue] at hz
  exact (Except.ok.inj hz).symm

end CppJam.Safrole
