import CppJam.Containers.Multimap

/-!
# Grouped iteration over a multimap

`MultimapGroups` walks a multimap group by group: its iterator holds a half-open
range of positions that carry one key, and advancing moves to the range of the
next key. The concatenated groups are the entries of the multimap.
-/

namespace CppJam.Disputes

open Containers

namespace MultimapGroups

variable {κ ν : Type} [LinearOrder κ]

/-- `It`: the range of positions of one group. -/
structure It where
  /-- Position of the first entry of the group. -/
  begin : ℕ
  /-- Position behind the last entry of the group. -/
  stop : ℕ
  deriving DecidableEq

/-- `makeEnd`: the end of the group that starts at position `begin`. -/
def makeEnd (m : Multimap κ ν) (begin : ℕ) : ℕ :=
  match m.items[begin]? with
  | none => m.items.length
  | some e => m.upperBound e.1

/-- The iterator at position `begin`. -/
def It.at (m : Multimap κ ν) (begin : ℕ) : It := ⟨begin, makeEnd m begin⟩

/-- `operator++`. -/
def It.next (m : Multimap κ ν) (it : It) : It := It.at m it.stop

/-- The values in the range of an iterator. -/
def It.values (m : Multimap κ ν) (it : It) : List ν :=
  ((m.items.take it.stop).drop it.begin).map Prod.snd

/-- The loop `for (group : MultimapGroups{m})` from iterator `it`, for at most
`fuel` rounds. -/
def collect (m : Multimap κ ν) : ℕ → It → List (κ × List ν)
  | 0, _ => []
  | fuel + 1, it =>
      match m.items[it.begin]? with
      | none => []
      | some e => (e.1, it.values m) :: collect m fuel (it.next m)

/-- The groups of a multimap. A round consumes at least one entry, so the number
of entries bounds the number of rounds. -/
def groups (m : Multimap κ ν) : List (κ × List ν) :=
  collect m m.items.length (It.at m 0)

/-- One round: the group at a position consists of the entries with the key of
the first one, and the next iterator starts behind them. -/
theorem round_split {m : Multimap κ ν} {b : ℕ} {e : κ × ν} (he : m.items[b]? = some e) :
    b < (It.at m b).stop ∧ (It.at m b).values m ≠ [] ∧
      m.items.drop b =
        ((It.at m b).values m).map (fun v => (e.1, v)) ++ m.items.drop (It.at m b).stop := by
  obtain ⟨hb, hget⟩ := List.getElem?_eq_some_iff.mp he
  have hitems : m.items = m.items.take b ++ e :: m.items.drop (b + 1) := by
    rw [← hget, ← List.drop_eq_getElem_cons hb, List.take_append_drop]
  have hfront : (m.items.take b).length = b := by simp; omega
  obtain ⟨run, tail, hrest, hrun, hbound⟩ := Multimap.upperBound_split hitems
  have hstop : (It.at m b).stop = b + (run.length + 1) := by
    simp only [It.at, makeEnd, he]
    omega
  have hdrop : m.items.drop b = (e :: run) ++ tail := by
    rw [List.drop_eq_getElem_cons hb, hget, hrest, List.cons_append]
  have hvalues : (It.at m b).values m = (e :: run).map Prod.snd := by
    simp only [It.values, hstop, List.drop_take]
    rw [show (It.at m b).begin = b from rfl, hdrop]
    simp
  have hkeys : ((e :: run).map Prod.snd).map (fun v => (e.1, v)) = e :: run := by
    have hpoint : ∀ x ∈ e :: run, (e.1, x.2) = x := by
      intro x hx
      rcases List.mem_cons.mp hx with rfl | hx
      · rfl
      · exact Prod.ext (hrun x hx).symm rfl
    rw [List.map_map]
    exact (List.map_congr_left hpoint).trans (List.map_id _)
  have htail : m.items.drop (It.at m b).stop = tail := by
    rw [hstop, ← List.drop_drop, hdrop]
    simp
  refine ⟨by omega, by simp [hvalues], ?_⟩
  rw [hvalues, hkeys, htail, hdrop]

/-- With enough rounds the loop from a position visits exactly the entries from
there on, and no group is empty. -/
theorem collect_spec (m : Multimap κ ν) (fuel b : ℕ) (hfuel : m.items.length ≤ b + fuel) :
    (collect m fuel (It.at m b)).flatMap (fun g => g.2.map (fun v => (g.1, v))) =
      m.items.drop b ∧ ∀ g ∈ collect m fuel (It.at m b), g.2 ≠ [] := by
  induction fuel generalizing b with
  | zero =>
    have hlen : m.items.length ≤ b := by omega
    simp [collect, List.drop_of_length_le hlen]
  | succ fuel ih =>
    have hbegin : (It.at m b).begin = b := rfl
    rw [collect, hbegin]
    cases he : m.items[b]? with
    | none => simp [List.drop_of_length_le (List.getElem?_eq_none_iff.mp he)]
    | some e =>
      obtain ⟨hlt, hne, hsplit⟩ := round_split he
      obtain ⟨hflat, hall⟩ := ih (It.at m b).stop (by omega)
      simp only [List.flatMap_cons, List.forall_mem_cons]
      refine ⟨?_, hne, hall⟩
      rw [hsplit, ← hflat]
      rfl

/-- Concatenating the groups, each value with its group's key, gives the entries
of the multimap back. -/
theorem groups_flatMap (m : Multimap κ ν) :
    (groups m).flatMap (fun g => g.2.map (fun v => (g.1, v))) = m.items := by
  have h := (collect_spec m m.items.length 0 (by omega)).1
  rwa [List.drop_zero] at h

/-- The values of all groups are the values of the multimap, in order. -/
theorem groups_values (m : Multimap κ ν) :
    (groups m).flatMap Prod.snd = m.items.map Prod.snd := by
  conv_rhs => rw [← groups_flatMap m]
  simp [List.map_flatMap, Function.comp_def]

/-- A key heads a group when it has an entry. -/
theorem mem_groups_keys {m : Multimap κ ν} {k : κ} :
    k ∈ (groups m).map Prod.fst ↔ k ∈ m.keys := by
  have hne : ∀ g ∈ groups m, g.2 ≠ [] :=
    (collect_spec m m.items.length 0 (by omega)).2
  rw [Multimap.keys]
  conv_rhs => rw [← groups_flatMap m]
  simp only [List.mem_map, List.mem_flatMap]
  constructor
  · rintro ⟨g, hg, rfl⟩
    obtain ⟨v, hv⟩ := List.exists_mem_of_ne_nil _ (hne g hg)
    exact ⟨(g.1, v), ⟨g, hg, v, hv, rfl⟩, rfl⟩
  · rintro ⟨e, ⟨g, hg, v, _, rfl⟩, rfl⟩
    exact ⟨g, hg, rfl⟩

end MultimapGroups

end CppJam.Disputes
