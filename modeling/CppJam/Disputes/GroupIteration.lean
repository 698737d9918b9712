import CppJam.Disputes.MultimapGroups

/-!
# What grouped iteration visits

A `for` loop over `MultimapGroups` compares its iterator with the end, dereferences it and
advances it. From the first position of any multimap the loop comes to an end, after one
round for each key: the keys come in order, each with the values stored under it. A
multimap that was filled by insertions hands them out in the order of the insertions.
-/

namespace CppJam.Disputes.MultimapGroups

open Containers

variable {κ ν : Type} [LinearOrder κ] {m : Multimap κ ν}

/-- `operator==` with the iterator of `end()`. -/
def It.IsEnd (m : Multimap κ ν) (it : It) : Prop := it.begin = m.items.length

/-- `operator*`: the key of the first entry and the values in the range. There is no entry to
read at the end. -/
def It.deref (m : Multimap κ ν) (it : It) : Option (κ × List ν) :=
  m.items[it.begin]?.map fun e => (e.1, it.values m)

/-- `Iterates m it visited`: the `for` loop from iterator `it` comes to an end and visits the
groups `visited`. -/
inductive Iterates (m : Multimap κ ν) : It → List (κ × List ν) → Prop
  | done {it : It} (hend : it.IsEnd m) : Iterates m it []
  | round {it : It} {g : κ × List ν} {visited : List (κ × List ν)} (hend : ¬it.IsEnd m)
      (hderef : it.deref m = some g) (hnext : Iterates m (it.next m) visited) :
      Iterates m it (g :: visited)

/-- The loop visits the same groups every time. -/
theorem Iterates.unique {it : It} {visited visited' : List (κ × List ν)}
    (h : Iterates m it visited) (h' : Iterates m it visited') : visited' = visited := by
  induction h generalizing visited' with
  | done hend =>
    cases h' with
    | done _ => rfl
    | round hend' _ _ => exact absurd hend hend'
  | round hend hderef _ ih =>
    cases h' with
    | done hend' => exact absurd hend' hend
    | round _ hderef' hnext' =>
      cases Option.some.inj (hderef.symm.trans hderef')
      rw [ih hnext']

/-- The cached end of a group is a position of the multimap or its end. -/
theorem stop_le_length (m : Multimap κ ν) (b : ℕ) : (It.at m b).stop ≤ m.items.length := by
  simp only [It.at, makeEnd]
  cases m.items[b]? with
  | none => exact le_rfl
  | some e => exact m.upperBound_le_length e.1

/-- Every key behind a group is greater than the key of the group. -/
theorem lt_of_mem_drop_stop {b : ℕ} {e x : κ × ν} (he : m.items[b]? = some e)
    (hx : x ∈ m.items.drop (It.at m b).stop) : e.1 < x.1 := by
  have hstop : (It.at m b).stop = m.upperBound e.1 := by simp only [It.at, makeEnd, he]
  rw [hstop] at hx
  exact Multimap.lt_of_mem_drop_upperBound hx

/-- The bounded loop is the `for` loop when its bound is large enough. -/
theorem iterates_collect (m : Multimap κ ν) (fuel b : ℕ) (hb : b ≤ m.items.length)
    (hfuel : m.items.length ≤ b + fuel) :
    Iterates m (It.at m b) (collect m fuel (It.at m b)) := by
  induction fuel generalizing b with
  | zero =>
    have hend : b = m.items.length := by omega
    exact .done hend
  | succ fuel ih =>
    have hbegin : (It.at m b).begin = b := rfl
    rw [collect, hbegin]
    cases he : m.items[b]? with
    | none =>
      have hlength := List.getElem?_eq_none_iff.mp he
      have hend : b = m.items.length := by omega
      exact .done hend
    | some e =>
      obtain ⟨hlt, _⟩ := List.getElem?_eq_some_iff.mp he
      have hend : ¬(It.at m b).IsEnd m := by
        intro hend
        have : b = m.items.length := hend
        omega
      have hderef : (It.at m b).deref m = some (e.1, (It.at m b).values m) := by
        simp [It.deref, hbegin, he]
      obtain ⟨hforward, _, _⟩ := round_split he
      have hstop := stop_le_length m b
      exact .round hend hderef (ih (It.at m b).stop hstop (by omega))

/-- The keys of the groups from a position on are keys of entries from there on. -/
theorem exists_mem_drop_of_mem_collect {fuel b : ℕ} (hfuel : m.items.length ≤ b + fuel)
    {g : κ × List ν} (hg : g ∈ collect m fuel (It.at m b)) :
    ∃ x ∈ m.items.drop b, x.1 = g.1 := by
  obtain ⟨hflat, hne⟩ := collect_spec m fuel b hfuel
  obtain ⟨v, hv⟩ := List.exists_mem_of_ne_nil _ (hne g hg)
  have hx : (g.1, v) ∈ m.items.drop b := by
    rw [← hflat]
    exact List.mem_flatMap.mpr ⟨g, hg, List.mem_map_of_mem hv⟩
  exact ⟨(g.1, v), hx, rfl⟩

/-- The groups from a position on come in the order of their keys. -/
theorem collect_keys_sorted (m : Multimap κ ν) (fuel b : ℕ)
    (hfuel : m.items.length ≤ b + fuel) :
    ((collect m fuel (It.at m b)).map Prod.fst).Pairwise (· < ·) := by
  induction fuel generalizing b with
  | zero => simp [collect]
  | succ fuel ih =>
    have hbegin : (It.at m b).begin = b := rfl
    rw [collect, hbegin]
    cases he : m.items[b]? with
    | none => simp
    | some e =>
      obtain ⟨hforward, _, _⟩ := round_split he
      have hfuel' : m.items.length ≤ (It.at m b).stop + fuel := by omega
      refine List.pairwise_cons.mpr ⟨?_, ih (It.at m b).stop hfuel'⟩
      intro k hk
      obtain ⟨g, hg, rfl⟩ := List.mem_map.mp hk
      obtain ⟨x, hx, hkey⟩ := exists_mem_drop_of_mem_collect hfuel' hg
      rw [← hkey]
      exact lt_of_mem_drop_stop he hx

/-- What the groups of a multimap are: the keys in order, each once, with the values stored
under them; together they are the entries. -/
structure Grouped (m : Multimap κ ν) (groups : List (κ × List ν)) : Prop where
  /-- The keys come in order, each once. -/
  keys_sorted : (groups.map Prod.fst).Pairwise (· < ·)
  /-- They are the keys of the multimap. -/
  mem_keys : ∀ k, k ∈ groups.map Prod.fst ↔ k ∈ m.keys
  /-- A group has exactly the values of its key. -/
  values_eq : ∀ g ∈ groups, g.2 = valuesAt g.1 m.items
  /-- The groups in sequence are the entries. -/
  flatMap_eq : groups.flatMap (fun g => g.2.map (fun v => (g.1, v))) = m.items

/-- The groups of a multimap are what they should be. -/
theorem grouped_groups (m : Multimap κ ν) : Grouped m (groups m) := by
  have hsorted := collect_keys_sorted m m.items.length 0 (by omega)
  refine ⟨hsorted, fun k => mem_groups_keys, ?_, groups_flatMap m⟩
  intro g hg
  have hnodup : ((groups m).map Prod.fst).Nodup := hsorted.imp ne_of_lt
  rw [← groups_flatMap m, valuesAt_flatMap_groups hnodup hg]

/-- **Grouped iteration.** The loop over any multimap comes to an end. It visits each key once,
in order, with exactly the values stored under it, and the groups in sequence are the entries.
If the multimap was filled by insertions, the values of a group come in the order of their
insertion. -/
theorem iterates_grouped (m : Multimap κ ν) :
    ∃ visited, Iterates m (It.at m 0) visited ∧
      (∀ visited', Iterates m (It.at m 0) visited' → visited' = visited) ∧ Grouped m visited ∧
      ∀ inserted : List (κ × ν),
        m = inserted.foldl (fun m e => m.emplace e.1 e.2) Multimap.empty →
          ∀ g ∈ visited, g.2 = valuesAt g.1 inserted := by
  have hloop := iterates_collect m m.items.length 0 (Nat.zero_le _) (by omega)
  refine ⟨groups m, hloop, fun _ h' => hloop.unique h', grouped_groups m, ?_⟩
  intro inserted hfilled g hg
  rw [(grouped_groups m).values_eq g hg, hfilled, Multimap.valuesAt_foldl_emplace]
  rfl

end CppJam.Disputes.MultimapGroups
