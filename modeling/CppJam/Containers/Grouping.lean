import Mathlib.Data.List.AList
import Mathlib.Data.List.Induction
import Mathlib.Data.List.Perm.Basic

/-!
# Folding a keyed sequence into a map

A map whose subscript operator creates missing entries is often used to fold
the values of a keyed sequence separately for each key. The result depends only
on the values of each key; when the fold does not care about their order, it
does not depend on the order of the sequence.
-/

namespace Containers

variable {κ β ν : Type} [DecidableEq κ]

/-- The values of one key, in sequence order. -/
def valuesAt (k : κ) (l : List (κ × β)) : List β :=
  (l.filter (fun e => e.1 = k)).map Prod.snd

/-- Fold `g` over the values of each key, starting from `d`. -/
def groupFold (g : ν → β → ν) (d : ν) (l : List (κ × β)) : AList (fun _ : κ => ν) :=
  l.foldl (fun m e => m.insert e.1 (g ((m.lookup e.1).getD d) e.2)) ∅

/-- The values of a key in a concatenation. -/
@[simp] theorem valuesAt_append (k : κ) (l l' : List (κ × β)) :
    valuesAt k (l ++ l') = valuesAt k l ++ valuesAt k l' := by
  simp [valuesAt]

/-- The first entry and the others. -/
theorem valuesAt_cons (k : κ) (e : κ × β) (l : List (κ × β)) :
    valuesAt k (e :: l) = valuesAt k [e] ++ valuesAt k l :=
  valuesAt_append k [e] l

/-- The values of a key among entries that all have one key. -/
@[simp] theorem valuesAt_map_mk (k k' : κ) (l : List β) :
    valuesAt k (l.map (fun b => (k', b))) = if k' = k then l else [] := by
  by_cases hk : k' = k <;> simp [valuesAt, List.filter_map, Function.comp_def, hk]

/-- A sequence that is ordered by key, and in which the values of each key are ordered. -/
theorem pairwise_of_valuesAt [PartialOrder κ] {R : β → β → Prop} {l : List (κ × β)}
    (hsorted : l.Pairwise fun x y => x.1 ≤ y.1) (hvalues : ∀ k, (valuesAt k l).Pairwise R) :
    l.Pairwise fun x y => x.1 < y.1 ∨ x.1 = y.1 ∧ R x.2 y.2 := by
  induction l with
  | nil => exact .nil
  | cons e l ih =>
    obtain ⟨hhead, htail⟩ := List.pairwise_cons.mp hsorted
    have hsplit (k : κ) := List.pairwise_append.mp (valuesAt_cons k e l ▸ hvalues k)
    refine List.pairwise_cons.mpr ⟨fun x hx => ?_, ih htail fun k => (hsplit k).2.1⟩
    rcases lt_or_eq_of_le (hhead x hx) with hlt | heq
    · exact Or.inl hlt
    · exact Or.inr ⟨heq, (hsplit e.1).2.2 e.2 (by simp [valuesAt]) x.2
        (List.mem_map_of_mem (List.mem_filter.mpr ⟨hx, by simp [heq]⟩))⟩

/-- When groups with different keys are written out entry by entry, the values of a key are those
of its group. -/
theorem valuesAt_flatMap_groups {groups : List (κ × List β)} {g : κ × List β}
    (hkeys : (groups.map Prod.fst).Nodup) (hg : g ∈ groups) :
    valuesAt g.1 (groups.flatMap fun h => h.2.map fun b => (h.1, b)) = g.2 := by
  induction groups with
  | nil => exact absurd hg List.not_mem_nil
  | cons h groups ih =>
    obtain ⟨hfresh, hkeys⟩ := List.nodup_cons.mp hkeys
    rw [List.flatMap_cons, valuesAt_append, valuesAt_map_mk]
    rcases List.mem_cons.mp hg with rfl | hg
    · have hothers : valuesAt g.1 (groups.flatMap fun h => h.2.map fun b => (h.1, b)) = [] := by
        rw [valuesAt, List.map_eq_nil_iff, List.filter_eq_nil_iff]
        intro e he hk
        obtain ⟨h, hh, hb⟩ := List.mem_flatMap.mp he
        obtain ⟨b, _, rfl⟩ := List.mem_map.mp hb
        have hsame : h.1 = g.1 := by simpa using hk
        exact hfresh (hsame ▸ List.mem_map_of_mem hh)
      rw [hothers, if_pos rfl, List.append_nil]
    · have hne : ¬h.1 = g.1 := fun hsame => hfresh (hsame ▸ List.mem_map_of_mem hg)
      rw [if_neg hne, List.nil_append, ih hkeys hg]

/-- The entry of a key is the fold over its values, and exists when the key
occurs. -/
theorem lookup_groupFold (g : ν → β → ν) (d : ν) (l : List (κ × β)) (k : κ) :
    (groupFold g d l).lookup k =
      if valuesAt k l = [] then none else some ((valuesAt k l).foldl g d) := by
  induction l using List.reverseRecOn with
  | nil => simp [groupFold, valuesAt]
  | append_singleton l e ih =>
    have hstep : groupFold g d (l ++ [e]) =
        (groupFold g d l).insert e.1 (g (((groupFold g d l).lookup e.1).getD d) e.2) := by
      simp [groupFold]
    rw [hstep]
    by_cases hk : k = e.1
    · subst hk
      have hvalues : valuesAt e.1 (l ++ [e]) = valuesAt e.1 l ++ [e.2] := by simp [valuesAt]
      rw [AList.lookup_insert, ih, hvalues]
      split_ifs with hnil <;> simp_all
    · have hvalues : valuesAt k (l ++ [e]) = valuesAt k l := by
        simp [valuesAt, Ne.symm hk]
      rw [AList.lookup_insert_ne hk, ih, hvalues]

/-- The values of a key are permuted when the sequence is. -/
theorem valuesAt_perm {k : κ} {l l' : List (κ × β)} (h : l.Perm l') :
    (valuesAt k l).Perm (valuesAt k l') :=
  (h.filter _).map _

/-- A fold that ignores the order of values gives the same entries for every
order of the sequence. -/
theorem lookup_groupFold_perm {g : ν → β → ν} {d : ν} [RightCommutative g]
    {l l' : List (κ × β)} (h : l.Perm l') (k : κ) :
    (groupFold g d l).lookup k = (groupFold g d l').lookup k := by
  have hvalues := valuesAt_perm (k := k) h
  have hnil : valuesAt k l = [] ↔ valuesAt k l' = [] :=
    ⟨fun h0 => (h0 ▸ hvalues).symm.eq_nil, fun h0 => (h0 ▸ hvalues).eq_nil⟩
  rw [lookup_groupFold, lookup_groupFold, hvalues.foldl_eq]
  simp only [hnil]

end Containers
