import Mathlib.Algebra.BigOperators.Group.List.Basic
import Mathlib.Algebra.GroupWithZero.Nat
import Mathlib.Data.List.Nodup

/-!
# The weight of an ordered map

A map can be accompanied by a counter of what its values weigh together. The rules
say by how much the total changes when an entry is added, replaced or removed, and
what a map holds after all entries of another one were inserted.
-/

namespace Containers

open Std

variable {κ ν : Type} {cmp : κ → κ → Ordering} [TransCmp cmp]

/-- What the values of a map weigh together. -/
def total (weight : ν → ℕ) (m : ExtTreeMap κ ν cmp) : ℕ :=
  (m.toList.map (fun entry => weight entry.2)).sum

/-- The weight of the value at a key, nothing when there is none. -/
def weightAt (weight : ν → ℕ) (m : ExtTreeMap κ ν cmp) (k : κ) : ℕ :=
  (m[k]?.map weight).getD 0

/-- An empty map weighs nothing. -/
@[simp] theorem total_empty (weight : ν → ℕ) :
    total weight (∅ : ExtTreeMap κ ν cmp) = 0 := by
  rw [total, ExtTreeMap.toList_eq_nil_iff.mpr rfl]
  rfl

variable [LawfulEqCmp cmp] {m : ExtTreeMap κ ν cmp} {k : κ} {v : ν}

/-- No entry is listed twice. -/
theorem nodup_toList (m : ExtTreeMap κ ν cmp) : m.toList.Nodup := by
  refine m.distinct_keys_toList.imp ?_
  rintro a _ hdistinct rfl
  exact hdistinct ReflCmp.compare_self

/-- Removing a key that is not there changes nothing. -/
theorem erase_eq_self (hv : m[k]? = none) : m.erase k = m := by
  refine ExtTreeMap.ext_getElem? fun k' => ?_
  rw [ExtTreeMap.getElem?_erase]
  split_ifs with heq
  · rw [← LawfulEqCmp.eq_of_compare heq, hv]
  · rfl

/-- Listing a map is listing one of its entries and the map without it. -/
theorem toList_perm_cons_erase (hv : m[k]? = some v) :
    m.toList.Perm ((k, v) :: (m.erase k).toList) := by
  have hout : (k, v) ∉ (m.erase k).toList := by
    rw [ExtTreeMap.mem_toList_iff_getElem?_eq_some, ExtTreeMap.getElem?_erase_self]
    exact Option.some_ne_none v ∘ Eq.symm
  refine (List.perm_ext_iff_of_nodup (nodup_toList m)
    (List.nodup_cons.mpr ⟨hout, nodup_toList _⟩)).mpr ?_
  rintro ⟨k', v'⟩
  rw [List.mem_cons, ExtTreeMap.mem_toList_iff_getElem?_eq_some,
    ExtTreeMap.mem_toList_iff_getElem?_eq_some, ExtTreeMap.getElem?_erase, Prod.mk.injEq]
  by_cases hk : k = k'
  · subst hk
    rw [if_pos ReflCmp.compare_self, hv, Option.some.injEq]
    simp [eq_comm]
  · rw [if_neg (fun heq => hk (LawfulEqCmp.eq_of_compare heq))]
    simp [Ne.symm hk]

/-- Removing an entry takes its weight away. -/
theorem total_erase (weight : ν → ℕ) (m : ExtTreeMap κ ν cmp) (k : κ) :
    total weight (m.erase k) + weightAt weight m k = total weight m := by
  rw [weightAt]
  cases hv : m[k]? with
  | none =>
    rw [erase_eq_self hv]
    rfl
  | some v =>
    have hsum := ((toList_perm_cons_erase hv).map (fun entry => weight entry.2)).sum_eq
    rw [List.map_cons, List.sum_cons] at hsum
    rw [total, total, hsum]
    exact Nat.add_comm _ _

/-- Adding an entry adds its weight and takes away that of the entry it replaces. -/
theorem total_insert (weight : ν → ℕ) (m : ExtTreeMap κ ν cmp) (k : κ) (v : ν) :
    total weight (m.insert k v) + weightAt weight m k = total weight m + weight v := by
  have herase : (m.insert k v).erase k = m.erase k := by
    refine ExtTreeMap.ext_getElem? fun k' => ?_
    rw [ExtTreeMap.getElem?_erase, ExtTreeMap.getElem?_erase, ExtTreeMap.getElem?_insert]
    split_ifs <;> rfl
  have hnew := total_erase weight (m.insert k v) k
  have hold := total_erase weight m k
  have hweight : weightAt weight (m.insert k v) k = weight v := by
    rw [weightAt, ExtTreeMap.getElem?_insert_self]
    rfl
  rw [herase, hweight] at hnew
  omega

/-- The weight of one entry is part of the total. -/
theorem weightAt_le_total (weight : ν → ℕ) (m : ExtTreeMap κ ν cmp) (k : κ) :
    weightAt weight m k ≤ total weight m := by
  have hsplit := total_erase weight m k
  omega

/-- After all entries of a map were inserted, a key has its value there, or else the one it
had. -/
theorem getElem?_insertMany_toList [BEq κ] [LawfulBEqCmp cmp] (m n : ExtTreeMap κ ν cmp)
    (k : κ) : (m.insertMany n.toList)[k]? = n[k]?.or m[k]? := by
  cases hv : n[k]? with
  | some v =>
    exact ExtTreeMap.getElem?_insertMany_list_of_mem ReflCmp.compare_self n.distinct_keys_toList
      (ExtTreeMap.mem_toList_iff_getElem?_eq_some.mpr hv)
  | none =>
    refine ExtTreeMap.getElem?_insertMany_list_of_contains_eq_false ?_
    rw [ExtTreeMap.map_fst_toList_eq_keys, ExtTreeMap.contains_keys,
      ExtTreeMap.contains_eq_isSome_getElem?, hv]
    rfl

end Containers
