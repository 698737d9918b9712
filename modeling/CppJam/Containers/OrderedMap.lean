import CppJam.Containers.Traversal
import Mathlib.Data.List.Sort

/-!
# Positions in an ordered map

An iterator of an ordered map is the entry it stands on, or none at the end. The
bounds and the neighbours of a position are the nearest entries among those whose
keys they admit, forwards in the order of the keys or backwards.
-/

namespace Containers

open Std

variable {κ ν : Type} {cmp : κ → κ → Ordering} [TransCmp cmp]

/-- `begin()`. -/
def begin (m : ExtTreeMap κ ν cmp) : Option (κ × ν) := m.toList.head?

/-- `lower_bound(key)`: the first entry whose key is not less. -/
def lowerBound (m : ExtTreeMap κ ν cmp) (k : κ) : Option (κ × ν) :=
  m.toList.find? (fun e => cmp e.1 k ≠ .lt)

/-- `upper_bound(key)`: the first entry whose key is greater. -/
def upperBound (m : ExtTreeMap κ ν cmp) (k : κ) : Option (κ × ν) :=
  m.toList.find? (fun e => cmp k e.1 = .lt)

/-- `std::prev(it)`: the entry before a position; before the end stands the last entry. -/
def prev (m : ExtTreeMap κ ν cmp) : Option (κ × ν) → Option (κ × ν)
  | none => m.toList.reverse.head?
  | some e => m.toList.reverse.find? (fun e' => cmp e'.1 e.1 = .lt)

/-- Backwards, the listed keys go down. -/
theorem ordered_keys_reverse (m : ExtTreeMap κ ν cmp) :
    m.toList.reverse.Pairwise (fun a b => cmp b.1 a.1 = .lt) :=
  List.pairwise_reverse.mpr m.ordered_keys_toList

/-- Before the end of an empty map stands nothing. -/
theorem prev_end_of_isEmpty {m : ExtTreeMap κ ν cmp} (hempty : m.isEmpty) : prev m none = none := by
  rw [← ExtTreeMap.isEmpty_toList, List.isEmpty_iff] at hempty
  rw [prev, hempty]
  rfl

variable [LawfulEqCmp cmp] (m : ExtTreeMap κ ν cmp) (k : κ)

/-- The entries are those that are listed, also backwards. -/
theorem getElem?_eq_some_iff_mem_reverse {k : κ} {v : ν} :
    m[k]? = some v ↔ (k, v) ∈ m.toList.reverse := by
  rw [List.mem_reverse]
  exact ExtTreeMap.mem_toList_iff_getElem?_eq_some.symm

/-- The map begins with its least entry. -/
theorem begin_nearest :
    Nearest (fun a b => cmp a b = .lt) (fun k => m[k]?) (fun _ => True) (begin m) :=
  nearest_head? (r := fun a b => cmp a b = .lt) m.ordered_keys_toList
    fun _ _ => ExtTreeMap.mem_toList_iff_getElem?_eq_some.symm

/-- The lower bound is the least entry that is not less. -/
theorem lowerBound_nearest :
    Nearest (fun a b => cmp a b = .lt) (fun k => m[k]?) (fun k' => cmp k' k ≠ .lt)
      (lowerBound m k) :=
  (nearest_find? (r := fun a b => cmp a b = .lt) m.ordered_keys_toList
    (fun _ _ => ExtTreeMap.mem_toList_iff_getElem?_eq_some.symm)
    (fun k' => cmp k' k ≠ .lt)).congr fun _ _ _ => by simp

/-- The upper bound is the least entry that is greater. -/
theorem upperBound_nearest :
    Nearest (fun a b => cmp a b = .lt) (fun k => m[k]?) (fun k' => cmp k k' = .lt)
      (upperBound m k) :=
  (nearest_find? (r := fun a b => cmp a b = .lt) m.ordered_keys_toList
    (fun _ _ => ExtTreeMap.mem_toList_iff_getElem?_eq_some.symm)
    (fun k' => cmp k k' = .lt)).congr fun _ _ _ => by simp

/-- Before the end stands the greatest entry. -/
theorem prev_end_nearest :
    Nearest (fun a b => cmp b a = .lt) (fun k => m[k]?) (fun _ => True) (prev m none) :=
  nearest_head? (r := fun a b => cmp b a = .lt) (ordered_keys_reverse m)
    fun _ _ => getElem?_eq_some_iff_mem_reverse m

/-- Before an entry stands the greatest one that is less. -/
theorem prev_entry_nearest (e : κ × ν) :
    Nearest (fun a b => cmp b a = .lt) (fun k => m[k]?) (fun k' => cmp k' e.1 = .lt)
      (prev m (some e)) :=
  (nearest_find? (r := fun a b => cmp b a = .lt) (ordered_keys_reverse m)
    (fun _ _ => getElem?_eq_some_iff_mem_reverse m)
    (fun k' => cmp k' e.1 = .lt)).congr fun _ _ _ => by simp

/-- If the lower bound of a key is where the map begins, no key is less. -/
theorem not_lt_of_lowerBound_eq_begin
    (hbegin : (lowerBound m k).map Prod.fst = (begin m).map Prod.fst) {k' : κ} {v' : ν}
    (hk' : m[k']? = some v') : cmp k' k ≠ .lt := by
  have hlower := lowerBound_nearest m k
  have hfirst := begin_nearest m
  generalize lowerBound m k = bound at hbegin hlower
  generalize begin m = first at hbegin hfirst
  match bound, first, hbegin with
  | none, none, _ => exact absurd trivial (hfirst k' v' hk')
  | some (_, _), some (_, _), hbegin =>
    simp only [Option.map_some, Option.some.injEq] at hbegin
    subst hbegin
    rcases hfirst.2.2 k' v' hk' trivial with rfl | hlt
    · exact hlower.2.1
    · intro hk'k
      exact hlower.2.1 (TransCmp.lt_trans hlt hk'k)

/-- The entry before the lower bound of a key is the greatest one that is less than the
key. -/
theorem prev_lowerBound_nearest :
    Nearest (fun a b => cmp b a = .lt) (fun k => m[k]?) (fun k' => cmp k' k = .lt)
      (prev m (lowerBound m k)) := by
  have hlower := lowerBound_nearest m k
  cases hbound : lowerBound m k with
  | none =>
    rw [hbound] at hlower
    refine (prev_end_nearest m).congr ?_
    intro k' v' hk'
    simp only [true_iff]
    exact not_not.mp (hlower k' v' hk')
  | some e =>
    rw [hbound] at hlower
    refine (prev_entry_nearest m e).congr ?_
    intro k' v' hk'
    -- no key lies between the given one and its lower bound
    constructor
    · intro hlt
      by_contra hge
      rcases hlower.2.2 k' v' hk' hge with rfl | hgt
      · exact absurd hlt (by simp [ReflCmp.compare_self])
      · have hself := TransCmp.lt_trans hlt hgt
        simp [ReflCmp.compare_self] at hself
    · intro hlt
      have hle : (cmp k e.1).isLE :=
        OrientedCmp.isGE_iff_isLE.mp (Ordering.isGE_iff_ne_lt.mpr hlower.2.1)
      exact TransCmp.lt_of_lt_of_isLE hlt hle

end Containers
