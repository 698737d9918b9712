import CppJam.Checks
import Mathlib.Data.Fintype.Card
import Mathlib.Data.Set.Finite.List
import Mathlib.Logic.Relation

/-!
# Recursive collection of successors

A recursive walk through a directed graph that does not remember where it has been collects all
nodes that can be reached, and returns exactly when no path goes on forever. In a graph with
finitely many nodes this means that there is no cycle.
-/

namespace Graphs

open Checks

variable {ε κ : Type} {next : κ → List κ} {tooDeep : ε}

/-- There is an edge. -/
def Edge (next : κ → List κ) (a b : κ) : Prop := b ∈ next a

/-- A node and all nodes below it; an error when calls are nested more deeply than the limit. -/
def collect (tooDeep : ε) (next : κ → List κ) : ℕ → κ → Except ε (List κ)
  | 0, _ => .error tooDeep
  | limit + 1, a => do
    let below ← (next a).mapM (collect tooDeep next limit)
    return a :: below.flatten

/-- What is collected is what can be reached. -/
theorem mem_collect_iff {limit : ℕ} {a : κ} {l : List κ}
    (hl : collect tooDeep next limit a = .ok l) {b : κ} :
    b ∈ l ↔ Relation.ReflTransGen (Edge next) a b := by
  induction limit generalizing a l with
  | zero => cases hl
  | succ limit ih =>
    simp only [collect, bind_eq_ok, pure_eq_ok] at hl
    obtain ⟨below, hbelow, rfl⟩ := hl
    rw [List.mem_cons, mem_flatten_of_mapM hbelow, Relation.ReflTransGen.cases_head_iff]
    refine or_congr eq_comm ?_
    constructor
    · rintro ⟨d, hd, m, hm, hb⟩
      exact ⟨d, hd, (ih hm).mp hb⟩
    · rintro ⟨d, hd, hb⟩
      obtain ⟨m, _, hm⟩ := ok_of_mapM hbelow hd
      exact ⟨d, hd, m, hm, (ih hm).mpr hb⟩

/-- A walk that returns has come to an end on every path. -/
theorem acc_of_collect {limit : ℕ} {a : κ} {l : List κ}
    (hl : collect tooDeep next limit a = .ok l) : Acc (fun b a => Edge next a b) a := by
  induction limit generalizing a l with
  | zero => cases hl
  | succ limit ih =>
    simp only [collect, bind_eq_ok, pure_eq_ok] at hl
    obtain ⟨below, hbelow, _⟩ := hl
    refine ⟨a, fun d hd => ?_⟩
    obtain ⟨m, _, hm⟩ := ok_of_mapM hbelow hd
    exact ih hm

/-- A higher limit changes nothing in a walk that returns. -/
theorem collect_mono {limit limit' : ℕ} (hle : limit ≤ limit') {a : κ} {l : List κ}
    (hl : collect tooDeep next limit a = .ok l) : collect tooDeep next limit' a = .ok l := by
  induction limit generalizing limit' a l with
  | zero => cases hl
  | succ limit ih =>
    obtain ⟨limit', rfl⟩ : ∃ k, limit' = k + 1 := ⟨limit' - 1, by omega⟩
    simp only [collect, bind_eq_ok, pure_eq_ok, mapM_eq_ok_iff] at hl ⊢
    obtain ⟨below, hbelow, rfl⟩ := hl
    exact ⟨below, hbelow.imp fun d m hm => ih (by omega) hm, rfl⟩

/-- Some limit is high enough for all nodes of a list when one is for each. -/
theorem exists_limit_forall {l : List κ}
    (hl : ∀ a ∈ l, ∃ limit m, collect tooDeep next limit a = .ok m) :
    ∃ limit, ∀ a ∈ l, ∃ m, collect tooDeep next limit a = .ok m := by
  induction l with
  | nil => exact ⟨0, by simp⟩
  | cons a l ih =>
    obtain ⟨⟨limit, m, hm⟩, hrest⟩ := List.forall_mem_cons.mp hl
    obtain ⟨limit', hlimit'⟩ := ih hrest
    refine ⟨max limit limit', List.forall_mem_cons.mpr ⟨⟨m, collect_mono (by omega) hm⟩, ?_⟩⟩
    intro b hb
    obtain ⟨m', hm'⟩ := hlimit' b hb
    exact ⟨m', collect_mono (by omega) hm'⟩

/-- Where every path ends, the walk returns. -/
theorem exists_collect_of_acc (tooDeep : ε) {a : κ} (ha : Acc (fun b a => Edge next a b) a) :
    ∃ limit l, collect tooDeep next limit a = .ok l := by
  induction ha with
  | intro a _ ih =>
    obtain ⟨limit, hlimit⟩ := exists_limit_forall ih
    obtain ⟨below, hbelow, _⟩ := mapM_total (Q := fun _ => True) fun d hd =>
      (hlimit d hd).imp fun m hm => ⟨trivial, hm⟩
    refine ⟨limit + 1, a :: below.flatten, ?_⟩
    rw [collect, hbelow]
    rfl

/-- A node from which every path ends is on no cycle. -/
theorem not_transGen_of_acc {a : κ} (ha : Acc (fun b a => Edge next a b) a) :
    ¬Relation.TransGen (Edge next) a a := by
  -- The first step of a cycle leads to a node on the same cycle.
  induction ha with
  | intro a _ ih =>
    intro hcycle
    obtain ⟨b, hab, hba⟩ := Relation.TransGen.head'_iff.mp hcycle
    exact ih b hab (Relation.TransGen.tail' hba hab)

/-- When all edges lead into a finite list of nodes, every path ends if no node of the list is on
a cycle. -/
theorem acc_of_acyclic {nodes : List κ} (hnodes : ∀ a b, Edge next a b → b ∈ nodes)
    (hacyclic : ∀ a ∈ nodes, ¬Relation.TransGen (Edge next) a a) (a : κ) :
    Acc (fun b a => Edge next a b) a := by
  let below (b a : { a // a ∈ nodes }) : Prop := Relation.TransGen (Edge next) a.val b.val
  have : IsTrans _ below := ⟨fun _ _ _ hba hcb => hcb.trans hba⟩
  have : Std.Irrefl below := ⟨fun a => hacyclic a.val a.property⟩
  have : Finite { a // a ∈ nodes } := (List.finite_toSet nodes)
  have hwf := Finite.wellFounded_of_trans_of_irrefl below
  have hinside : ∀ a : { a // a ∈ nodes }, Acc (fun b a => Edge next a b) a.val := by
    intro a
    induction a using hwf.induction with
    | _ a ih =>
      refine ⟨_, fun b hb => ih ⟨b, hnodes _ _ hb⟩ ?_⟩
      exact Relation.TransGen.single hb
  exact ⟨a, fun b hb => hinside ⟨b, hnodes a b hb⟩⟩

end Graphs
