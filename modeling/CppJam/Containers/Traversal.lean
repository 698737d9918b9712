import Mathlib.Data.List.Nodup
import Mathlib.Order.Defs.Unbundled

/-!
# Walking through a content that changes

A walk visits the entries of a content one after the other in a given order of the
keys: it starts at the first entry and moves on from a key to the nearest entry
behind it. The content may change between two moves, also at the key on which the
walk stands. The visited keys then still go up, and a key that is there all the
time is not passed over. The order is any strict total order, so the same rules
hold for a walk backwards.
-/

namespace Containers

variable {κ ν : Type} {r : κ → κ → Prop}

/-- The entry of a content whose key comes first in the order `r` among the admitted keys;
no entry when none of its keys is admitted. -/
def Nearest (r : κ → κ → Prop) (content : κ → Option ν) (admitted : κ → Prop) :
    Option (κ × ν) → Prop
  | some (k, v) => content k = some v ∧ admitted k ∧
      ∀ k' v', content k' = some v' → admitted k' → k' = k ∨ r k k'
  | none => ∀ k v, content k = some v → ¬admitted k

/-- Only what is admitted of the content matters. -/
theorem Nearest.congr {content : κ → Option ν} {A B : κ → Prop}
    (hAB : ∀ k v, content k = some v → (A k ↔ B k)) {e : Option (κ × ν)}
    (he : Nearest r content A e) : Nearest r content B e := by
  match e, he with
  | some (k, v), ⟨hk, hadmitted, hfirst⟩ =>
    refine ⟨hk, (hAB k v hk).mp hadmitted, ?_⟩
    intro k' v' hk' hadmitted'
    exact hfirst k' v' hk' ((hAB k' v' hk').mpr hadmitted')
  | none, hnone =>
    intro k v hk hadmitted
    exact hnone k v hk ((hAB k v hk).mpr hadmitted)

/-- There is one nearest entry, when no key comes before itself and after another. -/
theorem Nearest.unique (hasymm : ∀ a b, r a b → ¬r b a) {content : κ → Option ν} {A : κ → Prop}
    {e e' : Option (κ × ν)} (he : Nearest r content A e) (he' : Nearest r content A e') :
    e = e' := by
  match e, e', he, he' with
  | none, none, _, _ => rfl
  | none, some (k, v), hnone, ⟨hk, hadmitted, _⟩ => exact absurd hadmitted (hnone k v hk)
  | some (k, v), none, ⟨hk, hadmitted, _⟩, hnone => exact absurd hadmitted (hnone k v hk)
  | some (k, v), some (k', v'), ⟨hk, hadmitted, hfirst⟩, ⟨hk', hadmitted', hfirst'⟩ =>
    have hkeys : k' = k := by
      rcases hfirst k' v' hk' hadmitted' with heq | hlt
      · exact heq
      · rcases hfirst' k v hk hadmitted with heq | hgt
        · exact heq.symm
        · exact absurd hgt (hasymm _ _ hlt)
    subst hkeys
    rw [hk] at hk'
    cases hk'
    rfl

/-- The first listed entry with an admitted key is the nearest one, if the entries are listed
in the order of their keys. -/
theorem nearest_find? {l : List (κ × ν)} (hsorted : l.Pairwise (fun a b => r a.1 b.1))
    {content : κ → Option ν} (hcontent : ∀ k v, content k = some v ↔ (k, v) ∈ l) (p : κ → Bool) :
    Nearest r content (fun k => p k = true) (l.find? (fun e => p e.1)) := by
  cases hfind : l.find? (fun e => p e.1) with
  | none =>
    intro k v hk hp
    exact List.find?_eq_none.mp hfind _ ((hcontent k v).mp hk) hp
  | some e =>
    obtain ⟨k, v⟩ := e
    obtain ⟨hp, front, back, rfl, hfront⟩ := List.find?_eq_some_iff_append.mp hfind
    refine ⟨(hcontent k v).mpr (by simp), hp, ?_⟩
    intro k' v' hk' hp'
    rcases List.mem_append.mp ((hcontent k' v').mp hk') with hmem | hmem
    · exact absurd hp' (by simpa using hfront _ hmem)
    · rcases List.mem_cons.mp hmem with heq | hback
      · exact Or.inl (congrArg Prod.fst heq)
      · exact Or.inr (List.rel_of_pairwise_cons (List.pairwise_append.mp hsorted).2.1 hback)

/-- The first listed entry is the nearest one of all. -/
theorem nearest_head? {l : List (κ × ν)} (hsorted : l.Pairwise (fun a b => r a.1 b.1))
    {content : κ → Option ν} (hcontent : ∀ k v, content k = some v ↔ (k, v) ∈ l) :
    Nearest r content (fun _ => True) l.head? := by
  have hhead : l.find? (fun _ => true) = l.head? := by
    cases l <;> rfl
  rw [← hhead]
  exact (nearest_find? hsorted hcontent (fun _ => true)).congr fun _ _ _ => by simp

/-- Keys that are kept under other names in the same order have the same nearest entry. -/
theorem Nearest.of_renamed {κ' : Type} {r' : κ' → κ' → Prop} {f : κ → κ'}
    (hinj : Function.Injective f) (hf : ∀ a b, r' (f a) (f b) ↔ r a b)
    {content : κ' → Option ν} {A : κ' → Prop} {e : Option (κ × ν)}
    (he : Nearest r' content A (e.map (Prod.map f id))) :
    Nearest r (fun k => content (f k)) (fun k => A (f k)) e := by
  match e, he with
  | some (k, v), ⟨hk, hadmitted, hfirst⟩ =>
    refine ⟨hk, hadmitted, ?_⟩
    intro k' v' hk' hadmitted'
    exact (hfirst _ v' hk' hadmitted').imp (fun heq => hinj heq) (hf k k').mp
  | none, hnone =>
    intro k v hk
    exact hnone _ v hk

/-- What a walk leaves behind: the visited keys go up, the last of them is the position, and
every kept key was visited or lies ahead. -/
structure Walked (r : κ → κ → Prop) (kept : κ → Prop) (position : Option (κ × ν))
    (visited : List (κ × ν)) : Prop where
  sorted : visited.Pairwise (fun a b => r a.1 b.1)
  last : ∀ e, position = some e → ∃ front, visited = front ++ [e]
  covered : ∀ k, kept k → k ∈ visited.map Prod.fst ∨ ∃ e, position = some e ∧ r e.1 k

variable {kept kept' : κ → Prop} {content : κ → Option ν} {visited : List (κ × ν)}
  {e : Option (κ × ν)}

/-- A walk that covers some keys covers fewer. -/
theorem Walked.mono (hwalked : Walked r kept e visited) (hkept : ∀ k, kept' k → kept k) :
    Walked r kept' e visited :=
  ⟨hwalked.sorted, hwalked.last, fun k hk => hwalked.covered k (hkept k hk)⟩

/-- A key of the content is the nearest one or behind it. -/
theorem Nearest.covered {A : κ → Prop} (he : Nearest r content A e) {k : κ}
    (hk : content k ≠ none) (hadmitted : A k) :
    k ∈ e.toList.map Prod.fst ∨ ∃ e', e = some e' ∧ r e'.1 k := by
  obtain ⟨v, hv⟩ := Option.ne_none_iff_exists'.mp hk
  match e, he with
  | some (k', v'), ⟨_, _, hfirst⟩ =>
    rcases hfirst k v hv hadmitted with rfl | hr
    · exact Or.inl (by simp)
    · exact Or.inr ⟨_, rfl, hr⟩
  | none, hnone => exact absurd hadmitted (hnone k v hv)

/-- A walk starts at the first entry. -/
theorem Walked.start (he : Nearest r content (fun _ => True) e)
    (hkept : ∀ k, kept k → content k ≠ none) : Walked r kept e e.toList := by
  refine ⟨?_, ?_, fun k hk => he.covered (hkept k hk) trivial⟩
  · cases e <;> simp
  · rintro e' rfl
    exact ⟨[], rfl⟩

/-- A move to the nearest entry behind the position continues a walk. -/
theorem Walked.advance [IsTrans κ r] {k : κ} {v : ν}
    (hwalked : Walked r kept (some (k, v)) visited) (he : Nearest r content (r k) e)
    (hkept : ∀ k, kept k → content k ≠ none) : Walked r kept e (visited ++ e.toList) := by
  obtain ⟨front, rfl⟩ := hwalked.last _ rfl
  refine ⟨?_, ?_, ?_⟩
  · match e, he with
    | none, _ => simpa using hwalked.sorted
    | some (k', v'), ⟨_, hbehind, _⟩ =>
      -- all visited keys are at or before the position, and the new one is behind it
      refine List.pairwise_append.mpr ⟨hwalked.sorted, by simp, ?_⟩
      intro a ha b hb
      obtain rfl : b = (k', v') := by simpa using hb
      rcases List.mem_append.mp ha with hfront | hlast
      · have hak : r a.1 k := (List.pairwise_append.mp hwalked.sorted).2.2 a hfront (k, v) (by simp)
        exact Trans.trans hak hbehind
      · obtain rfl : a = (k, v) := by simpa using hlast
        exact hbehind
  · rintro e' rfl
    exact ⟨_, rfl⟩
  · intro k' hk'
    rw [List.map_append, List.mem_append]
    rcases hwalked.covered k' hk' with hvisited | ⟨_, hposition, hahead⟩
    · exact Or.inl (Or.inl hvisited)
    · cases hposition
      exact (he.covered (hkept k' hk') hahead).imp_left Or.inr

/-- No key is visited twice. -/
theorem Walked.nodup [Std.Irrefl r] (hwalked : Walked r kept e visited) :
    (visited.map Prod.fst).Nodup := by
  refine List.pairwise_map.mpr (hwalked.sorted.imp ?_)
  rintro a b hab heq
  rw [heq] at hab
  exact Std.Irrefl.irrefl _ hab

/-- When the walk is over, every kept key was visited exactly once. -/
theorem Walked.once [DecidableEq κ] [Std.Irrefl r] (hwalked : Walked r kept none visited)
    {k : κ} (hk : kept k) : (visited.filter (fun e => e.1 = k)).length = 1 := by
  have hmem : k ∈ visited.map Prod.fst := by
    rcases hwalked.covered k hk with hmem | ⟨_, hnone, _⟩
    · exact hmem
    · cases hnone
  have hcount := List.count_eq_one_of_mem hwalked.nodup hmem
  rw [List.count, List.countP_map, List.countP_eq_length_filter] at hcount
  rw [← hcount]
  congr 1

end Containers
