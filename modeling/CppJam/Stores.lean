import Mathlib.Data.List.Induction

/-!
# The last write to an address

A store is written one address at a time: a write leaves its value at its own address
and changes no other. After any sequence of writes an address then holds what the last
write to it left, or what it held before.
-/

namespace Stores

variable {σ ω τ τ' ν : Type} [DecidableEq τ] [DecidableEq τ']

/-- The last write to an address. -/
def lastAt (address : ω → τ) (writes : List ω) (t : τ) : Option ω :=
  (writes.filter (fun w => address w = t)).getLast?

variable {address : ω → τ} {writes : List ω} {w : ω} {t : τ}

/-- The last write to an address is one of the writes and has this address. -/
theorem mem_of_lastAt (hlast : lastAt address writes t = some w) :
    w ∈ writes ∧ address w = t := by
  obtain ⟨hmem, haddress⟩ := List.mem_filter.mp (List.mem_of_getLast? hlast)
  exact ⟨hmem, of_decide_eq_true haddress⟩

/-- One more write is the last one to its address. -/
theorem lastAt_append_singleton (writes : List ω) (w : ω) (t : τ) :
    lastAt address (writes ++ [w]) t =
      if address w = t then some w else lastAt address writes t := by
  by_cases hw : address w = t
  · simp [lastAt, hw]
  · simp [lastAt, hw]

/-- Renaming the addresses apart keeps the last writes. -/
theorem lastAt_comp {f : τ → τ'} (hf : Function.Injective f) (address : ω → τ)
    (writes : List ω) (t : τ) :
    lastAt (fun w => f (address w)) writes (f t) = lastAt address writes t := by
  unfold lastAt
  simp only [hf.eq_iff]

/-- The last of some transformed writes is the transformed last one. -/
theorem lastAt_map {ω' : Type} (f : ω → ω') (address : ω' → τ) (writes : List ω) (t : τ) :
    lastAt address (writes.map f) t = (lastAt (fun w => address (f w)) writes t).map f := by
  unfold lastAt
  rw [List.filter_map, List.getLast?_map]
  rfl

/-- What the last write to an address left, or else what was there. -/
def left (address : ω → τ) (value : ω → Option ν) (writes : List ω) (t : τ)
    (before : Option ν) : Option ν :=
  ((lastAt address writes t).map value).getD before

/-- **The last write wins.** A store whose writes change their own address only holds, after
any sequence of writes, what the last write to each address left. -/
theorem read_foldl (read : σ → τ → Option ν) {step : σ → ω → σ} {value : ω → Option ν}
    (hstep : ∀ s w t, read (step s w) t = if address w = t then value w else read s t)
    (s : σ) (writes : List ω) (t : τ) :
    read (writes.foldl step s) t = left address value writes t (read s t) := by
  unfold left
  induction writes using List.reverseRecOn with
  | nil => rfl
  | append_singleton writes w ih =>
    rw [List.foldl_append, List.foldl_cons, List.foldl_nil, hstep, lastAt_append_singleton, ih]
    split_ifs with hw
    · rfl
    · rfl

end Stores
