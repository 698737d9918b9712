import Mathlib.Tactic.SplitIfs
import Mathlib.Data.Nat.Notation

/-!
# Binary search with effects

An upper bound is searched by halving a range of positions. The comparator may have effects,
and what a search is made for may be its effects rather than the position that it returns.
When a comparator accepts the positions up to a bound and has no effect on the others, the
last effect of the search is that of the bound.
-/

namespace Bisection

variable {σ : Type}

/-- The search of `std::upper_bound` in the `len` positions from `first` on. The comparator says
whether the position lies behind the place that is searched for. -/
def upperBound (comp : ℕ → σ → Bool × σ) (first len : ℕ) (s : σ) : ℕ × σ :=
  if len = 0 then (first, s)
  else if (comp (first + len / 2) s).1 then
    upperBound comp first (len / 2) (comp (first + len / 2) s).2
  else
    upperBound comp (first + len / 2 + 1) (len - len / 2 - 1) (comp (first + len / 2) s).2
termination_by len

/-- Before position `stop` a comparator accepts the positions up to a bound and has no effect on
the others. -/
structure Bounded (comp : ℕ → σ → Bool × σ) (bound stop : ℕ) : Prop where
  /-- The positions behind the bound are told from the others. -/
  fst_eq : ∀ n s, n < stop → (comp n s).1 = decide (bound < n)
  /-- There is no effect on a position behind the bound. -/
  snd_eq : ∀ n s, n < stop → bound < n → (comp n s).2 = s

variable {comp : ℕ → σ → Bool × σ} {bound stop : ℕ}

/-- A search behind the bound has no effect. -/
theorem Bounded.upperBound_behind (hcomp : Bounded comp bound stop) {first len : ℕ} {s : σ}
    (hfirst : bound < first) (hstop : first + len ≤ stop) :
    (upperBound comp first len s).2 = s := by
  fun_induction upperBound comp first len s with
  | case1 => rfl
  | case2 first len s hlen hbehind ih =>
    rw [ih hfirst (by omega), hcomp.snd_eq _ _ (by omega) (by omega)]
  | case3 first len s hlen haccepted ih =>
    rw [hcomp.fst_eq _ _ (by omega)] at haccepted
    exact absurd (show bound < first + len / 2 by omega) (by simpa using haccepted)

/-- The last effect of a search across the bound is that of the bound. -/
theorem Bounded.upperBound_across (hcomp : Bounded comp bound stop) {first len : ℕ} {s : σ}
    (hfirst : first ≤ bound) (hlast : bound < first + len) (hstop : first + len ≤ stop) :
    ∃ s', (upperBound comp first len s).2 = (comp bound s').2 := by
  fun_induction upperBound comp first len s with
  | case1 first s => omega
  | case2 first len s hlen hbehind ih =>
    rw [hcomp.fst_eq _ _ (by omega), decide_eq_true_iff] at hbehind
    exact ih hfirst hbehind (by omega)
  | case3 first len s hlen haccepted ih =>
    rw [hcomp.fst_eq _ _ (by omega)] at haccepted
    have hmiddle : ¬bound < first + len / 2 := by simpa using haccepted
    by_cases hbound : first + len / 2 + 1 ≤ bound
    · exact ih hbound (by omega) (by omega)
    · -- the bound itself was accepted, and all that is left is behind it
      have hreached : first + len / 2 = bound := by omega
      refine ⟨s, ?_⟩
      rw [hcomp.upperBound_behind (by omega) (by omega), hreached]

end Bisection
