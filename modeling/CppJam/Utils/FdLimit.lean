import CppJam.Bisection
import CppJam.Types
import Mathlib.Algebra.Group.Int.Defs
import Mathlib.Algebra.Group.Nat.Defs
import Mathlib.Order.Lattice

/-!
# The limit of open files

`fd_limit.cpp`: a limit that the system refuses is searched for by `std::upper_bound` between
the current limit and the one that was asked for, with a comparator that sets the limit. The
range is one of `boost::counting_iterator` over a 64-bit unsigned number. The distance of two such
iterators is computed by the library as a signed 64-bit number. It is a parameter with two laws:
it is right on one side of 2^63, and not positive, if it is defined, across 2^63. The search goes
on while the distance is positive, so the greatest limit that the system allows is found when the
distance is right, and there is no search for a request across 2^63.

The system is taken as one that grants exactly the soft limits up to a fixed one. A call that
is granted sets the limit, and getting the limit does not fail.
-/

namespace CppJam.Utils

open Bisection

/-- `rlimit`. -/
structure Rlimit where
  /-- The soft limit. -/
  rlimCur : UInt64
  /-- The hard limit. -/
  rlimMax : UInt64

/-- The limits of the process, and the soft limits that were granted to it in order. -/
structure System where
  /-- The current limits. -/
  limits : Rlimit
  /-- The soft limits of the calls that succeeded. -/
  granted : List UInt64

/-- `setrlimit`, by whether it succeeds: a system that grants the soft limits up to `greatest`. -/
def setrlimit (greatest : UInt64) (r : Rlimit) (s : System) : Bool × System :=
  if r.rlimCur ≤ greatest then (true, ⟨r, s.granted ++ [r.rlimCur]⟩) else (false, s)

/-- What is known of the distance of two counting iterators over 64-bit unsigned numbers, which is a
signed 64-bit number. -/
structure DistanceLaws (distance : UInt64 → UInt64 → Except Abort ℤ) : Prop where
  /-- It is right for numbers on one side of 2^63. -/
  same_side : ∀ {x y : UInt64}, x < y → y.toNat < 2 ^ 63 ∨ 2 ^ 63 ≤ x.toNat →
    distance x y = .ok (y.toNat - x.toNat : ℕ)
  /-- For numbers on both sides of 2^63 it is not positive, or it overflows. -/
  across : ∀ {x y : UInt64} {d : ℤ}, x.toNat < 2 ^ 63 → 2 ^ 63 ≤ y.toNat →
    distance x y = .ok d → d.toNat = 0

/-- The comparator of the search: it sets the limit and says whether that failed. -/
def probe (greatest : UInt64) (r : Rlimit) (newCurrent : ℕ) (s : System) : Bool × System :=
  let answer := setrlimit greatest { r with rlimCur := UInt64.ofNat newCurrent } s
  (!answer.1, answer.2)

section Distance

variable (distance : UInt64 → UInt64 → Except Abort ℤ)

/-- `setFdLimit`. -/
def setFdLimit (greatest limit : UInt64) (s : System) : Except Abort System :=
  let current := s.limits.rlimCur
  let r := { s.limits with rlimCur := limit }
  if limit = current then .ok s
  else if limit < current then .ok (setrlimit greatest r s).2
  else if (setrlimit greatest r s).1 then .ok (setrlimit greatest r s).2
  else do
    let len ← distance current limit
    return (upperBound (probe greatest r) current.toNat len.toNat (setrlimit greatest r s).2).2

/-- A process that has not changed its limits yet. -/
def System.initial (limits : Rlimit) : System := ⟨limits, []⟩

/-- What setting the limit should do: the limit becomes the one that was asked for or the greatest
one, and when that is less than what was asked for, it is the last one that was granted. -/
def LimitLaw (greatest limit : UInt64) (limits : Rlimit) : Prop :=
  ∃ after, setFdLimit distance greatest limit (System.initial limits) = .ok after ∧
    after.limits.rlimCur.toNat = min limit.toNat greatest.toNat ∧
    (greatest < limit → after.granted.getLast? = some greatest)

end Distance

variable {distance : UInt64 → UInt64 → Except Abort ℤ} {greatest limit : UInt64} {limits : Rlimit}

/-- A call for a limit that the system grants. -/
theorem setrlimit_granted {r : Rlimit} {s : System} (hr : r.rlimCur ≤ greatest) :
    setrlimit greatest r s = (true, ⟨r, s.granted ++ [r.rlimCur]⟩) :=
  if_pos hr

/-- A call for a limit that the system refuses. -/
theorem setrlimit_refused {r : Rlimit} {s : System} (hr : greatest < r.rlimCur) :
    setrlimit greatest r s = (false, s) :=
  if_neg (UInt64.not_le.mpr hr)

section Probes

variable {r : Rlimit} {s : System} {n : ℕ}

/-- A probe of a limit that the system grants. -/
theorem probe_granted (hn : n < 2 ^ 64) (hle : n ≤ greatest.toNat) :
    probe greatest r n s =
      (false, ⟨{ r with rlimCur := UInt64.ofNat n }, s.granted ++ [UInt64.ofNat n]⟩) := by
  have hgranted : UInt64.ofNat n ≤ greatest := by
    rwa [UInt64.le_iff_toNat_le, UInt64.toNat_ofNat_of_lt' hn]
  rw [probe, setrlimit_granted hgranted]
  rfl

/-- A probe of a limit that the system refuses. -/
theorem probe_refused (hn : n < 2 ^ 64) (hlt : greatest.toNat < n) :
    probe greatest r n s = (true, s) := by
  have hrefused : greatest < UInt64.ofNat n := by
    rwa [UInt64.lt_iff_toNat_lt, UInt64.toNat_ofNat_of_lt' hn]
  rw [probe, setrlimit_refused hrefused]
  rfl

end Probes

/-- The comparator tells the limits that are granted from the others, and a refused call changes
nothing. -/
theorem probe_bounded (greatest : UInt64) (r : Rlimit) :
    Bounded (probe greatest r) greatest.toNat (2 ^ 64) := by
  constructor
  · intro n s hn
    by_cases hbehind : greatest.toNat < n
    · rw [probe_refused hn hbehind, decide_eq_true hbehind]
    · rw [probe_granted hn (by omega), decide_eq_false hbehind]
  · intro n s hn hbehind
    rw [probe_refused hn hbehind]

/-- A limit that the system allows is set. -/
theorem limitLaw_of_le (hlimit : limit ≤ greatest) :
    LimitLaw distance greatest limit limits := by
  have hmin : limit.toNat = min limit.toNat greatest.toNat := by
    have hle := UInt64.le_iff_toNat_le.mp hlimit
    omega
  have hnot : ¬greatest < limit := UInt64.not_lt.mpr hlimit
  have hgranted : ∀ s, setrlimit greatest { limits with rlimCur := limit } s =
      (true, ⟨{ limits with rlimCur := limit }, s.granted ++ [limit]⟩) :=
    fun s => setrlimit_granted hlimit
  by_cases hsame : limit = limits.rlimCur
  · refine ⟨System.initial limits, if_pos hsame, ?_, fun hlt => absurd hlt hnot⟩
    rw [← hmin, hsame]
    rfl
  · refine ⟨⟨{ limits with rlimCur := limit }, [limit]⟩, ?_, hmin, fun hlt => absurd hlt hnot⟩
    have hstart : (System.initial limits).limits = limits := rfl
    simp only [setFdLimit, hstart, if_neg hsame, hgranted, if_true, ite_self]
    rfl

/-- A limit that the system refuses is searched for. -/
theorem setFdLimit_refused (hcurrent : limits.rlimCur ≤ greatest) (hlimit : greatest < limit) :
    setFdLimit distance greatest limit (System.initial limits) = do
      let len ← distance limits.rlimCur limit
      return (upperBound (probe greatest { limits with rlimCur := limit })
        limits.rlimCur.toNat len.toNat (System.initial limits)).2 := by
  have hlt : limits.rlimCur < limit := UInt64.lt_of_le_of_lt hcurrent hlimit
  have hsame : ¬limit = limits.rlimCur := fun h => UInt64.lt_irrefl _ (h ▸ hlt)
  have hlower : ¬limit < limits.rlimCur := UInt64.lt_asymm hlt
  have hstart : (System.initial limits).limits = limits := rfl
  have hrefused : ∀ s, setrlimit greatest { limits with rlimCur := limit } s = (false, s) :=
    fun s => setrlimit_refused hlimit
  simp only [setFdLimit, hstart, if_neg hsame, if_neg hlower, hrefused, Bool.false_eq_true,
    if_false]

/-- A search with the right distance ends with the greatest limit that is allowed. -/
theorem limitLaw_of_side (hlaws : DistanceLaws distance) (hcurrent : limits.rlimCur ≤ greatest)
    (hlimit : greatest < limit) (hside : limit.toNat < 2 ^ 63 ∨ 2 ^ 63 ≤ limits.rlimCur.toNat) :
    LimitLaw distance greatest limit limits := by
  have hlow := UInt64.le_iff_toNat_le.mp hcurrent
  have hhigh := UInt64.lt_iff_toNat_lt.mp hlimit
  have hlt := limit.toNat_lt
  have hdistance := hlaws.same_side (UInt64.lt_of_le_of_lt hcurrent hlimit) hside
  have hbounded := probe_bounded greatest { limits with rlimCur := limit }
  obtain ⟨s, hsearch⟩ := hbounded.upperBound_across (s := System.initial limits) hlow
    (show greatest.toNat < limits.rlimCur.toNat + (limit.toNat - limits.rlimCur.toNat) by omega)
    (by omega)
  rw [probe_granted (by omega) le_rfl, UInt64.ofNat_toNat] at hsearch
  refine ⟨⟨{ limits with rlimCur := greatest }, s.granted ++ [greatest]⟩, ?_, ?_, ?_⟩
  · rw [setFdLimit_refused hcurrent hlimit, hdistance]
    exact congrArg Except.ok hsearch
  · have hmin : min limit.toNat greatest.toNat = greatest.toNat := by omega
    exact hmin.symm
  · intro _
    exact List.getLast?_concat

/-- A search with a distance that is not positive is none. -/
theorem not_limitLaw_of_across (hlaws : DistanceLaws distance)
    (hcurrent : limits.rlimCur ≤ greatest) (hlimit : greatest < limit)
    (hx : limits.rlimCur.toNat < 2 ^ 63) (hy : 2 ^ 63 ≤ limit.toNat) :
    ¬LimitLaw distance greatest limit limits := by
  rintro ⟨after, hset, _, hlast⟩
  rw [setFdLimit_refused hcurrent hlimit] at hset
  cases hdistance : distance limits.rlimCur limit with
  | error e => simp [hdistance, Bind.bind, Except.bind] at hset
  | ok d =>
    have hzero := hlaws.across hx hy hdistance
    rw [hdistance] at hset
    have hafter : after = System.initial limits := by
      have hvalue := Except.ok.inj hset
      rw [hzero, upperBound, if_pos rfl] at hvalue
      exact hvalue.symm
    have hnone := hlast hlimit
    rw [hafter] at hnone
    exact absurd hnone (by simp [System.initial])

/-- **Setting the limit of open files.** On a system that grants the limits up to a fixed one, not
less than the current one, the limit becomes the one that was asked for or the greatest one,
which is then the last one granted, exactly when the one that was asked for is allowed or lies
on the same side of 2^63 as the current one. -/
theorem limitLaw_iff (hlaws : DistanceLaws distance) (hcurrent : limits.rlimCur ≤ greatest) :
    LimitLaw distance greatest limit limits ↔
      limit ≤ greatest ∨ limit.toNat < 2 ^ 63 ∨ 2 ^ 63 ≤ limits.rlimCur.toNat := by
  by_cases hlimit : limit ≤ greatest
  · exact iff_of_true (limitLaw_of_le hlimit) (Or.inl hlimit)
  · have hgreater : greatest < limit := UInt64.not_le.mp hlimit
    constructor
    · intro hlaw
      by_contra hside
      have hacross : limits.rlimCur.toNat < 2 ^ 63 ∧ 2 ^ 63 ≤ limit.toNat := by
        push Not at hside
        exact ⟨hside.2.2, hside.2.1⟩
      exact not_limitLaw_of_across hlaws hcurrent hgreater hacross.1 hacross.2 hlaw
    · rintro (hle | hside)
      · exact absurd hle hlimit
      · exact limitLaw_of_side hlaws hcurrent hgreater hside

/-! ## The difference as signed numbers -/

/-- The conversion of a 64-bit unsigned number to a signed one. -/
def differenceType (x : UInt64) : ℤ := if x.toNat < 2 ^ 63 then x.toNat else x.toNat - 2 ^ 64

/-- The distance of two counting iterators, whose overflow is undefined. -/
def numericDistance (x y : UInt64) : Except Abort ℤ :=
  if -2 ^ 63 ≤ differenceType y - differenceType x ∧ differenceType y - differenceType x < 2 ^ 63
  then .ok (differenceType y - differenceType x)
  else .error .undefinedBehaviour

/-- The difference of two numbers as signed ones keeps the laws. -/
theorem distanceLaws_numericDistance : DistanceLaws numericDistance where
  same_side {x y} hxy hside := by
    have hlt := UInt64.lt_iff_toNat_lt.mp hxy
    have hy := y.toNat_lt
    have hvalue : differenceType y - differenceType x = (y.toNat - x.toNat : ℕ) := by
      unfold differenceType
      split_ifs <;> omega
    rw [numericDistance, hvalue, if_pos (by omega)]
  across {x y d} hx hy hd := by
    have hylt := y.toNat_lt
    unfold numericDistance at hd
    split_ifs at hd
    cases hd
    unfold differenceType
    rw [if_neg (by omega), if_pos hx]
    omega

/-- A limit of 65536 is asked for, and 4096 are allowed: the limit becomes 4096. -/
theorem limitLaw_iff_search :
    DistanceLaws numericDistance ∧ (1024 : UInt64) ≤ 4096 ∧
      LimitLaw numericDistance 4096 65536 ⟨1024, 4096⟩ := by
  refine ⟨distanceLaws_numericDistance, by decide, ?_⟩
  exact (limitLaw_iff distanceLaws_numericDistance (by decide)).mpr (Or.inr (Or.inl (by decide)))

/-- As many open files as possible are asked for, and the limit stays where it was. -/
theorem not_limitLaw_sizeMax :
    setFdLimit numericDistance 4096 18446744073709551615 (System.initial ⟨1024, 4096⟩) =
        .ok (System.initial ⟨1024, 4096⟩) ∧
      ¬LimitLaw numericDistance 4096 18446744073709551615 ⟨1024, 4096⟩ := by
  have hdistance : numericDistance 1024 18446744073709551615 = .ok (-1025) := rfl
  have hset :
      setFdLimit numericDistance 4096 18446744073709551615 (System.initial ⟨1024, 4096⟩) =
      .ok (System.initial ⟨1024, 4096⟩) := by
    rw [setFdLimit_refused (by decide) (by decide), hdistance]
    refine congrArg Except.ok ?_
    rw [show (-1025 : ℤ).toNat = 0 from rfl, upperBound, if_pos rfl]
  refine ⟨hset, ?_⟩
  rintro ⟨after, hafter, _, hlast⟩
  obtain rfl := Except.ok.inj (hset.symm.trans hafter)
  exact absurd (hlast (by decide)) (by simp [System.initial])

end CppJam.Utils
