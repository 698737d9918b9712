import Mathlib.Data.List.Range
import Mathlib.Data.Nat.Find
import Mathlib.Order.Lattice
import Mathlib.Tactic.SplitIfs

/-!
# Search for a free port

`tuner.cpp`: the acceptor is constructed on the endpoint that was asked for; when its port is
in use, the next one is tried, as often as the tolerance allows. The port is a 16-bit number
that wraps: behind the greatest port comes port 0, for which the system takes any free port.
The search does what it should unless it goes beyond the greatest port.
-/

namespace CppJam.Api

/-- The code of a `boost::system::system_error`. -/
inductive ErrorCode where
  | addressInUse
  /-- Any other error. -/
  | other (value : ℕ)
  deriving DecidableEq

/-- The ports of the address of the endpoint, as the operating system manages them. -/
structure Ports where
  /-- The port is in use. -/
  inUse : UInt16 → Bool
  /-- The port that the system takes for a request of port 0, if one is left. -/
  ephemeral : Option UInt16
  /-- It takes a free port. -/
  ephemeral_free : ∀ port ∈ ephemeral, port ≠ 0 ∧ inUse port = false

/-- The constructor of `Acceptor`: the port that it is bound to, or the code of the exception. -/
def Ports.acceptor (ports : Ports) (port : UInt16) : Except ErrorCode UInt16 :=
  if port = 0 then
    match ports.ephemeral with
    | some chosen => .ok chosen
    | none => .error .addressInUse
  else if ports.inUse port then .error .addressInUse
  else .ok port

/-- What a search does: the ports of its attempts in order, and the port of the acceptor that it
returns or the code of the exception that it throws. -/
structure Search where
  /-- The ports of the attempts. -/
  attempts : List UInt16
  /-- How the search ends. -/
  result : Except ErrorCode UInt16

/-- The loop of `acceptOnFreePort`. The tolerance goes down by one with every further round, so
the loop ends. -/
def tryPorts (acceptor : UInt16 → Except ErrorCode UInt16) (port : UInt16) : ℕ → Search
  | 0 => ⟨[port], acceptor port⟩
  | tolerance + 1 =>
      match acceptor port with
      | .ok bound => ⟨[port], .ok bound⟩
      | .error .addressInUse =>
          let rest := tryPorts acceptor (port + 1) tolerance
          ⟨port :: rest.attempts, rest.result⟩
      | .error (.other value) => ⟨[port], .error (.other value)⟩

/-- `acceptOnFreePort`. -/
def acceptOnFreePort (acceptor : UInt16 → Except ErrorCode UInt16) (port portTolerance : UInt16) :
    Search :=
  tryPorts acceptor port portTolerance.toNat

/-- `kDefaultPortTolerance`. -/
def kDefaultPortTolerance : UInt16 := 10

/-- The ports that a search may try. -/
def Candidate (port portTolerance q : UInt16) : Prop :=
  port.toNat ≤ q.toNat ∧ q.toNat ≤ min (port.toNat + portTolerance.toNat) 65535

/-- What a search should do. -/
structure SearchLaw (ports : Ports) (port portTolerance : UInt16) : Prop where
  /-- There is at most one attempt more than the tolerance. -/
  attempts_le : (acceptOnFreePort ports.acceptor port portTolerance).attempts.length ≤
    portTolerance.toNat + 1
  /-- The attempts go up from the port by one. -/
  attempts_eq : (acceptOnFreePort ports.acceptor port portTolerance).attempts.map UInt16.toNat =
    List.range' port.toNat (acceptOnFreePort ports.acceptor port portTolerance).attempts.length
  /-- They are made on candidates only. -/
  candidate : ∀ q ∈ (acceptOnFreePort ports.acceptor port portTolerance).attempts,
    Candidate port portTolerance q
  /-- The acceptor is bound to the least free candidate. -/
  found : ∀ q, Candidate port portTolerance q → ports.inUse q = false →
    (∀ r, port.toNat ≤ r.toNat → r.toNat < q.toNat → ports.inUse r = true) →
      (acceptOnFreePort ports.acceptor port portTolerance).result = .ok q
  /-- The exception is thrown again when no candidate is free. -/
  refused : (∀ q, Candidate port portTolerance q → ports.inUse q = true) →
    (acceptOnFreePort ports.acceptor port portTolerance).result = .error .addressInUse

/-! ## Ports in a row -/

variable {ports : Ports} {port portTolerance : UInt16}

/-- The ports from a given one on, one after the other. -/
def consecutive (port : UInt16) (n : ℕ) : List UInt16 :=
  (List.range n).map fun k => port + UInt16.ofNat k

/-- A port further on. -/
theorem toNat_add_ofNat (port : UInt16) (n : ℕ) :
    (port + UInt16.ofNat n).toNat = (port.toNat + n) % 65536 := by
  simp [UInt16.toNat_add, UInt16.toNat_ofNat']

/-- Two ports that are the same number are the same. -/
theorem add_ofNat_eq {q : UInt16} {n : ℕ} (hq : q.toNat = port.toNat + n) :
    port + UInt16.ofNat n = q := by
  have hlt := q.toNat_lt
  apply UInt16.toNat_inj.mp
  rw [toNat_add_ofNat]
  omega

/-- The port behind a port further on. -/
theorem add_one_add_ofNat (port : UInt16) (n : ℕ) :
    port + 1 + UInt16.ofNat n = port + UInt16.ofNat (n + 1) := by
  apply UInt16.toNat_inj.mp
  have hnext : (port + 1).toNat = (port.toNat + 1) % 65536 := UInt16.toNat_add port 1
  rw [toNat_add_ofNat, toNat_add_ofNat, hnext]
  omega

/-- Ports in a row, the last one apart. -/
theorem consecutive_succ (port : UInt16) (n : ℕ) :
    consecutive port (n + 1) = consecutive port n ++ [port + UInt16.ofNat n] := by
  simp [consecutive, List.range_succ]

/-- Ports in a row, the first one apart. -/
theorem consecutive_succ' (port : UInt16) (n : ℕ) :
    consecutive port (n + 1) = port :: consecutive (port + 1) n := by
  rw [consecutive, consecutive, List.range_succ_eq_map, List.map_cons, List.map_map]
  refine List.cons_eq_cons.mpr ⟨UInt16.add_zero port, ?_⟩
  refine List.map_congr_left fun k _ => ?_
  exact (add_one_add_ofNat port k).symm

/-- Ports in a row up to the greatest one. -/
theorem map_toNat_consecutive {n : ℕ} (hn : port.toNat + n ≤ 65536) :
    (consecutive port n).map UInt16.toNat = List.range' port.toNat n := by
  rw [List.range'_eq_map_range, consecutive, List.map_map]
  refine List.map_congr_left fun k hk => ?_
  have hk := List.mem_range.mp hk
  rw [Function.comp_apply, toNat_add_ofNat]
  omega

/-! ## Attempts -/

/-- An attempt on a port in use fails. -/
theorem Ports.acceptor_of_inUse {q : UInt16} (hq : q ≠ 0) (huse : ports.inUse q = true) :
    ports.acceptor q = .error .addressInUse := by
  rw [Ports.acceptor, if_neg hq, if_pos huse]

/-- An attempt on a free port succeeds. -/
theorem Ports.acceptor_of_free {q : UInt16} (hq : q ≠ 0) (hfree : ports.inUse q = false) :
    ports.acceptor q = .ok q := by
  rw [Ports.acceptor, if_neg hq, if_neg (by simp [hfree])]

/-- Ports in use are passed over one after the other, and the search goes on behind them. -/
theorem tryPorts_skip {acceptor : UInt16 → Except ErrorCode UInt16} {n tolerance : ℕ}
    (hlast : port.toNat + n ≤ 65536) (hn : n ≤ tolerance)
    (huse : ∀ q : UInt16, port.toNat ≤ q.toNat → q.toNat < port.toNat + n →
      acceptor q = .error .addressInUse) :
    (tryPorts acceptor port tolerance).attempts = consecutive port n ++
        (tryPorts acceptor (port + UInt16.ofNat n) (tolerance - n)).attempts ∧
      (tryPorts acceptor port tolerance).result =
        (tryPorts acceptor (port + UInt16.ofNat n) (tolerance - n)).result := by
  induction n generalizing port tolerance with
  | zero => simp [consecutive]
  | succ n ih =>
    obtain ⟨tolerance, rfl⟩ := Nat.exists_eq_succ_of_ne_zero (by omega : tolerance ≠ 0)
    have hfirst := huse port le_rfl (by omega)
    have hnext : (port + 1).toNat = (port.toNat + 1) % 65536 := UInt16.toNat_add port 1
    have hrest := @ih (port + 1) tolerance (by omega) (by omega)
      fun q hlow hhigh => huse q (by omega) (by omega)
    rw [add_one_add_ofNat] at hrest
    rw [consecutive_succ', Nat.succ_sub_succ]
    simp only [tryPorts, hfirst]
    exact ⟨congrArg (port :: ·) hrest.1, hrest.2⟩

/-- A search ends with the first attempt that succeeds. -/
theorem tryPorts_of_ok {acceptor : UInt16 → Except ErrorCode UInt16} {bound : UInt16}
    (hport : acceptor port = .ok bound) (tolerance : ℕ) :
    tryPorts acceptor port tolerance = ⟨[port], .ok bound⟩ := by
  cases tolerance with
  | zero => rw [tryPorts, hport]
  | succ tolerance => simp only [tryPorts, hport]

/-- A search tries the port that it starts with. -/
theorem mem_attempts_tryPorts (acceptor : UInt16 → Except ErrorCode UInt16) (port : UInt16)
    (tolerance : ℕ) : port ∈ (tryPorts acceptor port tolerance).attempts := by
  cases tolerance with
  | zero => exact List.mem_singleton_self port
  | succ tolerance =>
    rw [tryPorts]
    split
    · exact List.mem_singleton_self port
    · exact List.mem_cons_self
    · exact List.mem_singleton_self port

/-- The ports from a given one on are not port 0. -/
theorem ne_zero_of_le {q : UInt16} (hport : port ≠ 0) (hq : port.toNat ≤ q.toNat) : q ≠ 0 := by
  rintro rfl
  have hzero : port.toNat = 0 := Nat.le_zero.mp hq
  exact hport (UInt16.toNat_inj.mp hzero)

/-- When the ports before a free candidate are in use, the search tries them and the candidate,
and binds the acceptor to it. -/
theorem acceptOnFreePort_of_free {q : UInt16} (hport : port ≠ 0)
    (hq : Candidate port portTolerance q) (hfree : ports.inUse q = false)
    (huse : ∀ r : UInt16, port.toNat ≤ r.toNat → r.toNat < q.toNat → ports.inUse r = true) :
    (acceptOnFreePort ports.acceptor port portTolerance).attempts =
        consecutive port (q.toNat - port.toNat + 1) ∧
      (acceptOnFreePort ports.acceptor port portTolerance).result = .ok q := by
  obtain ⟨hlow, hhigh⟩ := hq
  have hskip := @tryPorts_skip port ports.acceptor (q.toNat - port.toNat) portTolerance.toNat
    (by omega) (by omega) fun r hr hlt =>
      Ports.acceptor_of_inUse (ne_zero_of_le hport hr) (huse r hr (by omega))
  have hreached : port + UInt16.ofNat (q.toNat - port.toNat) = q := add_ofNat_eq (by omega)
  have hbound := Ports.acceptor_of_free (ne_zero_of_le hport hlow) hfree
  rw [hreached, tryPorts_of_ok hbound] at hskip
  rw [consecutive_succ, hreached]
  exact hskip

/-- When all candidates are in use and the tolerance ends at the greatest port or before, the
search tries them all and throws the exception again. -/
theorem acceptOnFreePort_of_inUse (hport : port ≠ 0)
    (hlast : port.toNat + portTolerance.toNat ≤ 65535)
    (huse : ∀ q, Candidate port portTolerance q → ports.inUse q = true) :
    (acceptOnFreePort ports.acceptor port portTolerance).attempts =
        consecutive port (portTolerance.toNat + 1) ∧
      (acceptOnFreePort ports.acceptor port portTolerance).result = .error .addressInUse := by
  have hfails : ∀ q : UInt16, port.toNat ≤ q.toNat →
      q.toNat < port.toNat + (portTolerance.toNat + 1) →
        ports.acceptor q = .error .addressInUse := by
    intro q hlow hhigh
    exact Ports.acceptor_of_inUse (ne_zero_of_le hport hlow) (huse q ⟨hlow, by omega⟩)
  have hskip := @tryPorts_skip port ports.acceptor portTolerance.toNat portTolerance.toNat
    (by omega) le_rfl fun r hr hlt => hfails r hr (by omega)
  have hreached := toNat_add_ofNat port portTolerance.toNat
  have hend := hfails (port + UInt16.ofNat portTolerance.toNat) (by omega) (by omega)
  rw [Nat.sub_self, tryPorts, hend] at hskip
  rw [consecutive_succ]
  exact hskip

/-- When all ports up to the greatest one are in use and the tolerance goes further, the search
tries port 0. -/
theorem zero_mem_attempts (hport : port ≠ 0) (hlast : 65535 < port.toNat + portTolerance.toNat)
    (huse : ∀ q : UInt16, port.toNat ≤ q.toNat → ports.inUse q = true) :
    0 ∈ (acceptOnFreePort ports.acceptor port portTolerance).attempts := by
  have hlt := port.toNat_lt
  have hskip := @tryPorts_skip port ports.acceptor (65536 - port.toNat) portTolerance.toNat
    (by omega) (by omega) fun r hr _ =>
      Ports.acceptor_of_inUse (ne_zero_of_le hport hr) (huse r hr)
  have hzero : port + UInt16.ofNat (65536 - port.toNat) = 0 := by
    apply UInt16.toNat_inj.mp
    rw [toNat_add_ofNat]
    have hwrapped : (port.toNat + (65536 - port.toNat)) % 65536 = 0 := by omega
    exact hwrapped
  rw [acceptOnFreePort, hskip.1, hzero]
  exact List.mem_append_right _ (mem_attempts_tryPorts ports.acceptor 0 _)

/-! ## The law -/

/-- The ports in a row up to the last candidate are candidates. -/
theorem candidate_of_mem_consecutive {n : ℕ} {q : UInt16}
    (hn : port.toNat + n ≤ min (port.toNat + portTolerance.toNat) 65535 + 1)
    (hq : q ∈ consecutive port n) : Candidate port portTolerance q := by
  obtain ⟨k, hk, rfl⟩ := List.mem_map.mp hq
  have hk := List.mem_range.mp hk
  have hreached := toNat_add_ofNat port k
  refine ⟨by omega, by omega⟩

/-- A search over a row of candidates does what it should when its result is right. -/
theorem searchLaw_of_consecutive {n : ℕ}
    (hattempts : (acceptOnFreePort ports.acceptor port portTolerance).attempts = consecutive port n)
    (hn : port.toNat + n ≤ min (port.toNat + portTolerance.toNat) 65535 + 1)
    (hfound : ∀ q, Candidate port portTolerance q → ports.inUse q = false →
      (∀ r, port.toNat ≤ r.toNat → r.toNat < q.toNat → ports.inUse r = true) →
        (acceptOnFreePort ports.acceptor port portTolerance).result = .ok q)
    (hrefused : (∀ q, Candidate port portTolerance q → ports.inUse q = true) →
      (acceptOnFreePort ports.acceptor port portTolerance).result = .error .addressInUse) :
    SearchLaw ports port portTolerance := by
  have hlength : (consecutive port n).length = n := by simp [consecutive]
  refine ⟨?_, ?_, ?_, hfound, hrefused⟩
  · rw [hattempts, hlength]
    omega
  · rw [hattempts, hlength]
    exact map_toNat_consecutive (by omega)
  · intro q hq
    rw [hattempts] at hq
    exact candidate_of_mem_consecutive hn hq

/-- There is a least free candidate or none at all. -/
theorem exists_least_free_or (ports : Ports) (port portTolerance : UInt16) :
    (∃ q, Candidate port portTolerance q ∧ ports.inUse q = false ∧
      ∀ r : UInt16, port.toNat ≤ r.toNat → r.toNat < q.toNat → ports.inUse r = true) ∨
    ∀ q, Candidate port portTolerance q → ports.inUse q = true := by
  classical
  by_cases hsome : ∃ n, ∃ q : UInt16, q.toNat = n ∧ Candidate port portTolerance q ∧
      ports.inUse q = false
  · left
    obtain ⟨q, hn, hq, hfree⟩ := Nat.find_spec hsome
    refine ⟨q, hq, hfree, ?_⟩
    intro r hlow hlt
    have hcandidate : Candidate port portTolerance r := ⟨hlow, hlt.le.trans hq.2⟩
    by_contra huse
    exact Nat.find_min hsome (hn ▸ hlt) ⟨r, rfl, hcandidate, by simpa using huse⟩
  · right
    intro q hq
    by_contra huse
    exact hsome ⟨q.toNat, q, rfl, hq, by simpa using huse⟩

/-- **Search for a free port.** From a port other than 0 the search tries only the candidates,
one after the other, and finds the least free one or throws the exception again, exactly when
the tolerance ends at the greatest port or before, or a port up to the greatest one is free. -/
theorem searchLaw_iff (hport : port ≠ 0) :
    SearchLaw ports port portTolerance ↔
      ¬(65535 < port.toNat + portTolerance.toNat ∧
        ∀ q : UInt16, port.toNat ≤ q.toNat → ports.inUse q = true) := by
  constructor
  · rintro hlaw ⟨hlast, huse⟩
    have hzero := hlaw.candidate 0 (zero_mem_attempts hport hlast huse)
    exact ne_zero_of_le hport hzero.1 rfl
  · intro hends
    have hlt := port.toNat_lt
    rcases exists_least_free_or ports port portTolerance with ⟨q, hq, hfree, huse⟩ | huse
    · have hfound := acceptOnFreePort_of_free hport hq hfree huse
      obtain ⟨hlow, hhigh⟩ := hq
      refine searchLaw_of_consecutive hfound.1 (by omega) ?_ ?_
      · intro q' hq' hfree' huse'
        exact (acceptOnFreePort_of_free hport hq' hfree' huse').2
      · intro hall
        rw [hall q ⟨hlow, hhigh⟩] at hfree
        exact absurd hfree Bool.noConfusion
    · have hlast : port.toNat + portTolerance.toNat ≤ 65535 := by
        by_contra hover
        refine hends ⟨by omega, ?_⟩
        intro q hq
        have hqlt := q.toNat_lt
        exact huse q ⟨hq, by omega⟩
      have hrefused := acceptOnFreePort_of_inUse hport hlast huse
      refine searchLaw_of_consecutive hrefused.1 (by omega) ?_ fun _ => hrefused.2
      intro q hq hfree _
      rw [huse q hq] at hfree
      exact absurd hfree Bool.noConfusion

namespace Scenario

/-- One port is in use, and port 0 stands for port 32768. -/
def oneInUse (port : UInt16) (hport : port ≠ 32768) : Ports :=
  ⟨fun q => q = port, some 32768, by
    rintro q ⟨⟩
    exact ⟨by decide, decide_eq_false hport.symm⟩⟩

end Scenario

/-- The default metrics port is in use and the next one is free. -/
theorem searchLaw_iff_next_port :
    (acceptOnFreePort (Scenario.oneInUse 9615 (by decide)).acceptor 9615
        kDefaultPortTolerance).attempts = [9615, 9616] ∧
      SearchLaw (Scenario.oneInUse 9615 (by decide)) 9615 kDefaultPortTolerance := by
  refine ⟨rfl, (searchLaw_iff (by decide)).mpr ?_⟩
  rintro ⟨hover, _⟩
  exact absurd hover (by decide)

/-- The greatest port is in use: the search tries port 0 and returns an acceptor on a port that was
not asked for. -/
theorem not_searchLaw_greatest_port :
    (acceptOnFreePort (Scenario.oneInUse 65535 (by decide)).acceptor 65535
        kDefaultPortTolerance).attempts = [65535, 0] ∧
      (acceptOnFreePort (Scenario.oneInUse 65535 (by decide)).acceptor 65535
        kDefaultPortTolerance).result = .ok 32768 ∧
      ¬SearchLaw (Scenario.oneInUse 65535 (by decide)) 65535 kDefaultPortTolerance := by
  refine ⟨rfl, rfl, ?_⟩
  intro hlaw
  have hcandidate := hlaw.candidate 0 (List.mem_cons_of_mem _ List.mem_cons_self)
  exact absurd hcandidate.1 (by decide)

end CppJam.Api
