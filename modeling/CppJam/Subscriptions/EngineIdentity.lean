import CppJam.Subscriptions.Murmur2
import Mathlib.Data.Fintype.Pigeonhole

/-!
# Which engine serves an instantiation

`subscription_manager.hpp`: an engine is made for an event key type and a list of argument
types, and kept under the hash of a function name. The function is a template over the
argument types only. Two event key types with the same arguments, or two lists of
arguments whose function names have the same hash, so get one engine, and its pointer
is cast to the type of the other. The manager serves every instantiation with its own
engine exactly when no instantiation comes after another one with the same hash.
-/

namespace CppJam.Subscriptions

/-- The template arguments of an engine: the type of the event keys and the types of the
transmitted data. -/
structure Instantiation (κ α : Type) where
  eventKey : κ
  args : List α
  deriving DecidableEq

/-- An engine, with the instantiation that it was made for. Different engines have different
serial numbers. -/
structure ManagedEngine (κ α : Type) where
  serial : ℕ
  madeFor : Instantiation κ α
  deriving DecidableEq

/-- `SubscriptionManager`. -/
structure SubscriptionManager (κ α : Type) where
  /-- `engines_`. -/
  engines : UInt64 → Option (ManagedEngine κ α)
  /-- Number of engines made so far. -/
  made : ℕ

/-- A call on the manager. -/
inductive ManagerCall (κ α : Type) where
  /-- `getEngine<EventKey, Args...>()`. -/
  | getEngine (i : Instantiation κ α)
  /-- `notify` or `notifyDelayed`. -/
  | notify (i : Instantiation κ α)
  deriving DecidableEq

variable {κ α : Type}

/-- The instantiation of a call. -/
def ManagerCall.instantiation : ManagerCall κ α → Instantiation κ α
  | .getEngine i => i
  | .notify i => i

section

-- the compiler's name of `getSubscriptionHash<Args...>`
variable (functionName : List α → List UInt8)

/-- `getSubscriptionHash<Args...>`. -/
def getSubscriptionHash (args : List α) : UInt64 := (Hasher.murmur2 (functionName args)).toUInt64

/-- A call: the manager afterwards, and the engine that is returned or notified. -/
def SubscriptionManager.exec (s : SubscriptionManager κ α) :
    ManagerCall κ α → SubscriptionManager κ α × Option (ManagedEngine κ α)
  | .getEngine i =>
    match s.engines (getSubscriptionHash functionName i.args) with
    | some engine => (s, some engine)
    | none =>
      let engine := ⟨s.made, i⟩
      (⟨Function.update s.engines (getSubscriptionHash functionName i.args) (some engine),
        s.made + 1⟩, some engine)
  | .notify i => (s, s.engines (getSubscriptionHash functionName i.args))

/-- The manager after a sequence of calls. -/
def SubscriptionManager.after (calls : List (ManagerCall κ α)) : SubscriptionManager κ α :=
  calls.foldl (fun s call => (s.exec functionName call).1) ⟨fun _ => none, 0⟩

/-- A call of the sequence returns or notifies the engine. -/
def Serves (calls : List (ManagerCall κ α)) (call : ManagerCall κ α) (engine : ManagedEngine κ α) :
    Prop :=
  ∃ front back, calls = front ++ call :: back ∧
    ((SubscriptionManager.after functionName front).exec functionName call).2 = some engine

/-- Every engine serves the instantiation that it was made for, and two calls are served by the
same engine exactly when their instantiations are the same. -/
structure IdentityLaw (calls : List (ManagerCall κ α)) : Prop where
  own : ∀ call engine, Serves functionName calls call engine →
    engine.madeFor = call.instantiation
  shared : ∀ call engine call' engine', Serves functionName calls call engine →
    Serves functionName calls call' engine' →
    (engine = engine' ↔ call.instantiation = call'.instantiation)

/-- No call comes after a `getEngine` of another instantiation with the same hash. -/
def Separated (calls : List (ManagerCall κ α)) : Prop :=
  ∀ front i middle call back, calls = front ++ .getEngine i :: middle ++ call :: back →
    getSubscriptionHash functionName i.args =
      getSubscriptionHash functionName call.instantiation.args → i = call.instantiation

end

variable {functionName : List α → List UInt8} {calls front : List (ManagerCall κ α)}
  {call : ManagerCall κ α} {engine : ManagedEngine κ α}

/-- One more call. -/
theorem after_append_singleton (calls : List (ManagerCall κ α)) (call : ManagerCall κ α) :
    SubscriptionManager.after functionName (calls ++ [call]) =
      ((SubscriptionManager.after functionName calls).exec functionName call).1 := by
  simp [SubscriptionManager.after]

/-- What a call does: it finds an engine under its hash, or finds none, and then `getEngine` makes
one. -/
theorem exec_cases (functionName : List α → List UInt8) (s : SubscriptionManager κ α)
    (call : ManagerCall κ α) :
    (s.exec functionName call =
      (s, s.engines (getSubscriptionHash functionName call.instantiation.args))) ∨
    (s.engines (getSubscriptionHash functionName call.instantiation.args) = none ∧
      ∃ i, call = .getEngine i ∧ s.exec functionName call =
        (⟨Function.update s.engines (getSubscriptionHash functionName i.args) (some ⟨s.made, i⟩),
          s.made + 1⟩, some ⟨s.made, i⟩)) := by
  cases call with
  | notify i => exact Or.inl rfl
  | getEngine i =>
    cases hfound : s.engines (getSubscriptionHash functionName i.args) with
    | some engine =>
      refine Or.inl ?_
      simp only [SubscriptionManager.exec, ManagerCall.instantiation, hfound]
    | none =>
      refine Or.inr ⟨hfound, i, rfl, ?_⟩
      simp only [SubscriptionManager.exec, hfound]

/-- An engine stays where it is. -/
theorem engines_exec {s : SubscriptionManager κ α} {hash : UInt64}
    (hengine : s.engines hash = some engine) :
    (s.exec functionName call).1.engines hash = some engine := by
  rcases exec_cases functionName s call with hexec | ⟨hnone, i, rfl, hexec⟩
  · rw [hexec]
    exact hengine
  · rw [hexec]
    have hne : hash ≠ getSubscriptionHash functionName i.args := by
      rintro rfl
      exact absurd (hengine.symm.trans hnone) (by simp)
    exact (Function.update_of_ne hne _ _).trans hengine

/-- An engine stays where it is during any further calls. -/
theorem engines_after {hash : UInt64} (back : List (ManagerCall κ α))
    (hengine : (SubscriptionManager.after functionName front).engines hash = some engine) :
    (SubscriptionManager.after functionName (front ++ back)).engines hash = some engine := by
  induction back using List.reverseRecOn with
  | nil => rwa [List.append_nil]
  | append_singleton back call ih =>
    rw [← List.append_assoc, after_append_singleton]
    exact engines_exec ih

/-- The engine that serves a call is afterwards kept under its hash. -/
theorem engines_of_exec {s : SubscriptionManager κ α}
    (hserve : (s.exec functionName call).2 = some engine) :
    (s.exec functionName call).1.engines
      (getSubscriptionHash functionName call.instantiation.args) = some engine := by
  rcases exec_cases functionName s call with hexec | ⟨_, i, rfl, hexec⟩
  · rw [hexec] at hserve ⊢
    exact hserve
  · rw [hexec] at hserve ⊢
    rw [← hserve]
    exact Function.update_self _ _ _

/-- The engine that serves a call is in the end kept under its hash. -/
theorem Serves.engines (hserves : Serves functionName calls call engine) :
    (SubscriptionManager.after functionName calls).engines
      (getSubscriptionHash functionName call.instantiation.args) = some engine := by
  obtain ⟨front, back, rfl, hserve⟩ := hserves
  have hkept := engines_of_exec hserve
  rw [← after_append_singleton] at hkept
  simpa using engines_after back hkept

/-- An engine was made by a `getEngine` of its instantiation, and is kept under its hash. -/
theorem made_by_getEngine {hash : UInt64}
    (hengine : (SubscriptionManager.after functionName calls).engines hash = some engine) :
    getSubscriptionHash functionName engine.madeFor.args = hash ∧
      ∃ front back, calls = front ++ .getEngine engine.madeFor :: back := by
  induction calls using List.reverseRecOn with
  | nil => cases hengine
  | append_singleton calls call ih =>
    rw [after_append_singleton] at hengine
    rcases exec_cases functionName (SubscriptionManager.after functionName calls)
      call with hexec | ⟨hnone, i, rfl, hexec⟩
    · rw [hexec] at hengine
      obtain ⟨hhash, front, back, rfl⟩ := ih hengine
      exact ⟨hhash, front, back ++ [call], by simp⟩
    · rw [hexec] at hengine
      by_cases hsame : hash = getSubscriptionHash functionName i.args
      · subst hsame
        simp only [Function.update_self, Option.some.injEq] at hengine
        subst hengine
        exact ⟨rfl, calls, [], rfl⟩
      · obtain ⟨hhash, front, back, rfl⟩ :=
          ih ((Function.update_of_ne hsame _ _).symm.trans hengine)
        exact ⟨hhash, front, back ++ [.getEngine i], by simp⟩

/-- A call is served by the engine that is kept under its hash. -/
theorem exec_of_found {s : SubscriptionManager κ α}
    (hfound : s.engines (getSubscriptionHash functionName call.instantiation.args) = some engine) :
    (s.exec functionName call).2 = some engine := by
  rcases exec_cases functionName s call with hexec | ⟨hnone, _⟩
  · rwa [hexec]
  · exact absurd (hfound.symm.trans hnone) (by simp)

/-- Further calls do not change who was served. -/
theorem Serves.append (hserves : Serves functionName calls call engine)
    (more : List (ManagerCall κ α)) : Serves functionName (calls ++ more) call engine := by
  obtain ⟨front, back, rfl, hserve⟩ := hserves
  exact ⟨front, back ++ more, by simp, hserve⟩

/-- Every `getEngine` is served. -/
theorem getEngine_serves (functionName : List α → List UInt8) (front back : List (ManagerCall κ α))
    (i : Instantiation κ α) :
    ∃ engine, Serves functionName (front ++ .getEngine i :: back) (.getEngine i) engine := by
  cases hfound : (SubscriptionManager.after functionName front).engines
      (getSubscriptionHash functionName i.args) with
  | some engine => exact ⟨engine, front, back, rfl, exec_of_found hfound⟩
  | none =>
    refine ⟨⟨(SubscriptionManager.after functionName front).made, i⟩, front, back, rfl, ?_⟩
    simp only [SubscriptionManager.exec, hfound]

/-- Under separation every engine serves its own instantiation. -/
theorem Separated.own (hseparated : Separated functionName calls)
    (hserves : Serves functionName calls call engine) : engine.madeFor = call.instantiation := by
  obtain ⟨front, back, rfl, hserve⟩ := hserves
  rcases exec_cases functionName (SubscriptionManager.after functionName front)
    call with hexec | ⟨_, i, rfl, hexec⟩
  · -- the engine was made by an earlier call
    rw [hexec] at hserve
    obtain ⟨hhash, before, middle, rfl⟩ := made_by_getEngine hserve
    exact hseparated before engine.madeFor middle call back rfl hhash
  · rw [hexec] at hserve
    obtain rfl := Option.some.inj hserve
    rfl

/-- If every engine serves its own instantiation, the calls are separated. -/
theorem IdentityLaw.separated (hlaw : IdentityLaw functionName calls) :
    Separated functionName calls := by
  rintro front i middle call back rfl hhash
  obtain ⟨engine, hfirst⟩ := getEngine_serves functionName front middle i
  -- the engine of the first call is still there at the second one, which it serves too
  have hfound := hfirst.engines
  rw [ManagerCall.instantiation, hhash] at hfound
  have hsecond : Serves functionName (front ++ .getEngine i :: middle ++ call :: back) call
      engine := ⟨_, back, rfl, exec_of_found hfound⟩
  exact (hlaw.own _ engine (hfirst.append _)).symm.trans (hlaw.own call engine hsecond)

/-- **Engine identity.** Every instantiation is served by its own engine exactly when no call comes
after a `getEngine` of another instantiation with the same hash. -/
theorem identityLaw_iff (functionName : List α → List UInt8) (calls : List (ManagerCall κ α)) :
    IdentityLaw functionName calls ↔ Separated functionName calls := by
  refine ⟨fun hlaw => hlaw.separated, fun hseparated => ?_⟩
  refine ⟨fun call engine hserves => hseparated.own hserves, ?_⟩
  intro call engine call' engine' hserves hserves'
  constructor
  · rintro rfl
    exact (hseparated.own hserves).symm.trans (hseparated.own hserves')
  · intro hsame
    have hengine := hserves.engines
    rw [hsame, hserves'.engines] at hengine
    exact (Option.some.inj hengine).symm

/-- Whatever the function is called, the engine that was made for one event key type is returned
for another one with the same arguments. -/
theorem serves_other_eventKey (functionName : List α → List UInt8) (eventKey eventKey' : κ)
    (args : List α) :
    Serves functionName [.getEngine ⟨eventKey, args⟩, .getEngine ⟨eventKey', args⟩]
      (.getEngine ⟨eventKey', args⟩) ⟨0, ⟨eventKey, args⟩⟩ := by
  refine ⟨[.getEngine ⟨eventKey, args⟩], [], rfl, ?_⟩
  simp [SubscriptionManager.after, SubscriptionManager.exec]

namespace Scenario

/-- A name that shows the argument types. -/
def nameOfArgs (args : List ℕ) : List UInt8 :=
  "getSubscriptionHash".toUTF8.toList ++ args.map Nat.toUInt8

/-- Two event key types, as `0` and `1`, with the same argument type. -/
def twoEventKeys : List (ManagerCall ℕ ℕ) := [.getEngine ⟨0, [5]⟩, .getEngine ⟨1, [5]⟩]

end Scenario

/-- The second call is served by the engine of the first event key type. -/
theorem not_identityLaw_twoEventKeys :
    Serves Scenario.nameOfArgs Scenario.twoEventKeys (.getEngine ⟨1, [5]⟩) ⟨0, ⟨0, [5]⟩⟩ ∧
      ¬IdentityLaw Scenario.nameOfArgs Scenario.twoEventKeys := by
  have hserves := serves_other_eventKey Scenario.nameOfArgs 0 1 [5]
  refine ⟨hserves, fun hlaw => ?_⟩
  cases hlaw.own _ _ hserves

/-- There are only finitely many hashes. -/
theorem exists_same_hash [Nonempty α] (functionName : List α → List UInt8) :
    ∃ args args', args ≠ args' ∧
      getSubscriptionHash functionName args = getSubscriptionHash functionName args' := by
  have hfinite : Finite UInt64 := Finite.of_injective UInt64.toFin fun a b => UInt64.toFin_inj.mp
  exact Finite.exists_ne_map_eq_of_infinite _

/-- Also with a single event key type there are two lists of arguments that share an engine. -/
theorem exists_not_identityLaw [Nonempty α] (functionName : List α → List UInt8) (eventKey : κ) :
    ∃ args args', args ≠ args' ∧
      ¬IdentityLaw functionName [.getEngine ⟨eventKey, args⟩, .getEngine ⟨eventKey, args'⟩] := by
  obtain ⟨args, args', hne, hhash⟩ := exists_same_hash functionName
  refine ⟨args, args', hne, fun hlaw => ?_⟩
  have hsame := hlaw.separated [] ⟨eventKey, args⟩ [] (.getEngine ⟨eventKey, args'⟩) [] rfl hhash
  exact hne (congrArg Instantiation.args hsame)

end CppJam.Subscriptions
