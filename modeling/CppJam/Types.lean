import CppJam.Bytes

/-!
# Types shared by the state transitions

The generated `jam_types` headers define plain records over byte arrays and
fixed-width integers. A state transition receives a configuration, a state and
an input and returns a state with an output. It can also end without returning:
by an exception that nothing in it catches, or by an operation whose behaviour
is undefined.
-/

namespace CppJam

open Bytes

/-- `OpaqueHash`: 32 octets. -/
abbrev OpaqueHash := ByteArr 32

/-- `WorkReportHash`. -/
abbrev WorkReportHash := OpaqueHash

/-- `Ed25519Public`. -/
abbrev Ed25519Public := ByteArr 32

/-- `Ed25519Signature`. -/
abbrev Ed25519Signature := ByteArr 64

/-- `BandersnatchPublic`. -/
abbrev BandersnatchPublic := ByteArr 32

/-- `Config`: the protocol constants that the transitions read. -/
structure Config where
  /-- Number of validators. -/
  validatorsCount : UInt32
  /-- Number of judgements in a verdict. -/
  validatorsSuperMajority : UInt32
  /-- Length of an epoch in timeslots. -/
  epochLength : UInt32
  /-- Number of ticket entries for each validator. -/
  ticketsPerValidator : UInt32
  /-- Number of cores. -/
  coresCount : UInt32
  /-- Greatest size of a core's authorizer pool. -/
  authPoolMaxSize : UInt32
  /-- Size of a core's authorizer queue. -/
  authQueueSize : UInt32
  deriving DecidableEq

/-- `ValidatorData`, with the two keys that the transitions read. -/
structure ValidatorData where
  /-- Bandersnatch key. -/
  bandersnatch : BandersnatchPublic
  /-- Ed25519 key. -/
  ed25519 : Ed25519Public
  deriving DecidableEq

/-- `ValidatorData{}`: every octet is zero. -/
def ValidatorData.zero : ValidatorData := ⟨ByteArr.fill 0, ByteArr.fill 0⟩

/-- How a transition ends when it does not return. -/
inductive Abort where
  /-- `std::logic_error` with its text. -/
  | logicError (what : String)
  /-- `value()` on an empty `std::optional`. -/
  | badOptionalAccess
  /-- `value()` on a failed `outcome::result`. -/
  | badResultAccess
  /-- A failed `assert`. -/
  | assertion
  /-- Division by zero, access outside a container or a loop without end. -/
  | undefinedBehaviour
  deriving DecidableEq

/-- `Output`: the data of an accepted input or the code of a rejected one. -/
inductive Output (ε δ : Type) where
  /-- The input was accepted. -/
  | ok (data : δ)
  /-- The input was rejected. -/
  | err (code : ε)
  deriving DecidableEq

/-- How the body of a transition is left early. -/
inductive Exit (ε : Type) where
  /-- `return error(code)`. -/
  | reject (code : ε)
  /-- The transition does not return. -/
  | abort (cause : Abort)

variable {σ ε δ : Type}

/-- What a transition returns after running its body from `state`: a rejection
gives the unchanged state back together with the error code. -/
def settle (state : σ) : Except (Exit ε) (σ × δ) → Except Abort (σ × Output ε δ)
  | .ok (post, data) => .ok (post, .ok data)
  | .error (.reject code) => .ok (state, .err code)
  | .error (.abort cause) => .error cause

/-- A transition accepts exactly when its body runs to its end. -/
@[simp] theorem settle_eq_ok {state post : σ} {body : Except (Exit ε) (σ × δ)} {data : δ} :
    settle state body = .ok (post, .ok data) ↔ body = .ok (post, data) := by
  match body with
  | .ok (post', data') => simp [settle]
  | .error (.reject code) => simp [settle]
  | .error (.abort cause) => simp [settle]

/-- A transition returns unless its body is aborted. -/
theorem settle_returns {state : σ} {body : Except (Exit ε) (σ × δ)}
    (hbody : ∀ cause, body ≠ .error (.abort cause)) :
    ∃ post out, settle state body = .ok (post, out) := by
  match body, hbody with
  | .ok (post, data), _ => exact ⟨post, .ok data, rfl⟩
  | .error (.reject code), _ => exact ⟨state, .err code, rfl⟩
  | .error (.abort cause), hbody => exact absurd rfl (hbody cause)

/-- A rejection leaves the state as it was. -/
theorem settle_eq_err {state post : σ} {body : Except (Exit ε) (σ × δ)} {code : ε}
    (h : settle state body = .ok (post, .err code)) : post = state := by
  match body, h with
  | .error (.reject _), h =>
    simp only [settle, Except.ok.injEq, Prod.mk.injEq] at h
    exact h.1.symm

end CppJam
