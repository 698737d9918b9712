import CppJam.Checks
import CppJam.Types

/-!
# The endpoints of a channel

`utils/channel.hpp`: a receiver and a sender that point at each other. The heap maps
addresses to live endpoints, separately for the two kinds. Every operation is one
critical section: an endpoint's own lock and those of the endpoints it visits are
held until it is done. Using an endpoint that is not alive is undefined, and an
assertion stops the program.
-/

namespace CppJam.Channel

open Checks

/-- The two kinds of endpoints. -/
inductive Kind where
  | receiver
  | sender
  deriving DecidableEq

/-- `Opp::Other`: the kind of the opposite endpoint. -/
def Kind.other : Kind → Kind
  | receiver => sender
  | sender => receiver

/-- The opposite of the opposite kind is the kind itself. -/
@[simp, grind =] theorem Kind.other_other (k : Kind) : k.other.other = k := by
  cases k <;> rfl

/-- A kind is not its own opposite. -/
@[simp, grind .] theorem Kind.other_ne (k : Kind) : k.other ≠ k := by
  cases k <;> decide

/-- A kind is not its own opposite. -/
@[simp] theorem Kind.ne_other (k : Kind) : k ≠ k.other := k.other_ne.symm

/-- There is no third kind. -/
theorem Kind.eq_or_eq_other (k k' : Kind) : k' = k ∨ k' = k.other := by
  cases k <;> cases k' <;> decide

variable {T : Type}

/-- `data_` and `event_` of a receiver. -/
structure Mail (T : Type) where
  /-- The value set last, if any. -/
  data : Option T
  /-- The event is set and no `wait` has consumed it. -/
  signalled : Bool
  deriving DecidableEq

/-- The mail of a new receiver. -/
def Mail.empty : Mail T := ⟨none, false⟩

/-- `data_ = t`. -/
def Mail.store (m : Mail T) (t : T) : Mail T := ⟨some t, m.signalled⟩

/-- `event_.set()`. -/
def Mail.signal (m : Mail T) : Mail T := ⟨m.data, true⟩

/-- `event_.wait()`, once it returns: the event resets itself. -/
def Mail.consume (m : Mail T) : Mail T := ⟨m.data, false⟩

/-- `std::move(data_)`: what the slot holds after its value was moved out. The
optional stays engaged, with a value in its moved-from state. -/
def Mail.moveOut (moved : T → T) (m : Mail T) : Mail T := ⟨m.data.map moved, m.signalled⟩

/-- The live endpoints by kind and address, with their `opp_`, and the mail of the
receivers. -/
structure Heap (T : Type) where
  /-- `none` for an address without a live endpoint, otherwise its `opp_`. -/
  opp : Kind → ℕ → Option (Option ℕ)
  /-- Mail of the receiver at an address. -/
  mail : ℕ → Mail T

/-- No endpoint is alive. -/
def Heap.empty : Heap T := ⟨fun _ _ => none, fun _ => Mail.empty⟩

/-- Write one entry of the heap. -/
def Heap.setOpp (h : Heap T) (k : Kind) (a : ℕ) (entry : Option (Option ℕ)) : Heap T :=
  ⟨fun k' a' => if k' = k ∧ a' = a then entry else h.opp k' a', h.mail⟩

/-- Write the mail of one receiver. -/
def Heap.setMail (h : Heap T) (r : ℕ) (m : Mail T) : Heap T :=
  ⟨h.opp, fun r' => if r' = r then m else h.mail r'⟩

/-- Reading an entry after writing one. -/
@[simp, grind =] theorem Heap.setOpp_opp (h : Heap T) (k k' : Kind) (a a' : ℕ)
    (entry : Option (Option ℕ)) :
    (h.setOpp k a entry).opp k' a' = if k' = k ∧ a' = a then entry else h.opp k' a' := rfl

/-- Writing an entry leaves the mail alone. -/
@[simp, grind =] theorem Heap.setOpp_mail (h : Heap T) (k : Kind) (a : ℕ)
    (entry : Option (Option ℕ)) :
    (h.setOpp k a entry).mail = h.mail := rfl

/-- Writing mail leaves the links alone. -/
@[simp, grind =] theorem Heap.setMail_opp (h : Heap T) (r : ℕ) (m : Mail T) :
    (h.setMail r m).opp = h.opp := rfl

/-- Reading mail after writing some. -/
@[simp, grind =] theorem Heap.setMail_mail (h : Heap T) (r r' : ℕ) (m : Mail T) :
    (h.setMail r m).mail r' = if r' = r then m else h.mail r' := rfl

/-- A default-constructed endpoint at a free address. -/
def Heap.construct (k : Kind) (a : ℕ) (h : Heap T) : Except Abort (Heap T) := do
  failIf (h.opp k a ≠ none) .undefinedBehaviour
  return (if k = .receiver then h.setMail a Mail.empty else h).setOpp k a (some none)

/-- `register_opp`. -/
def Heap.registerOpp (k : Kind) (a opp : ℕ) (h : Heap T) : Except Abort (Heap T) := do
  failIf (h.opp k a = none) .undefinedBehaviour
  return h.setOpp k a (some (some opp))

/-- `unregister_opp`, which asserts that the endpoint to unlink is the one linked. -/
def Heap.unregisterOpp (k : Kind) (a opp : ℕ) (h : Heap T) : Except Abort (Heap T) := do
  failIf (h.opp k a = none) .undefinedBehaviour
  failIf (h.opp k a ≠ some (some opp)) .assertion
  return h.setOpp k a (some none)

/-- The common body of the move constructors and assignments: the opposite endpoint
of `other` is linked to `this`, and `other` is left unconnected. Only the connection
moves. -/
def Heap.transfer (k : Kind) (other this : ℕ) (h : Heap T) : Except Abort (Heap T) :=
  match h.opp k other with
  | none => .error .undefinedBehaviour
  | some none => .ok (h.setOpp k this (some none))
  | some (some opp) => do
    let h ← h.registerOpp k.other opp this
    return (h.setOpp k other (some none)).setOpp k this (some (some opp))

/-- `Endpoint(Endpoint &&other)`. -/
def Heap.moveConstruct (k : Kind) (other this : ℕ) (h : Heap T) : Except Abort (Heap T) := do
  let h ← h.construct k this
  h.transfer k other this

/-- `operator=(Endpoint &&other)`. -/
def Heap.moveAssign (k : Kind) (other this : ℕ) (h : Heap T) : Except Abort (Heap T) := do
  failIf (h.opp k this = none) .undefinedBehaviour
  if this = other then return h
  else h.transfer k other this

/-- `~Endpoint()`. A sender that goes away signals its receiver. -/
def Heap.destroy (k : Kind) (a : ℕ) (h : Heap T) : Except Abort (Heap T) :=
  match h.opp k a with
  | none => .error .undefinedBehaviour
  | some none => .ok (h.setOpp k a none)
  | some (some opp) => do
    let h ← h.unregisterOpp k.other opp a
    return (if k = .sender then h.setMail opp (h.mail opp).signal else h).setOpp k a none

/-- `create_channel`: the endpoints made at `localR` and `localS` are linked, moved to
`r` and `s`, and destroyed. -/
def Heap.createChannel (localR localS r s : ℕ) (h : Heap T) : Except Abort (Heap T) := do
  let h ← h.construct .receiver localR
  let h ← h.construct .sender localS
  let h ← h.registerOpp .receiver localR localS
  let h ← h.registerOpp .sender localS localR
  let h ← h.moveConstruct .receiver localR r
  let h ← h.moveConstruct .sender localS s
  let h ← h.destroy .sender localS
  h.destroy .receiver localR

/-- `set`: a value for the receiver, if there is one. -/
def Heap.set (s : ℕ) (t : T) (h : Heap T) : Except Abort (Heap T) :=
  match h.opp .sender s with
  | none => .error .undefinedBehaviour
  | some none => .ok h
  | some (some r) => do
    failIf (h.opp .receiver r = none) .undefinedBehaviour
    return h.setMail r ((h.mail r).store t).signal

/-- `wait`: the value that it returns; `none` while the event is not set. -/
def Heap.wait (moved : T → T) (r : ℕ) (h : Heap T) :
    Except Abort (Option (Option T × Heap T)) := do
  failIf (h.opp .receiver r = none) .undefinedBehaviour
  if (h.mail r).signalled then
    return some ((h.mail r).data, h.setMail r ((h.mail r).consume.moveOut moved))
  else return none

end CppJam.Channel
