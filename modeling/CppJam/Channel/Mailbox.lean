import CppJam.Channel.Endpoints
import CppJam.Runs

/-!
# Values that pass through a channel

`set` stores a value and then sets the event; `wait` consumes the event and then moves
the value out; the destructor of the sender sets the event without a value. Sender and
receiver run concurrently, so the steps of one call can come between those of
another. A value that was moved out leaves its slot engaged. A `wait` that is woken
without a new value therefore returns the remains of the last one, unless no value
was ever set.
-/

namespace CppJam.Channel

open Checks Runs

variable {T : Type} {moved : T → T}

/-- Where the thread of the sender is. -/
inductive SenderAt where
  /-- Between two calls. -/
  | idle
  /-- In `set`, with the value stored and the event not yet set. -/
  | stored
  /-- In the destructor, with the receiver unlinked and the event not yet set. -/
  | unlinked
  /-- Destroyed. -/
  | gone
  deriving DecidableEq

/-- Where the thread of the receiver is. -/
inductive ReceiverAt where
  /-- Before `wait` returns from the event. -/
  | idle
  /-- In `wait`, with the event consumed and the value not yet moved out. -/
  | woken
  deriving DecidableEq

/-- A connected pair of endpoints in use by two threads. -/
structure Exchange (T : Type) where
  /-- The mail of the receiver. -/
  mail : Mail T
  /-- Where the sender is. -/
  sender : SenderAt
  /-- Where the receiver is. -/
  receiver : ReceiverAt

/-- A new channel. -/
def Exchange.fresh : Exchange T := ⟨Mail.empty, .idle, .idle⟩

/-- The steps of the two threads. -/
inductive Event (T : Type) where
  /-- `set` stores its value. -/
  | store (t : T)
  /-- `set` sets the event and returns. -/
  | signal
  /-- The destructor of the sender unlinks the receiver. -/
  | unlink
  /-- The destructor of the sender sets the event and returns. -/
  | leave
  /-- `wait` consumes the event. -/
  | wake
  /-- `wait` moves the value out and returns it. -/
  | take (result : Option T)
  deriving DecidableEq

/-- One step of one of the threads. -/
inductive Exchange.Step (moved : T → T) : Exchange T → Event T → Exchange T → Prop
  | store {m : Mail T} {at' : ReceiverAt} (t : T) :
      Step moved ⟨m, .idle, at'⟩ (.store t) ⟨m.store t, .stored, at'⟩
  | signal {m : Mail T} {at' : ReceiverAt} :
      Step moved ⟨m, .stored, at'⟩ .signal ⟨m.signal, .idle, at'⟩
  | unlink {m : Mail T} {at' : ReceiverAt} :
      Step moved ⟨m, .idle, at'⟩ .unlink ⟨m, .unlinked, at'⟩
  | leave {m : Mail T} {at' : ReceiverAt} :
      Step moved ⟨m, .unlinked, at'⟩ .leave ⟨m.signal, .gone, at'⟩
  | wake {m : Mail T} {at' : SenderAt} (hsignalled : m.signalled = true) :
      Step moved ⟨m, at', .idle⟩ .wake ⟨m.consume, at', .woken⟩
  | take {m : Mail T} {at' : SenderAt} :
      Step moved ⟨m, at', .woken⟩ (.take m.data) ⟨m.moveOut moved, at', .idle⟩

/-- `set` on a connected sender stores the value and sets the event. -/
theorem set_run {h h' : Heap T} {s r : ℕ} {t : T} (hopp : h.opp .sender s = some (some r))
    (hok : h.set s t = .ok h') (at' : ReceiverAt) :
    Run (Exchange.Step moved) ⟨h.mail r, .idle, at'⟩ [.store t, .signal]
      ⟨h'.mail r, .idle, at'⟩ := by
  simp only [Heap.set, hopp, bind_eq_ok, failIf_eq_ok, pure_eq_ok] at hok
  obtain ⟨_, _, rfl⟩ := hok
  simp only [Heap.setMail_mail, if_true]
  exact (Run.nil.snoc (.store t)).snoc .signal

/-- `wait`, when it returns, consumes the event and moves the value out. -/
theorem wait_run {h h' : Heap T} {r : ℕ} {result : Option T}
    (hok : h.wait moved r = .ok (some (result, h'))) (at' : SenderAt) :
    Run (Exchange.Step moved) ⟨h.mail r, at', .idle⟩ [.wake, .take result]
      ⟨h'.mail r, at', .idle⟩ := by
  simp only [Heap.wait, bind_eq_ok, failIf_eq_ok] at hok
  obtain ⟨_, _, hok⟩ := hok
  split_ifs at hok with hsignalled
  · cases hok
    simp only [Heap.setMail_mail, if_true]
    exact (Run.nil.snoc (.wake hsignalled)).snoc .take
  · cases hok

/-- The destructor of a connected sender unlinks the receiver and sets its event. -/
theorem destroy_run {h h' : Heap T} {s r : ℕ} (hopp : h.opp .sender s = some (some r))
    (hok : h.destroy .sender s = .ok h') (at' : ReceiverAt) :
    Run (Exchange.Step moved) ⟨h.mail r, .idle, at'⟩ [.unlink, .leave]
      ⟨h'.mail r, .gone, at'⟩ := by
  simp only [Heap.destroy, hopp, Heap.unregisterOpp, bind_eq_ok, failIf_eq_ok, pure_eq_ok] at hok
  obtain ⟨_, ⟨_, _, _, _, rfl⟩, rfl⟩ := hok
  simp only [if_true, Heap.setOpp_mail, Heap.setMail_mail]
  exact (Run.nil.snoc .unlink).snoc .leave

/-- How a step changes the most recent value since the last return of `wait`. -/
def Event.latest : Option T → Event T → Option T
  | _, store t => some t
  | _, take _ => none
  | value, _ => value

/-- The most recent value that was set since `wait` returned last. -/
def latestSinceTake (trace : List (Event T)) : Option T := trace.foldl Event.latest none

/-- One more step. -/
@[simp] theorem latestSinceTake_snoc (trace : List (Event T)) (event : Event T) :
    latestSinceTake (trace ++ [event]) = Event.latest (latestSinceTake trace) event := by
  simp [latestSinceTake]

/-- After `wait` returned, only later values count. -/
theorem latestSinceTake_append_take (front mid : List (Event T)) (result : Option T) :
    latestSinceTake (front ++ .take result :: mid) = latestSinceTake mid := by
  simp [latestSinceTake, Event.latest]

/-- A most recent value was stored. -/
theorem store_mem_of_latestSinceTake {trace : List (Event T)} {t : T}
    (hlatest : latestSinceTake trace = some t) : .store t ∈ trace := by
  induction trace using List.reverseRecOn with
  | nil => cases hlatest
  | append_singleton trace event ih =>
    rw [latestSinceTake_snoc] at hlatest
    cases event with
    | store t' =>
      cases hlatest
      simp
    | take result => cases hlatest
    | signal => exact List.mem_append_left _ (ih hlatest)
    | unlink => exact List.mem_append_left _ (ih hlatest)
    | leave => exact List.mem_append_left _ (ih hlatest)
    | wake => exact List.mem_append_left _ (ih hlatest)

/-- What the slot holds: the most recent value since the last return of `wait` if there
is one, and nothing exactly if no value was ever stored. -/
structure SlotState (trace : List (Event T)) (data : Option T) : Prop where
  latest : ∀ t, latestSinceTake trace = some t → data = some t
  empty : data = none ↔ ∀ t, .store t ∉ trace

/-- A step that neither stores nor takes keeps the description of the slot. -/
theorem SlotState.quiet {trace : List (Event T)} {data : Option T} (hslot : SlotState trace data)
    {event : Event T} (hlatest : ∀ value, Event.latest value event = value)
    (hstore : ∀ t, event ≠ .store t) : SlotState (trace ++ [event]) data where
  latest t ht := by
    rw [latestSinceTake_snoc, hlatest] at ht
    exact hslot.latest t ht
  empty := by
    rw [hslot.empty]
    refine forall_congr' fun t => not_congr ?_
    simp [(hstore t).symm]

/-- Every step keeps the description of the slot. -/
theorem Exchange.Step.slotState {trace : List (Event T)} {event : Event T} {e e' : Exchange T}
    (hstep : Exchange.Step moved e event e') (hslot : SlotState trace e.mail.data) :
    SlotState (trace ++ [event]) e'.mail.data := by
  cases hstep with
  | store t =>
    refine ⟨by simp [Event.latest, Mail.store], iff_of_false (by simp [Mail.store]) ?_⟩
    exact fun hnone => hnone t (List.mem_append_right _ (List.mem_singleton_self _))
  | signal => exact hslot.quiet (fun _ => rfl) (by simp)
  | unlink => exact hslot.quiet (fun _ => rfl) (by simp)
  | leave => exact hslot.quiet (fun _ => rfl) (by simp)
  | wake => exact hslot.quiet (fun _ => rfl) (by simp)
  | take => exact ⟨by simp [Event.latest], by simpa [Mail.moveOut] using hslot.empty⟩

/-- The slot after every run of a new channel. -/
theorem slotState_of_run {trace : List (Event T)} {e : Exchange T}
    (hrun : Run (Exchange.Step moved) Exchange.fresh trace e) : SlotState trace e.mail.data := by
  refine hrun.invariant (I := fun trace e => SlotState trace e.mail.data) ?_ ?_
  · exact ⟨fun _ hlatest => (nomatch hlatest), iff_of_true rfl fun _ => List.not_mem_nil⟩
  · exact fun _ hslot hstep => hstep.slotState hslot

/-- Every `wait` returns the most recent value set since the previous `wait` returned,
or nothing, and no value is returned by two of them. -/
structure MailboxLaw (trace : List (Event T)) : Prop where
  latest : ∀ front result back, trace = front ++ .take result :: back →
    result = latestSinceTake front
  once : ∀ front t mid t' back,
    trace = front ++ .take (some t) :: (mid ++ .take (some t') :: back) → .store t' ∈ mid

/-- When each `wait` returns, a value was set since the previous one returned, or none
was ever set. -/
def WokenWithValue (trace : List (Event T)) : Prop :=
  ∀ front result back, trace = front ++ .take result :: back →
    latestSinceTake front ≠ none ∨ ∀ t, .store t ∉ front

/-- In every interleaving of a sender and a receiver, `wait` behaves as it should
exactly when it never returns without a new value after an earlier one. -/
theorem mailboxLaw_iff {trace : List (Event T)} {e : Exchange T}
    (hrun : Run (Exchange.Step moved) Exchange.fresh trace e) :
    MailboxLaw trace ↔ WokenWithValue trace := by
  have htake : ∀ front result back, trace = front ++ .take result :: back →
      SlotState front result := by
    rintro front result back rfl
    obtain ⟨t, t', hfront, hstep, _⟩ := hrun.at_step
    have hslot := slotState_of_run hfront
    cases hstep
    exact hslot
  constructor
  · intro hlaw front result back htrace
    obtain ⟨_, hempty⟩ := htake front result back htrace
    rw [← hlaw.latest front result back htrace, ← hempty]
    exact ne_or_eq result none
  · intro hwoken
    have hlatest : ∀ front result back, trace = front ++ .take result :: back →
        result = latestSinceTake front := by
      intro front result back htrace
      obtain ⟨hvalue, hempty⟩ := htake front result back htrace
      cases hsince : latestSinceTake front with
      | some t => exact hvalue t hsince
      | none =>
        rw [hempty]
        exact (hwoken front result back htrace).resolve_left (not_not.mpr hsince)
    refine ⟨hlatest, ?_⟩
    intro front t mid t' back htrace
    have hsecond := hlatest (front ++ .take (some t) :: mid) (some t') back (by simp [htrace])
    rw [latestSinceTake_append_take] at hsecond
    exact store_mem_of_latestSinceTake hsecond.symm

/-- A value that is set and received. -/
theorem mailboxLaw_one_value :
    ∃ e : Exchange ℕ,
      Run (Exchange.Step id) Exchange.fresh [.store 42, .signal, .wake, .take (some 42)] e ∧
      MailboxLaw [.store 42, .signal, .wake, .take (some 42)] := by
  have hrun : Run (Exchange.Step (id : ℕ → ℕ)) Exchange.fresh
      [.store 42, .signal, .wake, .take (some 42)] _ :=
    (((Run.nil.snoc (.store 42)).snoc .signal).snoc (.wake rfl)).snoc .take
  refine ⟨_, hrun, (mailboxLaw_iff hrun).mpr ?_⟩
  intro front result back htrace
  rcases front with _ | ⟨first, _ | ⟨second, _ | ⟨third, _ | ⟨fourth, front⟩⟩⟩⟩
  · simp at htrace
  · simp at htrace
  · simp at htrace
  · cases htrace
    exact Or.inl (by decide)
  · simp at htrace

/-- A sender that sets one value and goes away: the first `wait` returns the value and
the second, woken by the destructor, returns what was left of it. -/
theorem not_mailboxLaw_sender_gone :
    ∃ e : Exchange ℕ,
      Run (Exchange.Step id) Exchange.fresh
        [.store 42, .signal, .wake, .take (some 42), .unlink, .leave, .wake, .take (some 42)] e ∧
      ¬MailboxLaw
        [.store 42, .signal, .wake, .take (some 42), .unlink, .leave, .wake,
          .take (some 42)] := by
  have hrun : Run (Exchange.Step (id : ℕ → ℕ)) Exchange.fresh
      [.store 42, .signal, .wake, .take (some 42), .unlink, .leave, .wake, .take (some 42)] _ :=
    (((((((Run.nil.snoc (.store 42)).snoc .signal).snoc (.wake rfl)).snoc .take).snoc
      .unlink).snoc .leave).snoc (.wake rfl)).snoc .take
  refine ⟨_, hrun, fun hlaw => ?_⟩
  have hsecond := hlaw.latest
    [.store 42, .signal, .wake, .take (some 42), .unlink, .leave, .wake] (some 42) [] rfl
  cases hsecond

end CppJam.Channel
