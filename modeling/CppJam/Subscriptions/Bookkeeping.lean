import CppJam.Runs
import CppJam.Subscriptions.Steps

/-!
# Bookkeeping of subscriptions along every run

Whatever subscribers and notifiers do on one engine, as long as it is defined, its lists hold
the subscriptions in force of live subscribers, each once and in the order of subscription,
and a notification schedules one call for each of them. Not defined are the unsubscriptions
that take all entries of a key: they destroy a locked mutex.
-/

namespace CppJam.Subscriptions

open Runs

variable {Key Tid Args : Type} [DecidableEq Key] {book : List (Subscription Key Tid)}
  {w w' : World Key Tid} {trace : List (Action Key Tid Args)} {action : Action Key Tid Args}

/-- A step leads to a world that is consistent with the book after it, and the calls are
those of the book. -/
theorem Step.consistent (hstep : Step w action w') (hw : w.Consistent book) :
    w'.Consistent (record book action) := by
  obtain ⟨hpossible, calls, hexec⟩ := hstep
  obtain ⟨next, hsound, hnext⟩ := hw.sound hpossible (hw.not_erasesLast hpossible hexec)
  rw [hexec] at hsound
  cases hsound
  exact hnext

/-- A run goes on with an action that is possible and defined. -/
theorem run_snoc {calls : List (Call Key Tid Args)} (hrun : Run Step World.initial trace w)
    (action : Action Key Tid Args) (hpossible : action.Possible w)
    (hexec : action.exec w = .ok (calls, w')) :
    Run Step World.initial (trace ++ [action]) w' :=
  hrun.snoc ⟨hpossible, calls, hexec⟩

/-- The world is consistent with the book of the actions so far. -/
theorem consistent_of_run (hrun : Run Step World.initial trace w) :
    w.Consistent (bookOf trace) := by
  refine hrun.invariant (I := fun trace w => World.Consistent w (bookOf trace)) ?_ ?_
  · exact World.initial_consistent
  · intro trace action t u _ ht hstep
    rw [bookOf, List.foldl_append]
    exact hstep.consistent ht

/-- A book has one subscription for a slot that is held, and none for another. -/
theorem World.Consistent.countP_subscriptionsOf (hw : w.Consistent book)
    (hbook : (book.map Subscription.slot).Nodup) (subscriber set : ℕ) (key : Key) :
    (subscriptionsOf book key).countP (fun s => s.subscriber = subscriber ∧ s.set = set) =
      if (w.held subscriber set key).isSome then 1 else 0 := by
  have hcount : (subscriptionsOf book key).countP
      (fun s => s.subscriber = subscriber ∧ s.set = set) =
      (book.map Subscription.slot).count (subscriber, set, key) := by
    rw [subscriptionsOf, List.countP_filter, List.count, List.countP_map]
    refine List.countP_congr fun s _ => ?_
    simp [Subscription.slot, and_assoc]
  rw [hcount]
  split_ifs with hheld
  · exact List.count_eq_one_of_mem hbook ((hw.agrees.held_isSome_iff _ _ _).mp hheld)
  · exact List.count_eq_zero_of_not_mem (mt (hw.agrees.held_isSome_iff _ _ _).mpr hheld)

/-- The law of subscriptions after the actions of `trace` have led to `w`. -/
structure BookkeepingLaw (trace : List (Action Key Tid Args)) (w : World Key Tid) : Prop where
  /-- A live subscriber has one entry for a key in each set whose container holds the
  key, and no other entry. -/
  one_entry : ∀ key subscriber set, w.alive subscriber →
    (w.engine.list key).countP (fun e => e.subscriber = subscriber ∧ e.set = set) =
      if (w.held subscriber set key).isSome then 1 else 0
  /-- The entries of live subscribers stand in the order in which they subscribed. -/
  in_order : ∀ key, w.engine.liveSubscriptions w.alive key = subscriptionsOf (bookOf trace) key
  /-- A notification schedules one call for each set whose container holds the key, and
  no other call. -/
  notified : ∀ key (args : Args) calls w', (Action.notify key args).exec w = .ok (calls, w') →
    (∀ call ∈ calls, call.key = key ∧ call.args = args) ∧
    ∀ subscriber set, calls.countP (fun c => c.subscriber = subscriber ∧ c.set = set) =
      if (w.held subscriber set key).isSome then 1 else 0
  /-- After an unsubscription, or the end of the subscriber, nothing is scheduled until
  the subscriber subscribes again. -/
  ended : ∀ before action rest subscriber set key, trace = before ++ action :: rest →
    action.Ends (subscriber, set, key) → (∀ a ∈ rest, ¬a.Begins (subscriber, set, key)) →
    ∀ (args : Args) calls w', (Action.notify key args).exec w = .ok (calls, w') →
      ∀ call ∈ calls, ¬(call.subscriber = subscriber ∧ call.set = set)

/-- A notification schedules the calls of the book. -/
theorem calls_of_run (hrun : Run Step World.initial trace w) {key : Key} {args : Args}
    {calls : List (Call Key Tid Args)}
    (hexec : (Action.notify key args).exec w = .ok (calls, w')) :
    calls = (subscriptionsOf (bookOf trace) key).map (Subscription.call args) := by
  have hpossible : (Action.notify key args : Action Key Tid Args).Possible w := trivial
  obtain ⟨next, hsound, _⟩ :=
    (consistent_of_run hrun).sound hpossible fun hlast => by cases hlast.1
  rw [hexec] at hsound
  cases hsound
  rfl

/-- A notification schedules one call for a slot that is held, and none for another. -/
theorem countP_calls_of_run (hrun : Run Step World.initial trace w) {key : Key} {args : Args}
    {calls : List (Call Key Tid Args)}
    (hexec : (Action.notify key args).exec w = .ok (calls, w')) (subscriber set : ℕ) :
    calls.countP (fun c => c.subscriber = subscriber ∧ c.set = set) =
      if (w.held subscriber set key).isSome then 1 else 0 := by
  rw [calls_of_run hrun hexec, List.countP_map,
    ← (consistent_of_run hrun).countP_subscriptionsOf (nodup_bookOf trace)]
  rfl

/-- The law of subscriptions holds after every run. -/
theorem bookkeepingLaw_of_run (hrun : Run Step World.initial trace w) :
    BookkeepingLaw trace w := by
  have hw := consistent_of_run hrun
  refine ⟨?_, hw.agrees.recorded, ?_, ?_⟩
  · intro key subscriber set hlive
    rw [← hw.countP_subscriptionsOf (nodup_bookOf trace), ← hw.agrees.recorded,
      Engine.liveSubscriptions, List.countP_map, List.countP_filter]
    refine List.countP_congr fun e _ => ?_
    have hkeeps : e.subscriber = subscriber → w.alive e.subscriber := fun hsame => hsame ▸ hlive
    rw [decide_eq_true_eq, Bool.and_eq_true, Function.comp_apply, decide_eq_true_eq]
    exact ⟨fun hsame => ⟨hsame, hkeeps hsame.1⟩, fun hsame => hsame.1⟩
  · intro key args calls w' hexec
    refine ⟨?_, countP_calls_of_run hrun hexec⟩
    intro call hcall
    rw [calls_of_run hrun hexec, List.mem_map] at hcall
    obtain ⟨s, hs, rfl⟩ := hcall
    rw [subscriptionsOf, List.mem_filter, decide_eq_true_eq] at hs
    exact ⟨hs.2, rfl⟩
  · rintro before action rest subscriber set key rfl hends hrest args calls w' hexec
    intro call hcall hsame
    have hnone : ¬(w.held subscriber set key).isSome :=
      mt (hw.agrees.held_isSome_iff _ _ _).mp (notMem_bookOf_of_ends hends hrest)
    have hcount := countP_calls_of_run hrun hexec subscriber set
    rw [if_neg hnone, List.countP_eq_zero] at hcount
    exact hcount call hcall (by simpa using hsame)

/-- The law for a sequence of actions: each action that a program can take when its turn comes
is defined, and the law of subscriptions holds after it. -/
def SubscriptionsLaw (trace : List (Action Key Tid Args)) : Prop :=
  ∀ front action back w, trace = front ++ action :: back → Run Step World.initial front w →
    action.Possible w → ∃ calls w', action.exec w = .ok (calls, w') ∧
      BookkeepingLaw (front ++ [action]) w'

/-- The law holds for a sequence of actions exactly when none of its unsubscriptions takes all
entries of a key. -/
theorem subscriptionsLaw_iff (trace : List (Action Key Tid Args)) :
    SubscriptionsLaw trace ↔
      ∀ front action back w, trace = front ++ action :: back → Run Step World.initial front w →
        action.Possible w → ¬action.ErasesLast w := by
  constructor
  · intro hlaw front action back w htrace hrun hpossible
    obtain ⟨calls, w', hexec, _⟩ := hlaw front action back w htrace hrun hpossible
    exact (consistent_of_run hrun).not_erasesLast hpossible hexec
  · intro hcondition front action back w htrace hrun hpossible
    have hlast := hcondition front action back w htrace hrun hpossible
    obtain ⟨w', hexec, _⟩ := (consistent_of_run hrun).sound hpossible hlast
    exact ⟨_, w', hexec, bookkeepingLaw_of_run (run_snoc hrun action hpossible hexec)⟩

namespace Scenario

/-- Two subscribers subscribe to key `7`, the first one twice in the same set; the second
one is destroyed, and a notification follows. -/
def lostSubscriber : List (Action ℕ ℕ ℕ) :=
  [.create, .create, .subscribe 1 2 7 0, .subscribe 0 1 7 0, .subscribe 0 1 7 0, .destroy 1,
    .notify 7 5]

/-- A subscriber subscribes to key `7` and unsubscribes. -/
def onlySubscriber : List (Action ℕ ℕ ℕ) :=
  [.create, .subscribe 0 1 7 0, .unsubscribeKey 0 1 7]

end Scenario

/-- The law holds for a sequence without unsubscriptions. -/
theorem subscriptionsLaw_lostSubscriber : SubscriptionsLaw Scenario.lostSubscriber := by
  refine (subscriptionsLaw_iff _).mpr ?_
  rintro front action back w htrace _ _ ⟨hunsubscribe, _⟩
  have hnone : ∀ a ∈ Scenario.lostSubscriber, a.isUnsubscribe = false := by
    simp [Scenario.lostSubscriber, Action.isUnsubscribe]
  rw [hnone action (by simp [htrace])] at hunsubscribe
  cases hunsubscribe

/-- Unsubscribing the only subscription to a key is not defined. -/
theorem not_subscriptionsLaw_onlySubscriber :
    (∃ w : World ℕ ℕ, Run Step World.initial
        ([.create, .subscribe 0 1 7 0] : List (Action ℕ ℕ ℕ)) w ∧
      (Action.unsubscribeKey 0 1 7 : Action ℕ ℕ ℕ).Possible w ∧
      (Action.unsubscribeKey 0 1 7 : Action ℕ ℕ ℕ).exec w = .error .undefinedBehaviour) ∧
    ¬SubscriptionsLaw Scenario.onlySubscriber := by
  have hstart : Run (Step : World ℕ ℕ → Action ℕ ℕ ℕ → World ℕ ℕ → Prop) World.initial [] _ :=
    Run.nil
  have hrun := run_snoc (run_snoc hstart .create trivial rfl) (.subscribe 0 1 7 0) rfl rfl
  refine ⟨⟨_, hrun, rfl, rfl⟩, fun hlaw => ?_⟩
  obtain ⟨_, _, hexec, _⟩ := hlaw _ (.unsubscribeKey 0 1 7) [] _ rfl hrun rfl
  cases hexec

end CppJam.Subscriptions
