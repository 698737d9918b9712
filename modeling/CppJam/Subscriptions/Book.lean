import Mathlib.Data.List.Induction
import CppJam.Subscriptions.Engine

/-!
# The book of subscriptions

What the engine and its subscribers are for: one book of the subscriptions in force, in
the order in which they were made. Subscribing twice to one key in one set has no
effect, destroying a subscriber ends all its subscriptions, and a notification calls the
subscriptions of its key.
-/

namespace CppJam.Subscriptions

variable {Key Tid Args : Type} [DecidableEq Key]

/-- A subscription in force. -/
structure Subscription (Key Tid : Type) where
  tid : Tid
  subscriber : ℕ
  set : ℕ
  key : Key
  deriving DecidableEq

/-- Subscriber, set and key of a subscription. -/
def Subscription.slot (s : Subscription Key Tid) : ℕ × ℕ × Key := (s.subscriber, s.set, s.key)

/-- The call that notifies of a subscription. -/
def Subscription.call (args : Args) (s : Subscription Key Tid) : Call Key Tid Args :=
  ⟨s.tid, s.subscriber, s.set, s.key, args⟩

/-- The subscription that an entry for `key` stands for. -/
def Entry.subscription (key : Key) (e : Entry Tid) : Subscription Key Tid :=
  ⟨e.tid, e.subscriber, e.set, key⟩

/-- What an action does to the book. -/
def record (book : List (Subscription Key Tid)) :
    Action Key Tid Args → List (Subscription Key Tid)
  | .create => book
  | .destroy subscriber => book.filter (fun s => s.subscriber ≠ subscriber)
  | .subscribe subscriber set key tid =>
    if book.any (fun s => s.slot = (subscriber, set, key)) then book
    else book ++ [⟨tid, subscriber, set, key⟩]
  | .unsubscribeKey subscriber set key => book.filter (fun s => s.slot ≠ (subscriber, set, key))
  | .unsubscribeSet subscriber set _ =>
    book.filter (fun s => ¬(s.subscriber = subscriber ∧ s.set = set))
  | .unsubscribe subscriber _ => book.filter (fun s => s.subscriber ≠ subscriber)
  | .notify _ _ => book

/-- The book after a sequence of actions. -/
def bookOf (trace : List (Action Key Tid Args)) : List (Subscription Key Tid) :=
  trace.foldl record []

/-- The subscriptions of a key. -/
def subscriptionsOf (book : List (Subscription Key Tid)) (key : Key) :
    List (Subscription Key Tid) :=
  book.filter (fun s => s.key = key)

/-- The calls that an action schedules. -/
def callsOf (book : List (Subscription Key Tid)) :
    Action Key Tid Args → List (Call Key Tid Args)
  | .notify key args => (subscriptionsOf book key).map (Subscription.call args)
  | _ => []

/-- Dropping subscriptions drops them from those of each key. -/
theorem subscriptionsOf_filter (P : Subscription Key Tid → Bool)
    (book : List (Subscription Key Tid)) (key : Key) :
    subscriptionsOf (book.filter P) key = (subscriptionsOf book key).filter P := by
  rw [subscriptionsOf, subscriptionsOf, List.filter_filter, List.filter_filter]
  exact List.filter_congr fun s _ => Bool.and_comm _ _

omit [DecidableEq Key] in
/-- Dropping subscriptions from the book keeps them distinct. -/
theorem nodup_filter {book : List (Subscription Key Tid)} (P : Subscription Key Tid → Bool)
    (hbook : (book.map Subscription.slot).Nodup) :
    ((book.filter P).map Subscription.slot).Nodup :=
  hbook.sublist (List.filter_sublist.map Subscription.slot)

/-- An action keeps the subscriptions of the book distinct. -/
theorem nodup_record {book : List (Subscription Key Tid)}
    (hbook : (book.map Subscription.slot).Nodup) (action : Action Key Tid Args) :
    ((record book action).map Subscription.slot).Nodup := by
  cases action with
  | create => exact hbook
  | destroy subscriber => exact nodup_filter _ hbook
  | subscribe subscriber set key tid =>
    rw [record]
    split_ifs with hany
    · exact hbook
    · rw [List.map_append, List.nodup_append]
      refine ⟨hbook, List.nodup_singleton _, ?_⟩
      intro a ha b hb hab
      obtain ⟨s, hs, hslot⟩ := List.mem_map.mp ha
      rw [List.map_singleton, List.mem_singleton] at hb
      refine hany (List.any_eq_true.mpr ⟨s, hs, ?_⟩)
      rw [decide_eq_true_eq, hslot, hab, hb]
      rfl
  | unsubscribeKey subscriber set key => exact nodup_filter _ hbook
  | unsubscribeSet subscriber set order => exact nodup_filter _ hbook
  | unsubscribe subscriber order => exact nodup_filter _ hbook
  | notify key args => exact hbook

/-- Each subscriber has at most one subscription to a key in a set. -/
theorem nodup_bookOf (trace : List (Action Key Tid Args)) :
    ((bookOf trace).map Subscription.slot).Nodup := by
  induction trace using List.reverseRecOn with
  | nil => exact List.nodup_nil
  | append_singleton trace action ih =>
    rw [bookOf, List.foldl_append]
    exact nodup_record ih action

/-- The action ends the subscription of a slot. -/
def Action.Ends (slot : ℕ × ℕ × Key) : Action Key Tid Args → Prop
  | destroy subscriber => slot.1 = subscriber
  | unsubscribeKey subscriber set key => slot = (subscriber, set, key)
  | unsubscribeSet subscriber set _ => slot.1 = subscriber ∧ slot.2.1 = set
  | unsubscribe subscriber _ => slot.1 = subscriber
  | _ => False

/-- The action is an unsubscription that takes all entries of a key. -/
def Action.ErasesLast (w : World Key Tid) (action : Action Key Tid Args) : Prop :=
  action.isUnsubscribe = true ∧ ∃ key, w.engine.list key ≠ [] ∧
    ∀ e ∈ w.engine.list key, action.Ends (e.subscriber, e.set, key)

/-- The action asks for the subscription of a slot. -/
def Action.Begins (slot : ℕ × ℕ × Key) : Action Key Tid Args → Prop
  | subscribe subscriber set key _ => slot = (subscriber, set, key)
  | _ => False

/-- An action that ends the subscription of a slot removes it from the book. -/
theorem notMem_record_of_ends (book : List (Subscription Key Tid)) {slot : ℕ × ℕ × Key}
    {action : Action Key Tid Args} (hends : action.Ends slot) :
    slot ∉ (record book action).map Subscription.slot := by
  intro hmem
  obtain ⟨s, hs, rfl⟩ := List.mem_map.mp hmem
  cases action with
  | destroy subscriber => simp_all [record, Action.Ends, Subscription.slot]
  | unsubscribeKey subscriber set key => simp_all [record, Action.Ends, Subscription.slot]
  | unsubscribeSet subscriber set order => simp_all [record, Action.Ends, Subscription.slot]
  | unsubscribe subscriber order => simp_all [record, Action.Ends, Subscription.slot]
  | create => exact hends
  | subscribe subscriber set key tid => exact hends
  | notify key args => exact hends

/-- Only a request for its subscription brings a slot into the book. -/
theorem notMem_record {book : List (Subscription Key Tid)} {slot : ℕ × ℕ × Key}
    {action : Action Key Tid Args} (hbook : slot ∉ book.map Subscription.slot)
    (hbegins : ¬action.Begins slot) : slot ∉ (record book action).map Subscription.slot := by
  have hfilter : ∀ P : Subscription Key Tid → Bool,
      slot ∉ (book.filter P).map Subscription.slot :=
    fun P hmem => hbook ((List.filter_sublist.map Subscription.slot).mem hmem)
  cases action with
  | create => exact hbook
  | destroy subscriber => exact hfilter _
  | subscribe subscriber set key tid =>
    rw [record]
    split_ifs with hany
    · exact hbook
    · rw [List.map_append, List.mem_append, List.map_singleton, List.mem_singleton]
      rintro (hmem | hslot)
      · exact hbook hmem
      · exact hbegins hslot
  | unsubscribeKey subscriber set key => exact hfilter _
  | unsubscribeSet subscriber set order => exact hfilter _
  | unsubscribe subscriber order => exact hfilter _
  | notify key args => exact hbook

/-- A subscription that was ended stays out of the book until it is asked for again. -/
theorem notMem_bookOf_of_ends {before rest : List (Action Key Tid Args)}
    {slot : ℕ × ℕ × Key} {action : Action Key Tid Args} (hends : action.Ends slot)
    (hrest : ∀ a ∈ rest, ¬a.Begins slot) :
    slot ∉ (bookOf (before ++ action :: rest)).map Subscription.slot := by
  induction rest using List.reverseRecOn with
  | nil =>
    rw [bookOf, List.foldl_append]
    exact notMem_record_of_ends _ hends
  | append_singleton rest a ih =>
    rw [← List.cons_append, ← List.append_assoc, bookOf, List.foldl_append]
    refine notMem_record (ih fun b hb => ?_) ?_
    · exact hrest b (List.mem_append_left _ hb)
    · exact hrest a (List.mem_append_right _ (List.mem_singleton_self a))

end CppJam.Subscriptions
