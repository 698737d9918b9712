import Mathlib.Data.List.Nodup
import CppJam.Subscriptions.Book

/-!
# Engine, subscribers and book agree

The entries of live subscribers in the engine's lists, the iterators in the containers of
the subscribers and the subscriptions of the book describe the same thing. Each operation
of the engine keeps this, when containers and book are changed accordingly.
-/

namespace CppJam.Subscriptions

open Checks

variable {Key Tid : Type} [DecidableEq Key] {engine : Engine Key Tid} {alive : ℕ → Bool}
  {held : ℕ → ℕ → Key → Option ℕ} {book : List (Subscription Key Tid)} {created : ℕ}

/-- The entries of live subscribers for a key, as subscriptions. -/
def Engine.liveSubscriptions (alive : ℕ → Bool) (engine : Engine Key Tid) (key : Key) :
    List (Subscription Key Tid) :=
  ((engine.list key).filter (fun e => alive e.subscriber)).map (Entry.subscription key)

/-- The engine agrees with the iterators that live subscribers hold and with the book. -/
structure Agrees (created : ℕ) (engine : Engine Key Tid) (alive : ℕ → Bool)
    (held : ℕ → ℕ → Key → Option ℕ) (book : List (Subscription Key Tid)) : Prop where
  /-- The entry of a live subscriber is held by it. -/
  entry_held : ∀ key, ∀ e ∈ engine.list key, alive e.subscriber →
    held e.subscriber e.set key = some e.node
  /-- An iterator that is held points at an entry of its live holder. -/
  held_entry : ∀ subscriber set key node, held subscriber set key = some node →
    alive subscriber ∧
      ∃ e ∈ engine.list key, e.subscriber = subscriber ∧ e.set = set ∧ e.node = node
  /-- Entries stand in the order of their iterators. -/
  sorted : ∀ key, (engine.list key).Pairwise (fun a b => a.node < b.node)
  /-- Iterators were given out before. -/
  fresh : ∀ key, ∀ e ∈ engine.list key, e.node < engine.next
  /-- Entries are of subscribers that were created. -/
  numbered : ∀ key, ∀ e ∈ engine.list key, e.subscriber < created
  /-- Entries of live subscribers are the subscriptions of the book, in its order. -/
  recorded : ∀ key, engine.liveSubscriptions alive key = subscriptionsOf book key

/-- Entries for one key with the same iterator are the same. -/
theorem Agrees.entry_unique (hagrees : Agrees created engine alive held book) {key : Key}
    {a b : Entry Tid} (ha : a ∈ engine.list key) (hb : b ∈ engine.list key)
    (hnode : a.node = b.node) : a = b := by
  have hnodup : ((engine.list key).map Entry.node).Nodup :=
    List.pairwise_map.mpr ((hagrees.sorted key).imp fun hlt => ne_of_lt hlt)
  exact List.inj_on_of_nodup_map hnodup ha hb hnode

/-- A subscriber holds an iterator exactly for the subscriptions in the book. -/
theorem Agrees.held_isSome_iff (hagrees : Agrees created engine alive held book)
    (subscriber set : ℕ) (key : Key) :
    (held subscriber set key).isSome ↔
      (subscriber, set, key) ∈ book.map Subscription.slot := by
  have hmem : ∀ s, s.key = key → (s ∈ book ↔ s ∈ engine.liveSubscriptions alive key) := by
    intro s hkey
    rw [hagrees.recorded, subscriptionsOf, List.mem_filter]
    simp [hkey]
  constructor
  · intro hsome
    obtain ⟨node, hnode⟩ := Option.isSome_iff_exists.mp hsome
    obtain ⟨hlive, e, he, rfl, rfl, _⟩ := hagrees.held_entry _ _ _ _ hnode
    refine List.mem_map.mpr ⟨e.subscription key, (hmem _ rfl).mpr ?_, rfl⟩
    exact List.mem_map_of_mem (List.mem_filter.mpr ⟨he, hlive⟩)
  · intro hslot
    obtain ⟨s, hs, hslot⟩ := List.mem_map.mp hslot
    cases hslot
    obtain ⟨e, he, hentry⟩ := List.mem_map.mp ((hmem s rfl).mp hs)
    obtain ⟨he, hlive⟩ := List.mem_filter.mp he
    have hheld := hagrees.entry_held _ e he hlive
    rw [show e.subscriber = s.subscriber from congrArg Subscription.subscriber hentry,
      show e.set = s.set from congrArg Subscription.set hentry] at hheld
    exact Option.isSome_of_eq_some hheld

/-- The list of a key after writing one. -/
theorem list_setList (engine : Engine Key Tid) (key key' : Key)
    (list : Option (List (Entry Tid))) :
    (engine.setList key list).list key' =
      if key' = key then list.getD [] else engine.list key' := by
  by_cases hkey : key' = key
  · subst hkey
    simp [Engine.list, Engine.setList]
  · simp [Engine.list, Engine.setList, hkey]

/-- The list of a key after subscribing. -/
theorem list_subscribe (tid : Tid) (set : ℕ) (key key' : Key) (subscriber : ℕ)
    (engine : Engine Key Tid) :
    (engine.subscribe tid set key subscriber).2.list key' =
      if key' = key then engine.list key ++ [⟨engine.next, tid, set, subscriber⟩]
      else engine.list key' := by
  by_cases hkey : key' = key
  · subst hkey
    simp [Engine.list, Engine.subscribe]
  · simp [Engine.list, Engine.subscribe, hkey]

/-- The entries of a key after subscribing. -/
theorem mem_list_subscribe {tid : Tid} {set : ℕ} {key key' : Key} {subscriber : ℕ}
    {e : Entry Tid} :
    e ∈ (engine.subscribe tid set key subscriber).2.list key' ↔
      e ∈ engine.list key' ∨ (key' = key ∧ e = ⟨engine.next, tid, set, subscriber⟩) := by
  rw [list_subscribe]
  split_ifs with hkey
  · subst hkey
    simp
  · simp [hkey]

/-- The iterators held, with one changed. -/
def setHeld (held : ℕ → ℕ → Key → Option ℕ) (subscriber set : ℕ) (key : Key) (node : Option ℕ) :
    ℕ → ℕ → Key → Option ℕ :=
  fun subscriber' set' key' =>
    if (subscriber', set', key') = (subscriber, set, key) then node
    else held subscriber' set' key'

/-- A new entry together with a new iterator keeps the agreement. -/
theorem Agrees.subscribe (hagrees : Agrees created engine alive held book) {subscriber set : ℕ}
    {key : Key} (halive : alive subscriber) (hcreated : subscriber < created)
    (hnew : held subscriber set key = none) (tid : Tid) :
    Agrees created (engine.subscribe tid set key subscriber).2 alive
      (setHeld held subscriber set key (some engine.next))
      (book ++ [⟨tid, subscriber, set, key⟩]) where
  entry_held key' e he hlive := by
    rw [setHeld]
    rcases mem_list_subscribe.mp he with he | ⟨rfl, rfl⟩
    · have hold := hagrees.entry_held key' e he hlive
      rw [if_neg, hold]
      rintro ⟨⟩
      rw [hnew] at hold
      cases hold
    · exact if_pos rfl
  held_entry subscriber' set' key' node hnode := by
    rw [setHeld] at hnode
    split_ifs at hnode with hself
    · cases hself
      cases hnode
      exact ⟨halive, _, mem_list_subscribe.mpr (Or.inr ⟨rfl, rfl⟩), rfl, rfl, rfl⟩
    · obtain ⟨hlive, e, he, hpoints⟩ := hagrees.held_entry _ _ _ _ hnode
      exact ⟨hlive, e, mem_list_subscribe.mpr (Or.inl he), hpoints⟩
  sorted key' := by
    rw [list_subscribe]
    split_ifs with hkey
    · rw [List.pairwise_append]
      refine ⟨hagrees.sorted key, List.pairwise_singleton _ _, ?_⟩
      intro a ha b hb
      rw [List.mem_singleton.mp hb]
      exact hagrees.fresh key a ha
    · exact hagrees.sorted key'
  fresh key' e he := by
    rcases mem_list_subscribe.mp he with he | ⟨_, rfl⟩
    · exact Nat.lt_succ_of_lt (hagrees.fresh key' e he)
    · exact Nat.lt_succ_self _
  numbered key' e he := by
    rcases mem_list_subscribe.mp he with he | ⟨_, rfl⟩
    · exact hagrees.numbered key' e he
    · exact hcreated
  recorded key' := by
    have hrecorded := hagrees.recorded key'
    rw [Engine.liveSubscriptions, subscriptionsOf] at hrecorded ⊢
    rw [list_subscribe, List.filter_append, ← hrecorded]
    by_cases hkey : key' = key
    · subst hkey
      simp [halive, Entry.subscription]
    · simp [hkey, Ne.symm hkey]

/-- Erasing entries from one list keeps the agreement, when the iterators that point at
the erased ones are not held any more and the book changes in the same way. -/
theorem Agrees.erase (hagrees : Agrees created engine alive held book) {key : Key}
    {P : Entry Tid → Bool} {held' : ℕ → ℕ → Key → Option ℕ} {book' : List (Subscription Key Tid)}
    {list : Option (List (Entry Tid))} (hlist : list.getD [] = (engine.list key).filter P)
    (hkept : ∀ key', ∀ e ∈ engine.list key', alive e.subscriber → (key' = key → P e) →
      held' e.subscriber e.set key' = held e.subscriber e.set key')
    (hheld : ∀ subscriber set key' node, held' subscriber set key' = some node →
      held subscriber set key' = some node ∧ (key' = key → ∀ e ∈ engine.list key,
        e.subscriber = subscriber → e.set = set → e.node = node → P e))
    (hbook : ∀ key', (engine.setList key list).liveSubscriptions alive key' =
      subscriptionsOf book' key') :
    Agrees created (engine.setList key list) alive held' book' := by
  have hmem : ∀ key' e, e ∈ (engine.setList key list).list key' ↔
      e ∈ engine.list key' ∧ (key' = key → P e) := by
    intro key' e
    rw [list_setList]
    split_ifs with hkey
    · subst hkey
      simp [hlist]
    · simp [hkey]
  refine ⟨?_, ?_, ?_, ?_, ?_, hbook⟩
  · intro key' e he hlive
    obtain ⟨hold, hP⟩ := (hmem key' e).mp he
    rw [hkept key' e hold hlive hP]
    exact hagrees.entry_held key' e hold hlive
  · intro subscriber set key' node hnode
    obtain ⟨hold, hP⟩ := hheld subscriber set key' node hnode
    obtain ⟨hlive, e, he, hsubscriber, hset, hnode'⟩ := hagrees.held_entry _ _ _ _ hold
    refine ⟨hlive, e, (hmem key' e).mpr ⟨he, ?_⟩, hsubscriber, hset, hnode'⟩
    rintro rfl
    exact hP rfl e he hsubscriber hset hnode'
  · intro key'
    rw [list_setList]
    split_ifs with hkey
    · rw [hlist]
      exact (hagrees.sorted key).filter P
    · exact hagrees.sorted key'
  · exact fun key' e he => hagrees.fresh key' e ((hmem key' e).mp he).1
  · exact fun key' e he => hagrees.numbered key' e ((hmem key' e).mp he).1

/-- A list that is written back as filtered is filtered for the book. -/
theorem liveSubscriptions_setList {key : Key} {P : Entry Tid → Bool}
    {Q : Subscription Key Tid → Bool} {list : Option (List (Entry Tid))}
    (hlist : list.getD [] = (engine.list key).filter P)
    (hQ : ∀ e ∈ engine.list key, alive e.subscriber → P e = Q (e.subscription key))
    (hother : ∀ s : Subscription Key Tid, s.key ≠ key → Q s) (key' : Key) :
    (engine.setList key list).liveSubscriptions alive key' =
      (engine.liveSubscriptions alive key').filter Q := by
  rw [Engine.liveSubscriptions, Engine.liveSubscriptions, List.filter_map, List.filter_filter,
    list_setList]
  split_ifs with hkey
  · subst hkey
    rw [hlist, List.filter_filter]
    congr 1
    refine List.filter_congr fun e he => ?_
    cases hlive : alive e.subscriber
    · simp
    · simp [hQ e he hlive]
  · congr 1
    refine List.filter_congr fun e _ => ?_
    simp [hother (e.subscription key') hkey]

/-- Erasing at an iterator is defined for a key without a list, and for an iterator that is in
the list together with another one. -/
theorem unsubscribe_eq_ok {key : Key} {node : ℕ} {engine' : Engine Key Tid} :
    engine.unsubscribe key node = .ok engine' ↔
      engine.map key = none ∧ engine = engine' ∨
      ∃ list, engine.map key = some list ∧ node ∈ list.map Entry.node ∧
        list.filter (fun e => e.node ≠ node) ≠ [] ∧
        engine.setList key (some (list.filter (fun e => e.node ≠ node))) = engine' := by
  cases hmap : engine.map key with
  | none => simp [Engine.unsubscribe, hmap]
  | some list =>
    simp only [Engine.unsubscribe, hmap, bind_eq_ok, failIf_eq_ok, pure_eq_ok, not_not,
      exists_and_left, exists_const, reduceCtorEq, false_and, false_or, Option.some.injEq,
      exists_eq_left', ne_eq]

/-- Erasing at the iterator of an entry is defined when it is not the only one, and filters the
list. -/
theorem unsubscribe_of_mem {key : Key} {entry : Entry Tid} (hentry : entry ∈ engine.list key)
    (hother : ∃ e ∈ engine.list key, e.node ≠ entry.node) :
    ∃ list, engine.unsubscribe key entry.node = .ok (engine.setList key list) ∧
      list.getD [] = (engine.list key).filter (fun e => e.node ≠ entry.node) := by
  obtain ⟨e, he, hne⟩ := hother
  cases hmap : engine.map key with
  | none => simp [Engine.list, hmap] at hentry
  | some list =>
    have hlist : engine.list key = list := by simp [Engine.list, hmap]
    rw [hlist] at hentry he ⊢
    refine ⟨some (list.filter (fun e => e.node ≠ entry.node)), ?_, rfl⟩
    refine unsubscribe_eq_ok.mpr (Or.inr ⟨list, hmap, List.mem_map_of_mem hentry, ?_, rfl⟩)
    exact List.ne_nil_of_mem (List.mem_filter.mpr ⟨he, by simpa using hne⟩)

/-- The entries after erasing at an iterator, which does not empty a list. -/
theorem mem_list_of_unsubscribe {key : Key} {node : ℕ} {engine' : Engine Key Tid}
    (hok : engine.unsubscribe key node = .ok engine') (key' : Key) :
    (∀ e, e ∈ engine'.list key' ↔ e ∈ engine.list key' ∧ (key' = key → e.node ≠ node)) ∧
      (engine.list key' ≠ [] → engine'.list key' ≠ []) := by
  rcases unsubscribe_eq_ok.mp hok with ⟨hmap, rfl⟩ | ⟨list, hmap, _, hrest, rfl⟩
  · refine ⟨fun e => (and_iff_left_of_imp ?_).symm, id⟩
    rintro he rfl
    simp [Engine.list, hmap] at he
  · have hlist : engine.list key = list := by simp [Engine.list, hmap]
    rw [list_setList]
    split_ifs with hkey
    · subst hkey
      exact ⟨by simp [hlist], fun _ => hrest⟩
    · simp [hkey]

/-- Among the entries of live subscribers, the one at an iterator is the one of its
holder. -/
theorem Agrees.node_eq_iff (hagrees : Agrees created engine alive held book) {key : Key}
    {entry e : Entry Tid} (hentry : entry ∈ engine.list key) (hlive : alive entry.subscriber)
    (he : e ∈ engine.list key) (halive : alive e.subscriber) :
    e.node = entry.node ↔ e.subscriber = entry.subscriber ∧ e.set = entry.set := by
  constructor
  · intro hnode
    rw [hagrees.entry_unique he hentry hnode]
    exact ⟨rfl, rfl⟩
  · rintro ⟨hsubscriber, hset⟩
    have hheld := hagrees.entry_held key e he halive
    rw [hsubscriber, hset, hagrees.entry_held key entry hentry hlive] at hheld
    exact (Option.some.inj hheld).symm

/-- The entry of another slot is not the one at an iterator that is held. -/
theorem Agrees.node_ne (hagrees : Agrees created engine alive held book) {subscriber set : ℕ}
    {key : Key} {node : ℕ} (hnode : held subscriber set key = some node) {e : Entry Tid}
    (he : e ∈ engine.list key) (hslot : ¬(e.subscriber = subscriber ∧ e.set = set)) :
    e.node ≠ node := by
  obtain ⟨_, entry, hentry, rfl, rfl, rfl⟩ := hagrees.held_entry _ _ _ _ hnode
  intro hsame
  obtain rfl := hagrees.entry_unique he hentry hsame
  exact hslot ⟨rfl, rfl⟩

/-- A book without a slot is not changed by dropping it. -/
theorem Agrees.filter_slot (hagrees : Agrees created engine alive held book) {subscriber set : ℕ}
    {key : Key} (hnone : held subscriber set key = none) :
    book.filter (fun s => s.slot ≠ (subscriber, set, key)) = book := by
  rw [List.filter_eq_self]
  intro s hs
  rw [decide_eq_true_eq]
  intro hslot
  have hsome := (hagrees.held_isSome_iff subscriber set key).mpr
    (hslot ▸ List.mem_map_of_mem hs)
  rw [hnone] at hsome
  cases hsome

/-- Erasing at an iterator that is held is defined when it is not the only one of its key, and
keeps the agreement when the iterator is dropped. -/
theorem Agrees.unsubscribe (hagrees : Agrees created engine alive held book) {subscriber set : ℕ}
    {key : Key} {node : ℕ} (hnode : held subscriber set key = some node)
    (hother : ∃ e ∈ engine.list key, e.node ≠ node) :
    ∃ engine', engine.unsubscribe key node = .ok engine' ∧
      Agrees created engine' alive (setHeld held subscriber set key none)
        (book.filter (fun s => s.slot ≠ (subscriber, set, key))) := by
  obtain ⟨hlive, entry, hentry, rfl, rfl, rfl⟩ := hagrees.held_entry _ _ _ _ hnode
  obtain ⟨list, hok, hlist⟩ := unsubscribe_of_mem hentry hother
  refine ⟨_, hok, hagrees.erase hlist ?_ ?_ ?_⟩
  · intro key' e he halive hkept
    refine if_neg ?_
    intro hslot
    obtain ⟨hsubscriber, hset, rfl⟩ : e.subscriber = entry.subscriber ∧ e.set = entry.set ∧
      key' = key := by simpa using hslot
    have hnode := (hagrees.node_eq_iff hentry hlive he halive).mpr ⟨hsubscriber, hset⟩
    simpa [hnode] using hkept rfl
  · intro subscriber set key' node hheld
    rw [setHeld] at hheld
    split_ifs at hheld with hslot
    refine ⟨hheld, ?_⟩
    rintro rfl e he rfl rfl rfl
    rw [decide_eq_true_eq]
    intro hnode
    exact hslot (by rw [hagrees.entry_unique he hentry hnode])
  · intro key'
    rw [liveSubscriptions_setList hlist (Q := fun s => s.slot ≠ (entry.subscriber, entry.set, key)),
      hagrees.recorded, subscriptionsOf_filter]
    · intro e he halive
      simp [hagrees.node_eq_iff hentry hlive he halive, Subscription.slot, Entry.subscription]
    · intro s hkey
      simp [Subscription.slot, hkey]

omit [DecidableEq Key] in
/-- The loop of a notification schedules the calls of live entries and keeps them. -/
theorem notifyLoop_eq {Args : Type} (key : Key) (args : Args) (list : List (Entry Tid)) :
    notifyLoop alive key args list =
      (((list.filter (fun e => alive e.subscriber)).map (Entry.subscription key)).map
          (Subscription.call args),
        list.filter (fun e => alive e.subscriber)) := by
  induction list with
  | nil => rfl
  | cons e rest ih =>
    rw [notifyLoop, ih]
    cases hlive : alive e.subscriber
    · simp [hlive]
    · simp [hlive, Subscription.call, Entry.subscription]

/-- A notification schedules the calls of the book, and keeps the agreement. -/
theorem Agrees.notify {Args : Type} (hagrees : Agrees created engine alive held book) (key : Key)
    (args : Args) :
    (engine.notify alive key args).1 = (subscriptionsOf book key).map (Subscription.call args) ∧
      Agrees created (engine.notify alive key args).2 alive held book := by
  rw [← hagrees.recorded, Engine.liveSubscriptions, Engine.list, Engine.notify]
  cases hmap : engine.map key with
  | none => exact ⟨rfl, hagrees⟩
  | some list =>
    have hlist : engine.list key = list := by simp [Engine.list, hmap]
    have hkept : (some (list.filter (fun e => alive e.subscriber))).getD [] =
        (engine.list key).filter (fun e => alive e.subscriber) := by rw [hlist]; rfl
    simp only [notifyLoop_eq, Option.getD_some, true_and]
    refine hagrees.erase hkept (fun _ _ _ _ _ => rfl) ?_ ?_
    · intro subscriber set key' node hheld
      refine ⟨hheld, ?_⟩
      rintro rfl e he rfl rfl rfl
      exact (hagrees.held_entry _ _ _ _ hheld).1
    · intro key'
      rw [liveSubscriptions_setList hkept (Q := fun _ => true), List.filter_true, hagrees.recorded]
      · exact fun e _ halive => halive
      · exact fun _ _ => rfl

end CppJam.Subscriptions
