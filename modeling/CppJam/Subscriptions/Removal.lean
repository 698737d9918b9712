import CppJam.Subscriptions.Consistency

/-!
# Ending several subscriptions at once

A subscriber that leaves a set, or everything, hands all iterators of the set to the
engine, in the order in which its containers are enumerated. A subscriber that is
destroyed hands none: its entries just stop being live.
-/

namespace CppJam.Subscriptions

open Checks

variable {Key Tid : Type} [DecidableEq Key] {engine : Engine Key Tid} {alive : ℕ → Bool}
  {held : ℕ → ℕ → Key → Option ℕ} {book : List (Subscription Key Tid)} {created subscriber : ℕ}

/-- The entries after erasing at several iterators, which does not empty a list. -/
theorem mem_list_of_unsubscribeAll {order : List (ℕ × Key × ℕ)} {engine' : Engine Key Tid}
    (hok : engine.unsubscribeAll order = .ok engine') (key' : Key) :
    (∀ e, e ∈ engine'.list key' ↔
      e ∈ engine.list key' ∧ ∀ x ∈ order, key' = x.2.1 → e.node ≠ x.2.2) ∧
      (engine.list key' ≠ [] → engine'.list key' ≠ []) := by
  induction order generalizing engine with
  | nil =>
    cases hok
    simp
  | cons x order ih =>
    rw [Engine.unsubscribeAll, List.foldlM_cons, bind_eq_ok] at hok
    obtain ⟨mid, hmid, hrest⟩ := hok
    obtain ⟨hmem, hne⟩ := mem_list_of_unsubscribe hmid key'
    obtain ⟨hmem', hne'⟩ := ih hrest
    refine ⟨fun e => ?_, fun h => hne' (hne h)⟩
    rw [hmem', hmem, List.forall_mem_cons, and_assoc]

/-- When erasing at several iterators is defined, an entry is left of each key that has one. -/
theorem exists_kept_of_unsubscribeAll {order : List (ℕ × Key × ℕ)} {engine' : Engine Key Tid}
    (hok : engine.unsubscribeAll order = .ok engine') {key : Key} (hne : engine.list key ≠ []) :
    ∃ e ∈ engine.list key, ∀ set, (set, key, e.node) ∉ order := by
  obtain ⟨hmem, hkept⟩ := mem_list_of_unsubscribeAll hok key
  obtain ⟨e, he⟩ := List.exists_mem_of_ne_nil _ (hkept hne)
  obtain ⟨hold, hnode⟩ := (hmem e).mp he
  exact ⟨e, hold, fun set hmem => hnode _ hmem rfl rfl⟩

/-- Unsubscribing several slots of one subscriber, each held, is defined when no list gets
empty, and keeps the agreement. -/
theorem Agrees.unsubscribeAll {subscriber : ℕ} {order : List (ℕ × Key × ℕ)}
    (hagrees : Agrees created engine alive held book)
    (hheld : ∀ set key node, (set, key, node) ∈ order → held subscriber set key = some node)
    (honce : (order.map (fun e => (e.1, e.2.1))).Nodup)
    (hothers : ∀ x ∈ order, ∃ e ∈ engine.list x.2.1,
      ∀ y ∈ order, x.2.1 = y.2.1 → e.node ≠ y.2.2) :
    ∃ engine', engine.unsubscribeAll order = .ok engine' ∧
      Agrees created engine' alive
        (order.foldl (fun held e => setHeld held subscriber e.1 e.2.1 none) held)
        (order.foldl (fun book e => book.filter (fun s => s.slot ≠ (subscriber, e.1, e.2.1)))
          book) := by
  induction order generalizing engine held book with
  | nil => exact ⟨engine, rfl, hagrees⟩
  | cons e order ih =>
    obtain ⟨set, key, node⟩ := e
    obtain ⟨hnotMem, honce⟩ := List.nodup_cons.mp honce
    obtain ⟨other, hother, hkept⟩ := hothers (set, key, node) List.mem_cons_self
    obtain ⟨engine₁, hok, hagrees₁⟩ := hagrees.unsubscribe
      (hheld set key node List.mem_cons_self)
      ⟨other, hother, hkept (set, key, node) List.mem_cons_self rfl⟩
    have hheld₁ : ∀ set' key' node', (set', key', node') ∈ order →
        setHeld held subscriber set key none subscriber set' key' = some node' := by
      intro set' key' node' hmem
      rw [setHeld, if_neg]
      · exact hheld set' key' node' (List.mem_cons_of_mem _ hmem)
      · rintro ⟨⟩
        exact hnotMem (List.mem_map_of_mem (f := fun e => (e.1, e.2.1)) hmem)
    have hothers₁ : ∀ x ∈ order, ∃ e ∈ engine₁.list x.2.1,
        ∀ y ∈ order, x.2.1 = y.2.1 → e.node ≠ y.2.2 := by
      intro x hx
      obtain ⟨e, he, hkept⟩ := hothers x (List.mem_cons_of_mem _ hx)
      refine ⟨e, ((mem_list_of_unsubscribe hok x.2.1).1 e).mpr ⟨he, ?_⟩, ?_⟩
      · exact hkept (set, key, node) List.mem_cons_self
      · exact fun y hy => hkept y (List.mem_cons_of_mem _ hy)
    obtain ⟨engine', hok', hagrees'⟩ := ih hagrees₁ hheld₁ honce hothers₁
    refine ⟨engine', ?_, hagrees'⟩
    rw [Engine.unsubscribeAll, List.foldlM_cons, bind_eq_ok]
    exact ⟨engine₁, hok, hok'⟩

/-- What is held after several slots of a subscriber were dropped. -/
theorem foldl_setHeld_eq_some {order : List (ℕ × Key × ℕ)} {subscriber' set' : ℕ} {key' : Key}
    {node : ℕ} :
    order.foldl (fun held e => setHeld held subscriber e.1 e.2.1 none) held subscriber' set' key' =
        some node ↔
      held subscriber' set' key' = some node ∧
        ∀ e ∈ order, (subscriber', set', key') ≠ (subscriber, e.1, e.2.1) := by
  induction order generalizing held with
  | nil => simp
  | cons e order ih =>
    rw [List.foldl_cons, ih, setHeld, List.forall_mem_cons]
    split_ifs with hslot
    · simp [hslot]
    · simp [hslot]

omit [DecidableEq Key] in
/-- Filtering a book several times. -/
theorem foldl_filter {ι : Type} (P : ι → Subscription Key Tid → Bool) (order : List ι)
    (book : List (Subscription Key Tid)) :
    order.foldl (fun book e => book.filter (P e)) book =
      book.filter (fun s => order.all (fun e => P e s)) := by
  induction order generalizing book with
  | nil => simp
  | cons e order ih =>
    rw [List.foldl_cons, ih, List.filter_filter]
    refine List.filter_congr fun s _ => ?_
    rw [List.all_cons, Bool.and_comm]

/-- Unsubscribing all that a subscriber holds in some sets is defined when no list gets empty,
and keeps the agreement when these containers and their subscriptions are dropped. -/
theorem Agrees.unsubscribeSets {P : ℕ → Prop} [DecidablePred P] {order : List (ℕ × Key × ℕ)}
    (hagrees : Agrees created engine alive held book)
    (hmem : ∀ set key node,
      (set, key, node) ∈ order ↔ P set ∧ held subscriber set key = some node)
    (honce : (order.map (fun e => (e.1, e.2.1))).Nodup)
    (hothers : ∀ x ∈ order, ∃ e ∈ engine.list x.2.1,
      ∀ y ∈ order, x.2.1 = y.2.1 → e.node ≠ y.2.2) :
    ∃ engine', engine.unsubscribeAll order = .ok engine' ∧
      Agrees created engine' alive
        (fun subscriber' set' key' =>
          if subscriber' = subscriber ∧ P set' then none else held subscriber' set' key')
        (book.filter (fun s => ¬(s.subscriber = subscriber ∧ P s.set))) := by
  obtain ⟨engine', hok, hagrees'⟩ :=
    hagrees.unsubscribeAll (fun set key node he => ((hmem set key node).mp he).2) honce hothers
  refine ⟨engine', hok, ?_⟩
  convert hagrees' using 1
  · funext subscriber' set' key'
    ext node
    rw [foldl_setHeld_eq_some]
    split_ifs with hdropped
    · obtain ⟨rfl, hP⟩ := hdropped
      simp only [false_iff, not_and]
      intro hnode hall
      exact hall _ ((hmem set' key' node).mpr ⟨hP, hnode⟩) rfl
    · refine (and_iff_left fun e he hslot => hdropped ?_).symm
      cases hslot
      exact ⟨rfl, ((hmem e.1 e.2.1 e.2.2).mp he).1⟩
  · rw [foldl_filter (fun (e : ℕ × Key × ℕ) s => s.slot ≠ (subscriber, e.1, e.2.1))]
    refine List.filter_congr fun s hs => ?_
    rw [Bool.eq_iff_iff, decide_eq_true_eq, List.all_eq_true]
    have hheld := hagrees.held_isSome_iff s.subscriber s.set s.key
    obtain ⟨node, hnode⟩ := Option.isSome_iff_exists.mp (hheld.mpr (List.mem_map_of_mem hs))
    constructor
    · intro hkept e he
      rw [decide_eq_true_eq]
      intro hslot
      have hset : s.set = e.1 := congrArg (fun slot => slot.2.1) hslot
      exact hkept ⟨congrArg Prod.fst hslot, hset ▸ ((hmem e.1 e.2.1 e.2.2).mp he).1⟩
    · rintro hall ⟨hsubscriber, hP⟩
      have hmem' := (hmem s.set s.key node).mpr ⟨hP, hsubscriber ▸ hnode⟩
      simpa [Subscription.slot, hsubscriber] using hall _ hmem'

/-- The end of a subscriber keeps the agreement: its entries are not live any more. -/
theorem Agrees.destroy (hagrees : Agrees created engine alive held book) (subscriber : ℕ) :
    Agrees created engine (fun s => s ≠ subscriber && alive s)
      (fun s set key => if s = subscriber then none else held s set key)
      (book.filter (fun s => s.subscriber ≠ subscriber)) where
  entry_held key e he hlive := by
    obtain ⟨hne, hlive⟩ : e.subscriber ≠ subscriber ∧ alive e.subscriber := by simpa using hlive
    rw [if_neg hne]
    exact hagrees.entry_held key e he hlive
  held_entry s set key node hnode := by
    split_ifs at hnode with hne
    obtain ⟨hlive, hentry⟩ := hagrees.held_entry s set key node hnode
    exact ⟨by simp [hne, hlive], hentry⟩
  sorted := hagrees.sorted
  fresh := hagrees.fresh
  numbered := hagrees.numbered
  recorded key := by
    rw [subscriptionsOf_filter, ← hagrees.recorded, Engine.liveSubscriptions,
      Engine.liveSubscriptions, List.filter_map, List.filter_filter]
    rfl

/-- Whether subscribers without entries are alive does not matter. -/
theorem Agrees.alive_congr (hagrees : Agrees created engine alive held book) {alive' : ℕ → Bool}
    (hentries : ∀ key, ∀ e ∈ engine.list key, alive' e.subscriber = alive e.subscriber) :
    Agrees created engine alive' held book where
  entry_held key e he hlive := hagrees.entry_held key e he (hentries key e he ▸ hlive)
  held_entry s set key node hnode := by
    obtain ⟨hlive, e, he, rfl, hset, hnode⟩ := hagrees.held_entry s set key node hnode
    exact ⟨hentries key e he ▸ hlive, e, he, rfl, hset, hnode⟩
  sorted := hagrees.sorted
  fresh := hagrees.fresh
  numbered := hagrees.numbered
  recorded key := by
    rw [← hagrees.recorded, Engine.liveSubscriptions, Engine.liveSubscriptions]
    congr 1
    exact List.filter_congr (hentries key)

/-- More subscribers may have been created. -/
theorem Agrees.mono (hagrees : Agrees created engine alive held book) {created' : ℕ}
    (hcreated : created ≤ created') : Agrees created' engine alive held book :=
  { hagrees with numbered := fun key e he => (hagrees.numbered key e he).trans_le hcreated }

end CppJam.Subscriptions
