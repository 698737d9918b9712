import CppJam.Subscriptions.Removal

/-!
# Steps of subscribers keep engine, containers and book in agreement

No action uses an iterator after its entry is gone. So an action that a program can take is
defined exactly when it is not an unsubscription that takes all entries of a key. It then
leaves engine and containers in agreement with the book after the action, and schedules the
calls that the book asks for.
-/

namespace CppJam.Subscriptions

open Checks

variable {Key Tid Args : Type} [DecidableEq Key] {book : List (Subscription Key Tid)}
  {w : World Key Tid} {subscriber set : ℕ}

/-- The world agrees with a book, and has numbered its subscribers. -/
structure World.Consistent (w : World Key Tid) (book : List (Subscription Key Tid)) : Prop where
  agrees : Agrees w.created w.engine w.alive w.held book
  alive_lt : ∀ subscriber, w.alive subscriber → subscriber < w.created

/-- Nothing is subscribed at the beginning. -/
theorem World.initial_consistent : (World.initial : World Key Tid).Consistent [] where
  agrees :=
    { entry_held := fun _ _ he => nomatch he
      held_entry := fun _ _ _ _ hnode => nomatch hnode
      sorted := fun _ => List.Pairwise.nil
      fresh := fun _ _ he => nomatch he
      numbered := fun _ _ he => nomatch he
      recorded := fun _ => rfl }
  alive_lt _ hlive := nomatch hlive

omit [DecidableEq Key] in
/-- What a live subscriber holds. -/
theorem World.held_of_some {s : Subscriber Key} (hs : w.subscribers subscriber = some s)
    (set : ℕ) (key : Key) : w.held subscriber set key = (s.sets set).bind (fun c => c key) := by
  rw [World.held, hs]
  rfl

omit [DecidableEq Key] in
/-- What is held after one subscriber was written. -/
theorem World.held_update (w : World Key Tid) (engine : Engine Key Tid) (created subscriber : ℕ)
    (s : Option (Subscriber Key)) :
    World.held ⟨engine, Function.update w.subscribers subscriber s, created⟩ =
      fun subscriber' set key =>
        if subscriber' = subscriber then s.bind (fun s => (s.sets set).bind (fun c => c key))
        else w.held subscriber' set key := by
  funext subscriber' set key
  by_cases hsubscriber : subscriber' = subscriber
  · simp only [World.held, hsubscriber, Function.update_self, if_true]
    rfl
  · simp [World.held, hsubscriber]

omit [DecidableEq Key] in
/-- Who is alive after one subscriber was written. -/
theorem World.alive_update (w : World Key Tid) (engine : Engine Key Tid)
    (created subscriber subscriber' : ℕ) (s : Option (Subscriber Key)) :
    World.alive ⟨engine, Function.update w.subscribers subscriber s, created⟩ subscriber' =
      if subscriber' = subscriber then s.isSome else w.alive subscriber' := by
  by_cases hsubscriber : subscriber' = subscriber
  · simp [World.alive, hsubscriber]
  · simp [World.alive, hsubscriber]

omit [DecidableEq Key] in
/-- A live subscriber stays alive when it is written. -/
theorem World.alive_update_some (halive : w.alive subscriber) (engine : Engine Key Tid)
    (created : ℕ) (s : Subscriber Key) :
    World.alive ⟨engine, Function.update w.subscribers subscriber (some s), created⟩ =
      w.alive := by
  funext subscriber'
  rw [World.alive_update]
  split_ifs with hsubscriber
  · rw [hsubscriber, halive]
    rfl
  · rfl

omit [DecidableEq Key] in
/-- What is held after the container of a set was written. -/
theorem World.held_setContainer {s : Subscriber Key} (hs : w.subscribers subscriber = some s)
    (engine : Engine Key Tid) (container : Option (Key → Option ℕ)) :
    ({ w with engine := engine }.setContainer subscriber s set container).held =
      fun subscriber' set' key' =>
        if subscriber' = subscriber ∧ set' = set then container.bind (fun c => c key')
        else w.held subscriber' set' key' := by
  rw [World.setContainer, World.held_update]
  funext subscriber' set' key'
  by_cases hsubscriber : subscriber' = subscriber
  · subst hsubscriber
    rw [w.held_of_some hs]
    by_cases hset : set' = set
    · simp [hset]
    · simp [hset]
  · simp [World.held, hsubscriber]

/-- Writing a container keeps the world consistent, if the container is the one that
agrees with the engine. -/
theorem World.Consistent.setContainer (hw : w.Consistent book) {s : Subscriber Key}
    (hs : w.subscribers subscriber = some s) {engine : Engine Key Tid}
    {container : Option (Key → Option ℕ)} {book' : List (Subscription Key Tid)}
    (hagrees : Agrees w.created engine w.alive (fun subscriber' set' key' =>
      if subscriber' = subscriber ∧ set' = set then container.bind (fun c => c key')
      else w.held subscriber' set' key') book') :
    ({ w with engine := engine }.setContainer subscriber s set container).Consistent book' where
  agrees := by
    rw [World.held_setContainer hs, World.setContainer,
      World.alive_update_some (Option.isSome_of_eq_some hs)]
    exact hagrees
  alive_lt := by
    rw [World.setContainer, World.alive_update_some (Option.isSome_of_eq_some hs)]
    exact hw.alive_lt

/-- A step that is defined, schedules the calls of the book and keeps the world
consistent. -/
def Action.Sound (w : World Key Tid) (book : List (Subscription Key Tid))
    (action : Action Key Tid Args) : Prop :=
  ∃ w', action.exec w = .ok (callsOf book action, w') ∧ w'.Consistent (record book action)

/-- A new subscriber has no subscriptions. -/
theorem World.Consistent.create (hw : w.Consistent book) :
    (Action.create : Action Key Tid Args).Sound w book := by
  have hnew : ∀ set key, w.held w.created set key = none := by
    intro set key
    rw [Option.eq_none_iff_forall_ne_some]
    intro node hnode
    exact Nat.lt_irrefl _ (hw.alive_lt _ (hw.agrees.held_entry _ _ _ _ hnode).1)
  refine ⟨_, rfl, ?_, ?_⟩
  · rw [World.held_update]
    have hheld : (fun subscriber set key => if subscriber = w.created then none
        else w.held subscriber set key) = w.held := by
      funext subscriber set key
      split_ifs with hsubscriber
      · rw [hsubscriber, hnew]
      · rfl
    simp only [Option.bind_some, Option.bind_none, hheld]
    refine (hw.agrees.alive_congr fun key e he => ?_).mono (Nat.le_succ _)
    rw [World.alive_update, if_neg (hw.agrees.numbered key e he).ne]
  · intro subscriber hlive
    rw [World.alive_update] at hlive
    split_ifs at hlive with hsubscriber
    · exact hsubscriber ▸ Nat.lt_succ_self _
    · exact Nat.lt_succ_of_lt (hw.alive_lt subscriber hlive)

/-- A destroyed subscriber has no subscriptions any more. -/
theorem World.Consistent.destroy (hw : w.Consistent book) (subscriber : ℕ) :
    (Action.destroy subscriber : Action Key Tid Args).Sound w book := by
  refine ⟨_, rfl, ?_, ?_⟩
  · rw [World.held_update]
    refine (hw.agrees.destroy subscriber).alive_congr fun key e _ => ?_
    rw [World.alive_update]
    split_ifs with hs
    · simp [hs]
    · simp [hs]
  · intro s hlive
    rw [World.alive_update] at hlive
    split_ifs at hlive
    · cases hlive
    · exact hw.alive_lt s hlive

omit [DecidableEq Key] in
/-- Writing the container that is there changes nothing. -/
theorem ite_held_eq (held : ℕ → ℕ → Key → Option ℕ) (subscriber set : ℕ) :
    (fun subscriber' set' key' => if subscriber' = subscriber ∧ set' = set
      then held subscriber set key' else held subscriber' set' key') = held := by
  funext subscriber' set' key'
  split_ifs with hsame
  · rw [hsame.1, hsame.2]
  · rfl

/-- Writing the container with one key changed changes one iterator. -/
theorem ite_update_eq (held : ℕ → ℕ → Key → Option ℕ) (subscriber set : ℕ) (key : Key)
    (node : Option ℕ) :
    (fun subscriber' set' key' => if subscriber' = subscriber ∧ set' = set
      then Function.update (held subscriber set) key node key'
      else held subscriber' set' key') = setHeld held subscriber set key node := by
  funext subscriber' set' key'
  by_cases hkey : key' = key
  · simp [setHeld, hkey]
  · simp only [setHeld, Function.update_of_ne hkey, Prod.mk.injEq, hkey, and_false, if_false]
    exact congrFun (congrFun (congrFun (ite_held_eq held subscriber set) subscriber') set') key'

/-- Subscribing adds the subscription to the book, unless it is there. -/
theorem World.Consistent.subscribe (hw : w.Consistent book) (halive : w.alive subscriber)
    (key : Key) (tid : Tid) :
    (Action.subscribe subscriber set key tid : Action Key Tid Args).Sound w book := by
  obtain ⟨s, hs⟩ := Option.isSome_iff_exists.mp halive
  have hcontainer : (s.sets set).getD (fun _ => none) = w.held subscriber set := by
    funext key'
    rw [w.held_of_some hs]
    cases s.sets set <;> rfl
  have hany : book.any (fun s => s.slot = (subscriber, set, key)) =
      (w.held subscriber set key).isSome := by
    rw [Bool.eq_iff_iff, hw.agrees.held_isSome_iff]
    simp
  simp only [Action.Sound, Action.exec, World.subscribe, hs, record, callsOf, hany, hcontainer]
  cases hnode : w.held subscriber set key with
  | some node =>
    refine ⟨_, rfl, hw.setContainer hs ?_⟩
    simp only [Option.bind_some, ite_held_eq]
    exact hw.agrees
  | none =>
    refine ⟨_, rfl, hw.setContainer hs ?_⟩
    simp only [Option.bind_some, ite_update_eq]
    exact hw.agrees.subscribe halive (hw.alive_lt _ halive) hnode tid

/-- When an unsubscription leaves an entry of each key, it leaves one that is not at an iterator
that the subscriber hands over. -/
theorem World.Consistent.exists_other (hw : w.Consistent book)
    {action : Action Key Tid Args} (hunsubscribe : action.isUnsubscribe = true)
    (hlast : ¬action.ErasesLast w) (order : List (ℕ × Key × ℕ))
    (horder : ∀ x ∈ order, w.held subscriber x.1 x.2.1 = some x.2.2 ∧
      action.Ends (subscriber, x.1, x.2.1)) :
    ∀ x ∈ order, ∃ e ∈ w.engine.list x.2.1, ∀ y ∈ order, x.2.1 = y.2.1 → e.node ≠ y.2.2 := by
  intro x hx
  obtain ⟨_, entry, hentry, _⟩ := hw.agrees.held_entry _ _ _ _ (horder x hx).1
  have hothers : ¬∀ e ∈ w.engine.list x.2.1, action.Ends (e.subscriber, e.set, x.2.1) :=
    fun hall => hlast ⟨hunsubscribe, x.2.1, List.ne_nil_of_mem hentry, hall⟩
  obtain ⟨e, he, hends⟩ : ∃ e ∈ w.engine.list x.2.1,
      ¬action.Ends (e.subscriber, e.set, x.2.1) := by simpa using hothers
  refine ⟨e, he, fun y hy hkey => ?_⟩
  obtain ⟨hheld, hy⟩ := horder y hy
  rw [← hkey] at hheld hy
  refine hw.agrees.node_ne hheld he ?_
  rintro ⟨hsubscriber, hset⟩
  exact hends (by rw [hsubscriber, hset]; exact hy)

/-- Unsubscribing from a key ends its subscription. -/
theorem World.Consistent.unsubscribeKey (hw : w.Consistent book) (halive : w.alive subscriber)
    (key : Key)
    (hlast : ¬(Action.unsubscribeKey subscriber set key : Action Key Tid Args).ErasesLast w) :
    (Action.unsubscribeKey subscriber set key : Action Key Tid Args).Sound w book := by
  obtain ⟨s, hs⟩ := Option.isSome_iff_exists.mp halive
  have hheld := w.held_of_some hs set
  simp only [Action.Sound, Action.exec, World.unsubscribeKey, hs, record, callsOf]
  cases hcontainer : s.sets set with
  | none =>
    rw [hw.agrees.filter_slot (by rw [hheld, hcontainer]; rfl)]
    exact ⟨w, rfl, hw⟩
  | some container =>
    have hcontainer : container = w.held subscriber set := by
      funext key'
      rw [hheld, hcontainer]
      rfl
    subst hcontainer
    cases hnode : w.held subscriber set key with
    | none =>
      rw [hw.agrees.filter_slot hnode]
      refine ⟨w, ?_, hw⟩
      simp only [hnode]
      rfl
    | some node =>
      have hslot : ∀ x ∈ [(set, key, node)], w.held subscriber x.1 x.2.1 = some x.2.2 ∧
          (Action.unsubscribeKey subscriber set key : Action Key Tid Args).Ends
            (subscriber, x.1, x.2.1) := by
        intro x hx
        rw [List.mem_singleton.mp hx]
        exact ⟨hnode, rfl⟩
      obtain ⟨e, he, hne⟩ := hw.exists_other rfl hlast _ hslot _ (List.mem_singleton_self _)
      obtain ⟨engine, hok, hagrees⟩ := hw.agrees.unsubscribe hnode
        ⟨e, he, hne _ (List.mem_singleton_self _) rfl⟩
      simp only [hnode, hok]
      refine ⟨_, rfl, hw.setContainer hs ?_⟩
      simp only [Option.bind_some, ite_update_eq]
      exact hagrees

/-- Unsubscribing a set ends its subscriptions. -/
theorem World.Consistent.unsubscribeSet (hw : w.Consistent book) (halive : w.alive subscriber)
    {order : List (ℕ × Key × ℕ)} (horder : Enumerates w subscriber (· = set) order)
    (hlast : ¬(Action.unsubscribeSet subscriber set order : Action Key Tid Args).ErasesLast w) :
    (Action.unsubscribeSet subscriber set order : Action Key Tid Args).Sound w book := by
  obtain ⟨s, hs⟩ := Option.isSome_iff_exists.mp halive
  have hothers := hw.exists_other rfl hlast order fun x hx => by
    obtain ⟨hset, hheld⟩ := (horder.mem x.1 x.2.1 x.2.2).mp hx
    exact ⟨hheld, rfl, hset⟩
  obtain ⟨engine, hok, hagrees⟩ := hw.agrees.unsubscribeSets horder.mem horder.once hothers
  simp only [Action.Sound, Action.exec, World.unsubscribeSet, hs, record, callsOf]
  cases hcontainer : s.sets set with
  | none =>
    have hnone : ∀ key, w.held subscriber set key = none := by
      intro key
      rw [w.held_of_some hs, hcontainer]
      rfl
    have hempty : order = [] := by
      rw [List.eq_nil_iff_forall_not_mem]
      rintro ⟨set', key, node⟩ hmem
      obtain ⟨rfl, hnode⟩ := (horder.mem set' key node).mp hmem
      rw [hnone] at hnode
      cases hnode
    subst hempty
    cases hok
    refine ⟨w, rfl, ?_, hw.alive_lt⟩
    have hheld := ite_held_eq w.held subscriber set
    simp only [hnone] at hheld
    rwa [hheld] at hagrees
  | some container =>
    simp only [hok]
    exact ⟨_, rfl, hw.setContainer hs hagrees⟩

/-- Unsubscribing everything ends all subscriptions of the subscriber. -/
theorem World.Consistent.unsubscribe (hw : w.Consistent book) (halive : w.alive subscriber)
    {order : List (ℕ × Key × ℕ)} (horder : Enumerates w subscriber (fun _ => True) order)
    (hlast : ¬(Action.unsubscribe subscriber order : Action Key Tid Args).ErasesLast w) :
    (Action.unsubscribe subscriber order : Action Key Tid Args).Sound w book := by
  obtain ⟨s, hs⟩ := Option.isSome_iff_exists.mp halive
  have hothers := hw.exists_other rfl hlast order fun x hx =>
    ⟨((horder.mem x.1 x.2.1 x.2.2).mp hx).2, rfl⟩
  obtain ⟨engine, hok, hagrees⟩ := hw.agrees.unsubscribeSets horder.mem horder.once hothers
  simp only [and_true] at hagrees
  simp only [Action.Sound, Action.exec, World.unsubscribe, hs, record, callsOf, hok]
  refine ⟨_, rfl, ?_, ?_⟩
  · rw [World.alive_update_some halive, World.held_update]
    exact hagrees
  · rw [World.alive_update_some halive]
    exact hw.alive_lt

/-- Every possible action that leaves an entry of each key is sound in a consistent world. -/
theorem World.Consistent.sound (hw : w.Consistent book) {action : Action Key Tid Args}
    (hpossible : action.Possible w) (hlast : ¬action.ErasesLast w) : action.Sound w book := by
  cases action with
  | create => exact hw.create
  | destroy subscriber => exact hw.destroy subscriber
  | subscribe subscriber set key tid => exact hw.subscribe hpossible key tid
  | unsubscribeKey subscriber set key => exact hw.unsubscribeKey hpossible key hlast
  | unsubscribeSet subscriber set order => exact hw.unsubscribeSet hpossible.1 hpossible.2 hlast
  | unsubscribe subscriber order => exact hw.unsubscribe hpossible.1 hpossible.2 hlast
  | notify key args =>
    obtain ⟨hcalls, hagrees⟩ := hw.agrees.notify key args
    refine ⟨{ w with engine := (w.engine.notify w.alive key args).2 }, ?_, hagrees, hw.alive_lt⟩
    rw [callsOf, ← hcalls]
    rfl

/-- An unsubscription that takes all entries of a key is not defined. -/
theorem World.Consistent.not_erasesLast (hw : w.Consistent book) {action : Action Key Tid Args}
    (hpossible : action.Possible w) {calls : List (Call Key Tid Args)} {w' : World Key Tid}
    (hexec : action.exec w = .ok (calls, w')) : ¬action.ErasesLast w := by
  rintro ⟨hunsubscribe, key, hne, hall⟩
  have hheld {subscriber : ℕ} (halive : w.alive subscriber) {e : Entry Tid}
      (he : e ∈ w.engine.list key) (hsame : e.subscriber = subscriber) :
      w.held subscriber e.set key = some e.node :=
    hsame ▸ hw.agrees.entry_held key e he (hsame ▸ halive)
  obtain ⟨first, hfirst⟩ := List.exists_mem_of_ne_nil _ hne
  cases action with
  | create | destroy | subscribe | notify => cases hunsubscribe
  | unsubscribeKey subscriber set key' =>
    obtain ⟨s, hs⟩ := Option.isSome_iff_exists.mp hpossible
    obtain ⟨hsubscriber, hset, rfl⟩ : first.subscriber = subscriber ∧ first.set = set ∧
      key = key' := by simpa [Action.Ends] using hall first hfirst
    have hnode := hheld hpossible hfirst hsubscriber
    rw [hset, w.held_of_some hs, Option.bind_eq_some_iff] at hnode
    obtain ⟨container, hcontainer, hnode⟩ := hnode
    simp only [Action.exec, World.unsubscribeKey, hs, hcontainer, hnode, bind_eq_ok] at hexec
    obtain ⟨_, ⟨engine, hok, _⟩, _⟩ := hexec
    -- the only entry of the slot is gone, so none of the key is left
    obtain ⟨hmem, hkept⟩ := mem_list_of_unsubscribe hok key
    obtain ⟨e, he⟩ := List.exists_mem_of_ne_nil _ (hkept hne)
    obtain ⟨he, hother⟩ := (hmem e).mp he
    obtain ⟨hsame, hsameSet⟩ : e.subscriber = subscriber ∧ e.set = set := by
      simpa [Action.Ends] using hall e he
    have hsameNode := hheld hpossible he hsame
    rw [hsameSet, w.held_of_some hs, hcontainer] at hsameNode
    exact hother rfl (Option.some.inj (hsameNode.symm.trans hnode))
  | unsubscribeSet subscriber set order =>
    obtain ⟨s, hs⟩ := Option.isSome_iff_exists.mp hpossible.1
    obtain ⟨hsubscriber, rfl⟩ : first.subscriber = subscriber ∧ first.set = set :=
      hall first hfirst
    have hnode := hheld hpossible.1 hfirst hsubscriber
    rw [w.held_of_some hs, Option.bind_eq_some_iff] at hnode
    obtain ⟨container, hcontainer, _⟩ := hnode
    simp only [Action.exec, World.unsubscribeSet, hs, hcontainer, bind_eq_ok] at hexec
    obtain ⟨_, ⟨engine, hok, _⟩, _⟩ := hexec
    obtain ⟨e, he, hkept⟩ := exists_kept_of_unsubscribeAll hok hne
    obtain ⟨hsame, hset⟩ := hall e he
    exact hkept e.set ((hpossible.2.mem e.set key e.node).mpr ⟨hset, hheld hpossible.1 he hsame⟩)
  | unsubscribe subscriber order =>
    obtain ⟨s, hs⟩ := Option.isSome_iff_exists.mp hpossible.1
    simp only [Action.exec, World.unsubscribe, hs, bind_eq_ok] at hexec
    obtain ⟨_, ⟨engine, hok, _⟩, _⟩ := hexec
    obtain ⟨e, he, hkept⟩ := exists_kept_of_unsubscribeAll hok hne
    exact hkept e.set ((hpossible.2.mem e.set key e.node).mpr
      ⟨trivial, hheld hpossible.1 he (hall e he)⟩)

end CppJam.Subscriptions
