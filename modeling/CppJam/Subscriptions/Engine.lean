import CppJam.Checks
import CppJam.Types

/-!
# The subscription engine and its subscribers

`subscription_engine.hpp` and `subscriber_impl.hpp`. The engine keeps a list of entries
for every key. A subscriber keeps, for every set id and key, an iterator to its entry in
the engine's list. Iterators are numbers that the engine gives out in the order of
subscription; erasing at an iterator that is not in the list is undefined. So is erasing
the last entry of a key: the list goes together with its mutex, which is still locked then
and is unlocked afterwards. An entry refers to its subscriber weakly: entries of a
destroyed subscriber stay until a notification comes across them.
-/

namespace CppJam.Subscriptions

open Checks

variable {Key Tid Args : Type} [DecidableEq Key]

/-- An element of `SubscribersContainer`, with the iterator that points at it. -/
structure Entry (Tid : Type) where
  /-- The iterator that `subscribe` returned. -/
  node : ℕ
  /-- Thread in which the subscriber is called. -/
  tid : Tid
  /-- Subscription set of the subscriber. -/
  set : ℕ
  /-- The subscriber. -/
  subscriber : ℕ
  deriving DecidableEq

/-- `SubscriptionEngine`. -/
structure Engine (Key Tid : Type) where
  /-- `subscribers_map_`; `none` for a key that is not in the map. -/
  map : Key → Option (List (Entry Tid))
  /-- The next iterator. -/
  next : ℕ

/-- The entries for a key. -/
def Engine.list (engine : Engine Key Tid) (key : Key) : List (Entry Tid) :=
  (engine.map key).getD []

/-- Write the list of a key. -/
def Engine.setList (engine : Engine Key Tid) (key : Key) (list : Option (List (Entry Tid))) :
    Engine Key Tid :=
  ⟨Function.update engine.map key list, engine.next⟩

/-- `SubscriptionEngine::subscribe`: a new entry at the end of the list. -/
def Engine.subscribe (tid : Tid) (set : ℕ) (key : Key) (subscriber : ℕ)
    (engine : Engine Key Tid) : ℕ × Engine Key Tid :=
  (engine.next,
    ⟨Function.update engine.map key
        (some (engine.list key ++ [⟨engine.next, tid, set, subscriber⟩])),
      engine.next + 1⟩)

/-- `SubscriptionEngine::unsubscribe`: erase the entry, and the list when it gets empty. -/
def Engine.unsubscribe (key : Key) (node : ℕ) (engine : Engine Key Tid) :
    Except Abort (Engine Key Tid) :=
  match engine.map key with
  | none => .ok engine
  | some list => do
    failIf (node ∉ list.map Entry.node) .undefinedBehaviour
    let rest := list.filter (fun e => e.node ≠ node)
    -- `subscribers_map_.erase(it)` destroys `subscribers_list_cs`, and `l` unlocks it afterwards
    failIf (rest = []) .undefinedBehaviour
    return engine.setList key (some rest)

/-- A scheduled call of `on_notify`. -/
structure Call (Key Tid Args : Type) where
  tid : Tid
  subscriber : ℕ
  set : ℕ
  key : Key
  args : Args
  deriving DecidableEq

/-- The loop of `notifyDelayed`: schedule a call for a live subscriber and go on, erase
the entry of an expired one. -/
def notifyLoop (alive : ℕ → Bool) (key : Key) (args : Args) :
    List (Entry Tid) → List (Call Key Tid Args) × List (Entry Tid)
  | [] => ([], [])
  | e :: rest =>
    let (calls, kept) := notifyLoop alive key args rest
    if alive e.subscriber then (⟨e.tid, e.subscriber, e.set, key, args⟩ :: calls, e :: kept)
    else (calls, kept)

/-- `SubscriptionEngine::notify`, with the calls given to the dispatcher. -/
def Engine.notify (alive : ℕ → Bool) (key : Key) (args : Args) (engine : Engine Key Tid) :
    List (Call Key Tid Args) × Engine Key Tid :=
  match engine.map key with
  | none => ([], engine)
  | some list =>
    let (calls, kept) := notifyLoop alive key args list
    (calls, engine.setList key (some kept))

/-- `SubscriberImpl`: the container of every subscription set, `none` for a set that is
not in the map, and in it the iterator of every key. -/
structure Subscriber (Key : Type) where
  /-- `subscriptions_sets_`. -/
  sets : ℕ → Option (Key → Option ℕ)

/-- One engine and the subscribers made so far; `none` for a destroyed one. -/
structure World (Key Tid : Type) where
  /-- The engine. -/
  engine : Engine Key Tid
  /-- Live subscribers. -/
  subscribers : ℕ → Option (Subscriber Key)
  /-- Number of subscribers ever created. -/
  created : ℕ

/-- A new engine without subscribers. -/
def World.initial : World Key Tid := ⟨⟨fun _ => none, 0⟩, fun _ => none, 0⟩

/-- The subscriber has not been destroyed. -/
def World.alive (w : World Key Tid) (subscriber : ℕ) : Bool := (w.subscribers subscriber).isSome

/-- The iterator in a subscriber's container of a set, if it holds the key. -/
def World.held (w : World Key Tid) (subscriber set : ℕ) (key : Key) : Option ℕ := do
  let s ← w.subscribers subscriber
  let container ← s.sets set
  container key

/-- Write the container of one set of one subscriber. -/
def World.setContainer (w : World Key Tid) (subscriber : ℕ) (s : Subscriber Key) (set : ℕ)
    (container : Option (Key → Option ℕ)) : World Key Tid :=
  { w with subscribers :=
      Function.update w.subscribers subscriber (some ⟨Function.update s.sets set container⟩) }

/-- `SubscriberImpl::subscribe`: the engine is asked only for a key that is new to the
set. -/
def World.subscribe (subscriber set : ℕ) (key : Key) (tid : Tid) (w : World Key Tid) :
    Except Abort (World Key Tid) :=
  match w.subscribers subscriber with
  | none => .error .undefinedBehaviour
  | some s =>
    let container := (s.sets set).getD (fun _ => none)
    match container key with
    | some _ => .ok (w.setContainer subscriber s set (some container))
    | none =>
      let (node, engine) := w.engine.subscribe tid set key subscriber
      .ok ({ w with engine := engine }.setContainer subscriber s set
        (some (Function.update container key (some node))))

/-- `SubscriberImpl::unsubscribe(id, key)`. -/
def World.unsubscribeKey (subscriber set : ℕ) (key : Key) (w : World Key Tid) :
    Except Abort (Bool × World Key Tid) :=
  match w.subscribers subscriber with
  | none => .error .undefinedBehaviour
  | some s =>
    match s.sets set with
    | none => .ok (false, w)
    | some container =>
      match container key with
      | none => .ok (false, w)
      | some node => do
        let engine ← w.engine.unsubscribe key node
        return (true, { w with engine := engine }.setContainer subscriber s set
          (some (Function.update container key none)))

/-- Unsubscribe the entries of a container in the order in which they are enumerated. -/
def Engine.unsubscribeAll (order : List (ℕ × Key × ℕ)) (engine : Engine Key Tid) :
    Except Abort (Engine Key Tid) :=
  order.foldlM (fun engine e => engine.unsubscribe e.2.1 e.2.2) engine

/-- `SubscriberImpl::unsubscribe(id)`, with the enumeration of the set's container. -/
def World.unsubscribeSet (subscriber set : ℕ) (order : List (ℕ × Key × ℕ))
    (w : World Key Tid) : Except Abort (Bool × World Key Tid) :=
  match w.subscribers subscriber with
  | none => .error .undefinedBehaviour
  | some s =>
    match s.sets set with
    | none => .ok (false, w)
    | some _ => do
      let engine ← w.engine.unsubscribeAll order
      return (true, { w with engine := engine }.setContainer subscriber s set none)

/-- `SubscriberImpl::unsubscribe()`, with the enumeration of all containers. -/
def World.unsubscribe (subscriber : ℕ) (order : List (ℕ × Key × ℕ)) (w : World Key Tid) :
    Except Abort (World Key Tid) :=
  match w.subscribers subscriber with
  | none => .error .undefinedBehaviour
  | some _ => do
    let engine ← w.engine.unsubscribeAll order
    return { w with
      engine := engine
      subscribers := Function.update w.subscribers subscriber (some ⟨fun _ => none⟩) }

/-- What subscribers and notifiers do. -/
inductive Action (Key Tid Args : Type) where
  /-- A new subscriber. -/
  | create
  /-- The last reference to a subscriber goes away. -/
  | destroy (subscriber : ℕ)
  | subscribe (subscriber set : ℕ) (key : Key) (tid : Tid)
  | unsubscribeKey (subscriber set : ℕ) (key : Key)
  /-- The container is enumerated in the given order. -/
  | unsubscribeSet (subscriber set : ℕ) (order : List (ℕ × Key × ℕ))
  /-- The containers are enumerated in the given order. -/
  | unsubscribe (subscriber : ℕ) (order : List (ℕ × Key × ℕ))
  | notify (key : Key) (args : Args)

/-- The list enumerates the iterators that the subscriber holds in the sets of `P`, each
once. -/
structure Enumerates (w : World Key Tid) (subscriber : ℕ) (P : ℕ → Prop)
    (order : List (ℕ × Key × ℕ)) : Prop where
  mem : ∀ set key node, (set, key, node) ∈ order ↔ P set ∧ w.held subscriber set key = some node
  once : (order.map (fun e => (e.1, e.2.1))).Nodup

/-- The action is one that a program can take: subscribers act while they are alive, and
containers are enumerated completely. -/
def Action.Possible (w : World Key Tid) : Action Key Tid Args → Prop
  | create => True
  | destroy subscriber => w.alive subscriber
  | subscribe subscriber _ _ _ => w.alive subscriber
  | unsubscribeKey subscriber _ _ => w.alive subscriber
  | unsubscribeSet subscriber set order =>
    w.alive subscriber ∧ Enumerates w subscriber (· = set) order
  | unsubscribe subscriber order =>
    w.alive subscriber ∧ Enumerates w subscriber (fun _ => True) order
  | notify _ _ => True

/-- Execute one action, with the calls that it schedules. -/
def Action.exec (w : World Key Tid) :
    Action Key Tid Args → Except Abort (List (Call Key Tid Args) × World Key Tid)
  | create => .ok ([], { w with
      subscribers := Function.update w.subscribers w.created (some ⟨fun _ => none⟩)
      created := w.created + 1 })
  | destroy subscriber => .ok ([], { w with
      subscribers := Function.update w.subscribers subscriber none })
  | subscribe subscriber set key tid => do
    let w ← w.subscribe subscriber set key tid
    return ([], w)
  | unsubscribeKey subscriber set key => do
    let (_, w) ← w.unsubscribeKey subscriber set key
    return ([], w)
  | unsubscribeSet subscriber set order => do
    let (_, w) ← w.unsubscribeSet subscriber set order
    return ([], w)
  | unsubscribe subscriber order => do
    let w ← w.unsubscribe subscriber order
    return ([], w)
  | notify key args =>
    let (calls, engine) := w.engine.notify w.alive key args
    .ok (calls, { w with engine := engine })

/-- The action is one of the three unsubscriptions. -/
def Action.isUnsubscribe : Action Key Tid Args → Bool
  | unsubscribeKey _ _ _ => true
  | unsubscribeSet _ _ _ => true
  | unsubscribe _ _ => true
  | _ => false

/-- A possible action leads from `w` to `w'`. -/
def Step (w : World Key Tid) (action : Action Key Tid Args) (w' : World Key Tid) : Prop :=
  action.Possible w ∧ ∃ calls, action.exec w = .ok (calls, w')

end CppJam.Subscriptions
