import CppJam.Modules.Node
import CppJam.Subscriptions.Consistency

/-!
# What notifications post

The engines hold, for every event and every list of data types, the subscribers that were made for
it, in the order of subscription. A notification so posts one call for each of them. With engines
under the hashes of function names this needs that the hashes of the lists of data types in use are
different.
-/

namespace CppJam.Modules

open Subscriptions (Engine Entry Call)

/-- The lists of data types in use. -/
def dataTypes : List (List DataType) :=
  [[], [.text], [.blockAnnounce], [.blockRequest], [.blockResponse]]

/-- The lists of data types in use have engines of their own. -/
def Separate (functionName : List DataType → List UInt8) : Prop :=
  ∀ a ∈ dataTypes, ∀ b ∈ dataTypes, engineId functionName a = engineId functionName b → a = b

/-- The subscriber is one for the event and the data types. -/
def hears (subscribers : List Subscriber) (args : List DataType) (event : EventTypes) (i : ℕ) :
    Bool :=
  subscribers[i]?.any fun s => s.subscription.event = event ∧ s.subscription.args = args

/-- The subscribers for the event and the data types. -/
def hearing (subscribers : List Subscriber) (args : List DataType) (event : EventTypes) : List ℕ :=
  (List.range subscribers.length).filter (hears subscribers args event)

/-- The calls of a notification. -/
def calls (subscribers : List Subscriber) (event : EventTypes) (data : List Data) : List Task :=
  (hearing subscribers (data.map Data.type) event).map fun i => ⟨.kTest, i, 0, event, data⟩

/-- The entries of an event in the engine for some data types. -/
def entries (engine : Option (Engine EventTypes Handlers)) (event : EventTypes) :
    List (Entry Handlers) :=
  match engine with
  | some engine => engine.list event
  | none => []

/-- The engines hold the subscribers. -/
def Wired (functionName : List DataType → List UInt8)
    (engines : UInt64 → Option (Engine EventTypes Handlers)) (subscribers : List Subscriber) :
    Prop :=
  ∀ args ∈ dataTypes, ∀ event,
    (entries (engines (engineId functionName args)) event).map
        (fun e => (e.tid, e.set, e.subscriber)) =
      (hearing subscribers args event).map fun i => (Handlers.kTest, 0, i)

variable {functionName : List DataType → List UInt8} {subscribers : List Subscriber}
  {engines : UInt64 → Option (Engine EventTypes Handlers)} {args : List DataType}
  {event : EventTypes}

/-- Who hears of an event with data of some types. -/
theorem hears_iff {i : ℕ} : hears subscribers args event i = true ↔
    ∃ s, subscribers[i]? = some s ∧ s.subscription.event = event ∧ s.subscription.args = args := by
  simp [hears, Option.any_eq_true]

/-- Subscribers stay what they are. -/
theorem hears_append {s : Subscriber} {i : ℕ} (hi : i < subscribers.length) :
    hears (subscribers ++ [s]) args event i = hears subscribers args event i := by
  rw [hears, hears, List.getElem?_append_left hi]

/-- A new subscriber is the last. -/
theorem hearing_append (s : Subscriber) : hearing (subscribers ++ [s]) args event =
    hearing subscribers args event ++
      if s.subscription.event = event ∧ s.subscription.args = args then [subscribers.length]
      else [] := by
  have hold : (List.range subscribers.length).filter (hears (subscribers ++ [s]) args event) =
      hearing subscribers args event :=
    List.filter_congr fun i hi => hears_append (List.mem_range.mp hi)
  rw [hearing, List.length_append, List.length_singleton, List.range_succ, List.filter_append,
    hold, List.filter_singleton]
  simp [hears]

/-- Nobody is wired at first. -/
theorem wired_initial : Wired functionName (fun _ => none) [] := fun _ _ _ => rfl

/-- An engine that is made for a subscription has no entries. -/
theorem list_getD (engine : Option (Engine EventTypes Handlers)) :
    (engine.getD ⟨fun _ => none, 0⟩).list event = entries engine event := by
  cases engine <;> rfl

/-- A new subscriber is wired. -/
theorem Wired.subscribe (hseparate : Separate functionName) {node : Node}
    (hwired : Wired functionName node.engines node.subscribers) {s : Subscriber}
    (hs : s.subscription.args ∈ dataTypes) :
    Wired functionName (node.subscribe functionName s).engines (node.subscribers ++ [s]) := by
  intro args hargs event
  have hold := hwired args hargs event
  simp only [Node.subscribe]
  rw [hearing_append, List.map_append, ← hold]
  by_cases hsame : s.subscription.args = args
  · rw [hsame, Function.update_self, entries, Subscriptions.list_subscribe, list_getD, list_getD]
    by_cases hevent : event = s.subscription.event
    · rw [if_pos hevent, if_pos ⟨hevent.symm, rfl⟩, hevent, List.map_append]
      rfl
    · rw [if_neg hevent, if_neg fun h => hevent h.1.symm, List.map_nil, List.append_nil]
  · have hid : engineId functionName args ≠ engineId functionName s.subscription.args :=
      fun heq => hsame (hseparate args hargs _ hs heq).symm
    rw [Function.update_of_ne hid, if_neg fun h => hsame h.2, List.map_nil, List.append_nil]

/-- A notification in an engine calls all entries and keeps them. -/
theorem notify_engine (engine : Engine EventTypes Handlers) (event : EventTypes)
    (data : List Data) :
    (engine.notify (fun _ => true) event data).1 =
        (engine.list event).map (fun e => ⟨e.tid, e.subscriber, e.set, event, data⟩) ∧
      ∀ event', (engine.notify (fun _ => true) event data).2.list event' = engine.list event' := by
  unfold Engine.notify
  cases hmap : engine.map event with
  | none => exact ⟨by rw [Engine.list, hmap]; rfl, fun _ => rfl⟩
  | some list =>
    have hlist : engine.list event = list := by rw [Engine.list, hmap, Option.getD_some]
    simp only [Subscriptions.notifyLoop_eq, List.filter_true, Subscriptions.list_setList]
    refine ⟨?_, fun event' => ?_⟩
    · rw [List.map_map, hlist]
      rfl
    · split_ifs with heq
      · rw [heq, hlist, Option.getD_some]
      · rfl

/-- A notification posts a call for each subscriber of the event and the data types. -/
theorem notify_eq (node : Node) (event : EventTypes) (data : List Data)
    (hwired : Wired functionName node.engines node.subscribers) {thread : Thread}
    (hposting : node.posting thread = []) (hdata : data.map Data.type ∈ dataTypes) :
    ∃ engines, Wired functionName engines node.subscribers ∧
      node.notify functionName thread event data = { node with
        engines := engines
        posting := Function.update node.posting thread (calls node.subscribers event data) } := by
  have hentries := hwired _ hdata event
  unfold Node.notify
  cases hengine : node.engines (engineId functionName (data.map Data.type)) with
  | none =>
    rw [hengine] at hentries
    have hnobody : calls node.subscribers event data = [] := by
      rw [calls, List.map_eq_nil_iff.mp hentries.symm, List.map_nil]
    refine ⟨node.engines, hwired, ?_⟩
    rw [hnobody, ← hposting, Function.update_eq_self]
  | some engine =>
    rw [hengine] at hentries
    obtain ⟨hcalls, hkept⟩ := notify_engine engine event data
    have hall : (engine.notify (fun _ => true) event data).1 =
        calls node.subscribers event data := by
      have hmap := congrArg (List.map fun x : Handlers × ℕ × ℕ =>
        (⟨x.1, x.2.2, x.2.1, event, data⟩ : Task)) hentries
      rw [List.map_map, List.map_map] at hmap
      exact hcalls.trans hmap
    refine ⟨_, ?_, by rw [← hall]⟩
    intro args hargs event'
    by_cases hid : engineId functionName args = engineId functionName (data.map Data.type)
    · have hold := hwired args hargs event'
      rw [hid, hengine] at hold
      rw [hid, Function.update_self, ← hold, entries, hkept]
      rfl
    · rw [Function.update_of_ne hid]
      exact hwired args hargs event'

end CppJam.Modules
