import CppJam.Modules.Exchange

/-!
# What modules are never told

The loader of the example subscribes to its events without data and dispatches them with a text, so
that another engine is asked, which has no subscribers: no request, response or notification of the
example is ever delivered. It also follows that no call is ever undefined. A node in which nobody
notifies `LoadingIsFinished`, such as that of `run_node`, only tells modules that they are loaded.
-/

namespace CppJam.Modules

open Runs
open Subscriptions (Engine Call)

variable {functionName : List DataType → List UInt8} {address : ℕ → UInt64} {node node' : Node}
  {label : Label}

/-- Nobody subscribes to a text. -/
theorem calls_text (hsound : Sound functionName node) (event : EventTypes) (text : String) :
    calls node.subscribers event [.text text] = [] := by
  have hargs : ∀ kind : Kind, ∀ s ∈ kind.subscriptions, s.args ≠ [.text] := by
    intro kind
    cases kind <;> decide
  rw [calls, List.map_eq_nil_iff, hearing, List.filter_eq_nil_iff]
  intro i _ hi
  obtain ⟨s, hs, _, htext⟩ := hears_iff.mp hi
  exact hargs s.module.kind s.subscription (hsound.known s (List.mem_of_getElem? hs)) htext

/-- The subscriber that the worker calls is one for the event and the data. -/
theorem eq_of_hand (haddressed : Addressed node) {task : Task} {s : Subscriber}
    (hhand : node.hand = some task) (hs : node.subscribers[task.subscriber]? = some s) :
    s.subscription.event = task.key ∧ s.subscription.args = task.args.map Data.type := by
  obtain ⟨s', hs', hkey⟩ := hears_iff.mp (haddressed.heard task (Or.inl hhand))
  obtain rfl : s = s' := Option.some.inj (hs.symm.trans hs')
  exact hkey

/-- Modules do not dispatch events of the example. -/
theorem Reaction.isExample {counts n : ℕ → UInt64} {module : Module} {callback : Callback}
    {data data' : List Data} {event : EventTypes}
    (h : Reaction address counts module callback data event data' n) :
    event.isExample = false := by
  cases h <;> rfl

/-! ## The example -/

/-- The function of a subscriber for other events than those of the example was called. -/
def CalledOther (subscribers : List Subscriber) (i : ℕ) : Prop :=
  ∃ s, subscribers[i]? = some s ∧ s.subscription.event.isExample = false

/-- Nothing of the example's own events is in flight or was done, and no response was recognized. -/
structure Quiet (node : Node) : Prop where
  keys : ∀ task, node.InFlight task → task.key.isExample = false
  called : ∀ i data, .called i data ∈ node.log → CalledOther node.subscribers i
  recognized : ∀ rid, .recognized rid ∉ node.log

/-- Steps keep the calls in flight to other events. -/
theorem Quiet.keys_transition (hsound : Sound functionName node) (hquiet : Quiet node)
    (h : Transition address node label node') {task : Task} (htask : node'.InFlight task) :
    task.key.isExample = false := by
  obtain hold | ⟨event, data, hcall, horigin⟩ := h.inFlight htask
  · exact hquiet.keys task hold
  · rw [(hears_of_mem_calls hcall).1]
    cases horigin with
    | notified hnotifies =>
      cases hnotifies with
      | loaded module _ => cases module.kind <;> rfl
      | finished i => rfl
      | dispatch i event text hexample =>
        rw [calls_text hsound] at hcall
        cases hcall
    | reacted _ _ _ hreaction => exact hreaction.isExample

/-- Steps keep quiet. -/
theorem Quiet.transition (hsound : Sound functionName node) (haddressed : Addressed node)
    (hquiet : Quiet node) (h : Transition address node label node') : Quiet node' := by
  refine ⟨fun task => hquiet.keys_transition hsound h, fun i data hmem => ?_, fun rid hmem => ?_⟩
  · suffices hold : CalledOther node.subscribers i by
      obtain ⟨s, hs, hother⟩ := hold
      exact ⟨s, h.getElem?_subscribers hs, hother⟩
    obtain hold | ⟨task, s, hhand, hs, heq | ⟨_, _, _, _, heq⟩⟩ := h.mem_log hmem
    · exact hquiet.called i data hold
    · cases heq
      refine ⟨s, hs, ?_⟩
      rw [(eq_of_hand haddressed hhand hs).1]
      exact hquiet.keys task (Or.inl hhand)
    · cases heq
  · obtain hold | ⟨_, _, _, _, heq | ⟨_, _, _, _, heq⟩⟩ := h.mem_log hmem
    · exact hquiet.recognized rid hold
    · cases heq
    · cases heq

/-- The new node is quiet. -/
theorem quiet_initial : Quiet .initial where
  keys := by simp [Node.InFlight, Node.initial]
  called := by simp [Node.initial]
  recognized := by simp [Node.initial]

/-- Data without types are none. -/
theorem eq_nil_of_types {data : List Data} (h : [] = data.map Data.type) : data = [] :=
  List.map_eq_nil_iff.mp h.symm

/-- Data of one type. -/
theorem eq_singleton_of_types {data : List Data} {type : DataType}
    (h : [type] = data.map Data.type) : ∃ x, data = [x] ∧ x.type = type := by
  obtain ⟨x, hx, rfl⟩ := List.map_eq_singleton_iff.mp h.symm
  exact ⟨x, hx, rfl⟩

/-- A subscriber for another event is called with the data of its function. -/
theorem invoke_defined (node : Node) {module : Module} {s : Subscription} {data : List Data}
    (subscriber : ℕ) (hs : s ∈ module.kind.subscriptions) (hother : s.event.isExample = false)
    (hdata : s.args = data.map Data.type) :
    ∃ node', node.invoke functionName address subscriber module s.callback data = some node' := by
  obtain ⟨kind, library⟩ := module
  cases kind with
  | exampleModule =>
    simp only [Kind.subscriptions, List.mem_cons, List.not_mem_nil, or_false] at hs
    rcases hs with rfl | rfl | rfl | rfl | rfl
    · exact ⟨_, by rw [eq_nil_of_types hdata]; rfl⟩
    · exact ⟨_, by rw [eq_nil_of_types hdata]; rfl⟩
    · cases hother
    · cases hother
    · cases hother
  | networking =>
    simp only [Kind.subscriptions, List.mem_cons, List.not_mem_nil, or_false] at hs
    rcases hs with rfl | rfl | rfl
    · exact ⟨_, by rw [eq_nil_of_types hdata]; rfl⟩
    · exact ⟨_, by rw [eq_nil_of_types hdata]; rfl⟩
    · obtain ⟨x, rfl, htype⟩ := eq_singleton_of_types hdata
      cases x <;> cases htype
      exact ⟨_, rfl⟩
  | synchronizer =>
    simp only [Kind.subscriptions, List.mem_cons, List.not_mem_nil, or_false] at hs
    rcases hs with rfl | rfl | rfl
    · exact ⟨_, by rw [eq_nil_of_types hdata]; rfl⟩
    · obtain ⟨x, rfl, htype⟩ := eq_singleton_of_types hdata
      cases x <;> cases htype
      exact ⟨_, rfl⟩
    · obtain ⟨x, rfl, htype⟩ := eq_singleton_of_types hdata
      cases x <;> cases htype
      exact ⟨_, rfl⟩

/-- In every run no request, response or notification of the example is on its way or was delivered,
whatever its loader dispatches, no response is recognized as one to an own request, and every call
that the worker is to make is defined. -/
theorem never_delivered (hseparate : Separate functionName) {trace : List Label}
    (hrun : Run (Step functionName address) .initial trace node) :
    Quiet node ∧ ∀ task, node.hand = some task →
      ∃ node', Step functionName address node .call node' := by
  obtain ⟨hsound, haddressed, hquiet⟩ := Run.holds hseparate hrun sound_initial
    (I := fun _ u => Addressed u ∧ Quiet u) ⟨addressed_initial, quiet_initial⟩
    fun hu hI h => ⟨hI.1.transition h, hI.2.transition hu hI.1 h⟩
  refine ⟨hquiet, fun task hhand => ?_⟩
  obtain ⟨s, hs, hevent, hargs⟩ := hears_iff.mp (haddressed.heard task (Or.inl hhand))
  have hother : s.subscription.event.isExample = false := by
    rw [hevent]
    exact hquiet.keys task (Or.inl hhand)
  obtain ⟨node', hnode'⟩ := invoke_defined
    (Node.note (.called task.subscriber task.args) { node with hand := none }) task.subscriber
    (hsound.known s (List.mem_of_getElem? hs)) hother hargs
  refine ⟨node', ?_⟩
  rw [Step, exec, hhand]
  simp only [Option.bind_eq_bind, Option.bind_some, Node.onNotify, hs]
  exact hnode'

/-- A call of the example's loader comes to nothing. -/
theorem never_delivered_example : ∃ node,
    Run (Step gccFunctionName fun _ => 64) .initial
      [.start ⟨.exampleModule, 0⟩ true, .subscribe, .subscribe, .subscribe, .subscribe, .subscribe,
        .loaded, .post .main, .dispatch 0 .exampleRequest "ping", .take] node ∧
      node.posting (.other 0) = [] ∧ Quiet node ∧
      ∀ task, node.hand = some task →
        ∃ node', Step gccFunctionName (fun _ => 64) node .call node' := by
  have hdefined : (nodeAfter [.start ⟨.exampleModule, 0⟩ true, .subscribe, .subscribe, .subscribe,
      .subscribe, .subscribe, .loaded, .post .main, .dispatch 0 .exampleRequest "ping",
      .take]).isSome := by
    decide +kernel
  obtain ⟨node, hnode⟩ := Option.isSome_iff_exists.mp hdefined
  have hrun := nodeAfter_eq_some.mp hnode
  have hposting : node.posting (.other 0) = [] :=
    eq_of_nodeAfter (f := fun node => node.posting (.other 0)) (by decide +kernel) hrun
  exact ⟨node, hrun, hposting, never_delivered separate_gccFunctionName hrun⟩

/-! ## Nobody finishes loading -/

/-- The events of loaded modules. -/
def EventTypes.IsLoaded (event : EventTypes) : Prop := ∃ kind : Kind, event = kind.isLoaded

/-- Modules are told that they are loaded, and nothing else. -/
structure Idle (node : Node) : Prop where
  keys : ∀ task, node.InFlight task → task.key.IsLoaded
  log : ∀ happening ∈ node.log, ∃ i s, happening = .called i [] ∧
    node.subscribers[i]? = some s ∧ s.subscription.callback = .onLoadedSuccess

/-- The subscribers for loaded modules. -/
theorem callback_of_isLoaded {kind : Kind} {s : Subscription} (hs : s ∈ kind.subscriptions)
    (hevent : s.event.IsLoaded) : s.callback = .onLoadedSuccess ∧ s.args = [] := by
  have hall : ∀ kind kind' : Kind, ∀ s ∈ kind.subscriptions, s.event = kind'.isLoaded →
      s.callback = .onLoadedSuccess ∧ s.args = [] := by
    intro kind kind'
    cases kind <;> cases kind' <;> decide
  obtain ⟨kind', hkind'⟩ := hevent
  exact hall kind kind' s hs hkind'

/-- Modules do not dispatch when they are told that they are loaded. -/
theorem Reaction.callback_ne {counts n : ℕ → UInt64} {module : Module} {callback : Callback}
    {data data' : List Data} {event : EventTypes}
    (h : Reaction address counts module callback data event data' n) :
    callback ≠ .onLoadedSuccess := by
  cases h <;> decide

/-- The call that the worker of an idle node makes. -/
theorem Idle.callback (hsound : Sound functionName node) (haddressed : Addressed node)
    (hidle : Idle node) {task : Task} {s : Subscriber} (hhand : node.hand = some task)
    (hs : node.subscribers[task.subscriber]? = some s) :
    s.subscription.callback = .onLoadedSuccess ∧ task.args = [] := by
  obtain ⟨hevent, hargs⟩ := eq_of_hand haddressed hhand hs
  have hloaded : s.subscription.event.IsLoaded := hevent ▸ hidle.keys task (Or.inl hhand)
  obtain ⟨hcallback, hnone⟩ :=
    callback_of_isLoaded (hsound.known s (List.mem_of_getElem? hs)) hloaded
  exact ⟨hcallback, eq_nil_of_types (hnone.symm.trans hargs)⟩

/-- Steps other than a notification that loading is finished keep a node idle. -/
theorem Idle.transition (hsound : Sound functionName node) (haddressed : Addressed node)
    (hidle : Idle node) (hlabel : ∀ i, label ≠ .finished i)
    (h : Transition address node label node') : Idle node' := by
  refine ⟨fun task htask => ?_, fun happening hmem => ?_⟩
  · obtain hold | ⟨event, data, hcall, horigin⟩ := h.inFlight htask
    · exact hidle.keys task hold
    · rw [(hears_of_mem_calls hcall).1]
      cases horigin with
      | notified hnotifies =>
        cases hnotifies with
        | loaded module _ => exact ⟨module.kind, rfl⟩
        | finished i => exact absurd rfl (hlabel i)
        | dispatch i event text hexample =>
          rw [calls_text hsound] at hcall
          cases hcall
      | reacted _ hhand hs hreaction =>
        exact absurd (hidle.callback hsound haddressed hhand hs).1 hreaction.callback_ne
  · suffices hold : ∃ i s, happening = .called i [] ∧ node.subscribers[i]? = some s ∧
        s.subscription.callback = .onLoadedSuccess by
      obtain ⟨i, s, heq, hs, hcallback⟩ := hold
      exact ⟨i, s, heq, h.getElem?_subscribers hs, hcallback⟩
    obtain hold | ⟨task, s, hhand, hs, hnew⟩ := h.mem_log hmem
    · exact hidle.log happening hold
    · obtain ⟨hcallback, hargs⟩ := hidle.callback hsound haddressed hhand hs
      obtain rfl | ⟨_, _, _, hreaction, _⟩ := hnew
      · exact ⟨task.subscriber, s, by rw [hargs], hs, hcallback⟩
      · exact absurd hcallback hreaction.callback_ne

/-- In a run in which nobody notifies that loading is finished, modules are told that they are
loaded and nothing else: no announcement, request or response is ever dispatched. -/
theorem told_only_loaded (hseparate : Separate functionName) {trace : List Label}
    (hrun : Run (Step functionName address) .initial trace node)
    (hunfinished : ∀ i, .finished i ∉ trace) :
    ∀ happening ∈ node.log, ∃ i s, happening = .called i [] ∧
      node.subscribers[i]? = some s ∧ s.subscription.callback = .onLoadedSuccess := by
  obtain ⟨_, _, hidle⟩ := Run.holds hseparate hrun sound_initial
    (I := fun trace u => Addressed u ∧ ((∀ i, .finished i ∉ trace) → Idle u))
    ⟨addressed_initial, fun _ => ⟨by simp [Node.InFlight, Node.initial], by simp [Node.initial]⟩⟩
    (by
      rintro trace label u u' hu ⟨haddressed, hI⟩ h
      refine ⟨haddressed.transition h, fun hall => ?_⟩
      have hfront : ∀ i, .finished i ∉ trace := fun i hi => hall i (List.mem_append_left _ hi)
      refine (hI hfront).transition hu haddressed (fun i heq => hall i ?_) h
      exact List.mem_append_right _ (List.mem_singleton.mpr heq.symm))
  exact (hidle hunfinished).log

/-- A networking module is told that it is loaded. -/
theorem told_only_loaded_networking : ∃ node,
    Run (Step gccFunctionName fun _ => 64) .initial (beforeSubscription ++
      [.subscribe, .loaded, .post .main, .take, .call]) node ∧ node.log = [.called 0 []] ∧
      ∀ happening ∈ node.log, ∃ i s, happening = .called i [] ∧
        node.subscribers[i]? = some s ∧ s.subscription.callback = .onLoadedSuccess := by
  have hdefined : (nodeAfter (beforeSubscription ++
      [.subscribe, .loaded, .post .main, .take, .call])).isSome := by
    decide +kernel
  obtain ⟨node, hnode⟩ := Option.isSome_iff_exists.mp hdefined
  have hrun := nodeAfter_eq_some.mp hnode
  have hlog : node.log = [.called 0 []] := eq_of_nodeAfter (by decide +kernel) hrun
  refine ⟨node, hrun, hlog, told_only_loaded separate_gccFunctionName hrun ?_⟩
  simp [beforeSubscription]

end CppJam.Modules
