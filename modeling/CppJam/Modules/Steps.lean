import CppJam.Modules.Posting
import CppJam.Runs

/-!
# The steps of the node

What a step can do, without the engines: a notification sets the calls that a thread is about to
post, and the call of a function may end in a notification by the worker.
-/

namespace CppJam.Modules

open Runs
open Subscriptions (Engine Call)

section

variable (functionName : List DataType → List UInt8) (address : ℕ → UInt64)

/-- What holds between the steps. -/
structure Sound (node : Node) : Prop where
  wired : Wired functionName node.engines node.subscribers
  /-- Subscribers are those of the loaders. -/
  known : ∀ s ∈ node.subscribers, s.subscription ∈ s.module.kind.subscriptions
  /-- The subscribers still to be made are those of the loader. -/
  starting : ∀ module rest, node.starting = some (module, rest) →
    ∀ s ∈ rest, s ∈ module.kind.subscriptions
  /-- The worker takes a call when it has posted its own. -/
  worker : ∀ task, node.hand = some task → node.posting .worker = []
  /-- A loader starts when the calls of the one before are posted. -/
  main : ∀ start, node.starting = some start → node.posting .main = []
  /-- No callback for a response is ever kept. -/
  callbacks : ∀ library, node.callbacks library = []

end

/-- The notifications by threads other than the worker. -/
inductive Notifies (node : Node) : Label → Thread → EventTypes → List Data → Prop
  | loaded (module : Module) : node.starting = some (module, []) →
      Notifies node .loaded .main module.kind.isLoaded []
  | finished (i : ℕ) : Notifies node (.finished i) (.other i) .loadingIsFinished []
  | dispatch (i : ℕ) (event : EventTypes) (text : String) : event.isExample = true →
      Notifies node (.dispatch i event text) (.other i) event [.text text]

/-- The notifications that a module answers a call with, and what becomes of the counters. -/
inductive Reaction (address counts : ℕ → UInt64) :
    Module → Callback → List Data → EventTypes → List Data → (ℕ → UInt64) → Prop
  | announce (library : ℕ) :
      Reaction address counts ⟨.networking, library⟩ .onLoadingIsFinished []
        .blockAnnounceReceived [.blockAnnounce] counts
  | respond (library : ℕ) (rid : RequestId) :
      Reaction address counts ⟨.networking, library⟩ .onBlockRequest [.blockRequest rid]
        .blockResponse [.blockResponse rid] counts
  | request (library : ℕ) :
      Reaction address counts ⟨.synchronizer, library⟩ .onBlockAnnounce [.blockAnnounce]
        .blockRequest [.blockRequest (.new (address library) (counts library + 1))]
        (Function.update counts library (counts library + 1))

/-- What a step does. -/
inductive Transition (address : ℕ → UInt64) (node : Node) : Label → Node → Prop
  /-- `start` begins, or returns at once. -/
  | start (module : Module) (exported : Bool) (starting : Option (Module × List Subscription)) :
      node.posting .main = [] →
      starting = node.starting ∨ starting = some (module, module.kind.subscriptions) →
      Transition address node (.start module exported) { node with starting := starting }
  | subscribe (module : Module) (s : Subscription) (rest : List Subscription)
      (engines : UInt64 → Option (Engine EventTypes Handlers)) :
      node.starting = some (module, s :: rest) →
      Transition address node .subscribe { node with
        engines := engines
        subscribers := node.subscribers ++ [⟨s, module⟩]
        starting := some (module, rest) }
  | notify {label : Label} {thread : Thread} {event : EventTypes} {data : List Data}
      (starting : Option (Module × List Subscription))
      (engines : UInt64 → Option (Engine EventTypes Handlers)) :
      Notifies node label thread event data →
      starting = none ∨ starting = node.starting ∧ thread ≠ .main →
      Transition address node label { node with
        engines := engines
        starting := starting
        posting := Function.update node.posting thread (calls node.subscribers event data) }
  | post (thread : Thread) (task : Task) (rest : List Task) :
      node.posting thread = task :: rest →
      Transition address node (.post thread) { node with
        posting := Function.update node.posting thread rest
        queue := node.queue ++ [task] }
  | take (task : Task) (rest : List Task) :
      node.hand = none → node.posting .worker = [] → node.queue = task :: rest →
      Transition address node .take { node with hand := some task, queue := rest }
  /-- The function that is called does nothing more. -/
  | silent (task : Task) (s : Subscriber) :
      node.hand = some task → node.subscribers[task.subscriber]? = some s →
      s.subscription.callback ≠ .onBlockRequest →
      Transition address node .call { node with
        hand := none
        log := node.log ++ [.called task.subscriber task.args] }
  | react (task : Task) (s : Subscriber) (event : EventTypes) (data : List Data) (n : ℕ → UInt64)
      (engines : UInt64 → Option (Engine EventTypes Handlers)) :
      node.hand = some task → node.subscribers[task.subscriber]? = some s →
      Reaction address node.n s.module s.subscription.callback task.args event data n →
      Transition address node .call { node with
        engines := engines
        posting := Function.update node.posting .worker (calls node.subscribers event data)
        hand := none
        n := n
        log := node.log ++ [.called task.subscriber task.args,
          .dispatched task.subscriber s.module.library event data] }

variable {functionName : List DataType → List UInt8} {address : ℕ → UInt64} {node node' : Node}
  {label : Label}

/-- The data types of subscriptions are in use. -/
theorem args_mem_dataTypes {kind : Kind} {s : Subscription} (hs : s ∈ kind.subscriptions) :
    s.args ∈ dataTypes := by
  have hall : ∀ kind : Kind, ∀ s ∈ kind.subscriptions, s.args ∈ dataTypes := by
    intro kind
    cases kind <;> decide
  exact hall kind s hs

/-- The data types of reactions are in use. -/
theorem Reaction.types {counts n : ℕ → UInt64} {module : Module} {callback : Callback}
    {data data' : List Data} {event : EventTypes}
    (h : Reaction address counts module callback data event data' n) :
    data'.map Data.type ∈ dataTypes := by
  cases h <;> simp [dataTypes, Data.type]

/-- What the call of a function does. -/
theorem invoke_cases (node : Node) {subscriber : ℕ} {module : Module} {callback : Callback}
    {data : List Data}
    (hcallbacks : ∀ library, node.callbacks library = [])
    (h : node.invoke functionName address subscriber module callback data = some node') :
    (node' = node ∧ callback ≠ .onBlockRequest) ∨
      ∃ event data' n, Reaction address node.n module callback data event data' n ∧
        node' = { node with n := n }.dispatch functionName subscriber module.library event
          data' := by
  obtain ⟨kind, library⟩ := module
  unfold Node.invoke at h
  split at h <;> simp only [Option.some.injEq, reduceCtorEq] at h <;> subst h
  · exact Or.inl ⟨rfl, by decide⟩
  · exact Or.inl ⟨rfl, by decide⟩
  · rename_i hkind
    cases hkind
    exact Or.inr ⟨_, _, _, .announce library, rfl⟩
  · rename_i rid hkind
    cases hkind
    exact Or.inr ⟨_, _, _, .respond library rid, rfl⟩
  · rename_i hkind
    cases hkind
    exact Or.inr ⟨_, _, _, .request library, rfl⟩
  · refine Or.inl ⟨?_, by decide⟩
    rw [Node.onBlockResponse, hcallbacks, if_neg List.not_mem_nil]

/-- The worker notifies for a module. -/
theorem dispatch_eq (node : Node) (hwired : Wired functionName node.engines node.subscribers)
    (hposting : node.posting .worker = []) (subscriber library : ℕ) (event : EventTypes)
    {data : List Data} (hdata : data.map Data.type ∈ dataTypes) :
    ∃ engines, Wired functionName engines node.subscribers ∧
      node.dispatch functionName subscriber library event data = { node with
        engines := engines
        posting := Function.update node.posting .worker (calls node.subscribers event data)
        log := node.log ++ [.dispatched subscriber library event data] } :=
  notify_eq (node.note _) event data hwired hposting hdata

/-- What a step does, and that the engines stay wired. -/
theorem Step.transition (hseparate : Separate functionName) (hsound : Sound functionName node)
    (h : Step functionName address node label node') :
    Transition address node label node' ∧ Wired functionName node'.engines node'.subscribers := by
  unfold Step exec at h
  cases label with
  | start module exported =>
    simp only at h
    split at h
    · rename_i hstarting hposting
      cases h
      cases exported
      · exact ⟨.start module false _ hposting (Or.inl rfl), hsound.wired⟩
      · exact ⟨.start module true _ hposting (Or.inr rfl), hsound.wired⟩
    · cases h
  | subscribe =>
    simp only at h
    split at h
    · rename_i module s rest hstarting
      cases h
      have hargs := args_mem_dataTypes (hsound.starting _ _ hstarting s List.mem_cons_self)
      exact ⟨.subscribe module s rest _ hstarting,
        hsound.wired.subscribe hseparate (s := ⟨s, module⟩) hargs⟩
    · cases h
  | loaded =>
    simp only at h
    split at h
    · rename_i module hstarting
      cases h
      obtain ⟨engines, hwired, heq⟩ := notify_eq { node with starting := none }
        module.kind.isLoaded [] hsound.wired (hsound.main _ hstarting) (by decide)
      rw [heq]
      exact ⟨.notify none engines (.loaded module hstarting) (Or.inl rfl), hwired⟩
    · cases h
  | finished i =>
    simp only at h
    split at h
    · rename_i hposting
      cases h
      obtain ⟨engines, hwired, heq⟩ := notify_eq node .loadingIsFinished [] hsound.wired hposting
        (by decide)
      rw [heq]
      exact ⟨.notify _ engines (.finished i) (Or.inr ⟨rfl, by simp⟩), hwired⟩
    · cases h
  | dispatch i event text =>
    simp only at h
    split at h
    · rename_i hposting hexample
      cases h
      obtain ⟨engines, hwired, heq⟩ := notify_eq node event [.text text] hsound.wired hposting
        (by simp [dataTypes, Data.type])
      rw [heq]
      exact ⟨.notify _ engines (.dispatch i event text hexample) (Or.inr ⟨rfl, by simp⟩), hwired⟩
    · cases h
  | post thread =>
    simp only at h
    split at h
    · rename_i task rest hposting
      cases h
      exact ⟨.post thread task rest hposting, hsound.wired⟩
    · cases h
  | take =>
    simp only at h
    split at h
    · rename_i task rest hhand hposting hqueue
      cases h
      exact ⟨.take task rest hhand hposting hqueue, hsound.wired⟩
    · cases h
  | call =>
    simp only [Node.onNotify, Option.bind_eq_bind, Option.bind_eq_some_iff] at h
    obtain ⟨task, hhand, s, hs, h⟩ := h
    set called := Node.note (.called task.subscriber task.args) { node with hand := none }
    obtain ⟨rfl, hcallback⟩ | ⟨event, data, n, hreaction, rfl⟩ :=
      invoke_cases called hsound.callbacks h
    · exact ⟨.silent task s hhand hs hcallback, hsound.wired⟩
    · obtain ⟨engines, hwired, heq⟩ := dispatch_eq { called with n := n } hsound.wired
        (hsound.worker task hhand) task.subscriber s.module.library event hreaction.types
      rw [heq]
      have htransition := Transition.react task s event data n engines hhand hs hreaction
      simpa [called, Node.note] using And.intro htransition hwired

/-- The new node is sound. -/
theorem sound_initial : Sound functionName .initial where
  wired := wired_initial
  known := by simp [Node.initial]
  starting := by simp [Node.initial]
  worker := by simp [Node.initial]
  main := by simp [Node.initial]
  callbacks := fun _ => rfl

/-- Steps keep the node sound. -/
theorem Sound.transition (hsound : Sound functionName node)
    (hwired : Wired functionName node'.engines node'.subscribers)
    (h : Transition address node label node') : Sound functionName node' := by
  cases h with
  | start module exported starting hposting hstarting =>
    refine ⟨hwired, hsound.known, ?_, hsound.worker, fun _ _ => hposting, hsound.callbacks⟩
    rintro module' rest hrest s hs
    rcases hstarting with rfl | rfl
    · exact hsound.starting module' rest hrest s hs
    · cases hrest
      exact hs
  | subscribe module s rest engines hstarting =>
    refine ⟨hwired, ?_, ?_, hsound.worker, fun _ _ => hsound.main _ hstarting, hsound.callbacks⟩
    · intro s' hs'
      rcases List.mem_append.mp hs' with hs' | hs'
      · exact hsound.known s' hs'
      · rw [List.mem_singleton.mp hs']
        exact hsound.starting module _ hstarting s List.mem_cons_self
    · rintro module' rest' hrest s' hs'
      cases hrest
      exact hsound.starting module _ hstarting s' (List.mem_cons_of_mem s hs')
  | notify starting engines hnotifies hstarting =>
    rename_i thread event data
    have hthread : thread ≠ .worker := by cases hnotifies <;> simp
    refine ⟨hwired, hsound.known, ?_, ?_, ?_, hsound.callbacks⟩
    · intro module rest hrest
      rcases hstarting with rfl | ⟨rfl, _⟩
      · cases hrest
      · exact hsound.starting module rest hrest
    · intro task htask
      exact (Function.update_of_ne hthread.symm _ _).trans (hsound.worker task htask)
    · intro start hstart
      rcases hstarting with rfl | ⟨rfl, hmain⟩
      · cases hstart
      · exact (Function.update_of_ne hmain.symm _ _).trans (hsound.main start hstart)
  | post thread task rest hposting =>
    -- A thread with a call left to post is not the one that has to have none.
    have hother : ∀ thread', node.posting thread' = [] →
        Function.update node.posting thread rest thread' = [] := by
      intro thread' hempty
      have hne : thread' ≠ thread := by
        rintro rfl
        rw [hempty] at hposting
        cases hposting
      rw [Function.update_of_ne hne, hempty]
    exact ⟨hwired, hsound.known, hsound.starting,
      fun task htask => hother _ (hsound.worker task htask),
      fun start hstart => hother _ (hsound.main start hstart), hsound.callbacks⟩
  | take task rest hhand hposting hqueue =>
    exact ⟨hwired, hsound.known, hsound.starting, fun _ _ => hposting, hsound.main,
      hsound.callbacks⟩
  | silent task s hhand hs hcallback =>
    exact ⟨hwired, hsound.known, hsound.starting, (fun _ h => by cases h), hsound.main,
      hsound.callbacks⟩
  | react task s event data n engines hhand hs hreaction =>
    exact ⟨hwired, hsound.known, hsound.starting, (fun _ h => by cases h), hsound.main,
      hsound.callbacks⟩

/-- The call waits for the worker, or will. -/
def Node.InFlight (node : Node) (task : Task) : Prop :=
  node.hand = some task ∨ task ∈ node.queue ∨ ∃ thread, task ∈ node.posting thread

/-- The calls of a notification are for its subscribers. -/
theorem hears_of_mem_calls {subscribers : List Subscriber} {event : EventTypes} {data : List Data}
    {task : Task} (h : task ∈ calls subscribers event data) :
    task.key = event ∧ task.args = data ∧
      hears subscribers (data.map Data.type) event task.subscriber = true := by
  obtain ⟨i, hi, rfl⟩ := List.mem_map.mp h
  exact ⟨rfl, rfl, (List.mem_filter.mp hi).2⟩

/-- What a thread is about to post after a thread was given calls. -/
theorem mem_update {posting : Thread → List Task} {thread thread' : Thread} {posted : List Task}
    {task : Task} (h : task ∈ Function.update posting thread posted thread') :
    thread' = thread ∧ task ∈ posted ∨ task ∈ posting thread' := by
  by_cases hthread : thread' = thread
  · subst hthread
    rw [Function.update_self] at h
    exact Or.inl ⟨rfl, h⟩
  · rw [Function.update_of_ne hthread] at h
    exact Or.inr h

/-- Subscribers stay. -/
theorem Transition.getElem?_subscribers (h : Transition address node label node') {i : ℕ}
    {s : Subscriber} (hs : node.subscribers[i]? = some s) : node'.subscribers[i]? = some s := by
  cases h with
  | subscribe =>
    have hlt := (List.getElem?_eq_some_iff.mp hs).1
    exact (List.getElem?_append_left hlt).trans hs
  | start | notify | post | take | silent | react => exact hs

/-- Subscribers hear the same. -/
theorem Transition.hears (h : Transition address node label node') {args : List DataType}
    {event : EventTypes} {i : ℕ} (hi : hears node.subscribers args event i = true) :
    Modules.hears node'.subscribers args event i = true := by
  obtain ⟨s, hs, hkey⟩ := hears_iff.mp hi
  exact hears_iff.mpr ⟨s, h.getElem?_subscribers hs, hkey⟩

/-- Where the calls come from that a step posts. -/
inductive Origin (address : ℕ → UInt64) (node : Node) (label : Label) (event : EventTypes)
    (data : List Data) : Prop
  | notified {thread : Thread} : Notifies node label thread event data →
      Origin address node label event data
  | reacted {task : Task} {s : Subscriber} {n : ℕ → UInt64} : label = .call →
      node.hand = some task → node.subscribers[task.subscriber]? = some s →
      Reaction address node.n s.module s.subscription.callback task.args event data n →
      Origin address node label event data

/-- What is in flight after a step was so before, or is a call of a notification. -/
theorem Transition.inFlight (h : Transition address node label node') {task : Task}
    (htask : node'.InFlight task) : node.InFlight task ∨ ∃ event data,
      task ∈ calls node.subscribers event data ∧ Origin address node label event data := by
  cases h with
  | start | subscribe => exact Or.inl htask
  | notify starting engines hnotifies hstarting =>
    rcases htask with htask | htask | ⟨thread, htask⟩
    · exact Or.inl (Or.inl htask)
    · exact Or.inl (Or.inr (Or.inl htask))
    · rcases mem_update htask with ⟨_, hcall⟩ | hold
      · exact Or.inr ⟨_, _, hcall, .notified hnotifies⟩
      · exact Or.inl (Or.inr (Or.inr ⟨thread, hold⟩))
  | post thread first rest hposting =>
    have hfirst : node.InFlight first :=
      Or.inr (Or.inr ⟨thread, hposting ▸ List.mem_cons_self⟩)
    rcases htask with htask | htask | ⟨thread', htask⟩
    · exact Or.inl (Or.inl htask)
    · rcases List.mem_append.mp htask with hold | hnew
      · exact Or.inl (Or.inr (Or.inl hold))
      · exact Or.inl (List.mem_singleton.mp hnew ▸ hfirst)
    · refine Or.inl (Or.inr (Or.inr ⟨thread', ?_⟩))
      rcases mem_update htask with ⟨rfl, hrest⟩ | hold
      · exact hposting ▸ List.mem_cons_of_mem first hrest
      · exact hold
  | take first rest hhand hposting hqueue =>
    rcases htask with htask | htask | htask
    · cases htask
      exact Or.inl (Or.inr (Or.inl (hqueue ▸ List.mem_cons_self)))
    · exact Or.inl (Or.inr (Or.inl (hqueue ▸ List.mem_cons_of_mem first htask)))
    · exact Or.inl (Or.inr (Or.inr htask))
  | silent first s hhand hs hcallback =>
    rcases htask with htask | htask
    · cases htask
    · exact Or.inl (Or.inr htask)
  | react first s event data n engines hhand hs hreaction =>
    rcases htask with htask | htask | ⟨thread, htask⟩
    · cases htask
    · exact Or.inl (Or.inr (Or.inl htask))
    · rcases mem_update htask with ⟨_, hcall⟩ | hold
      · exact Or.inr ⟨event, data, hcall, .reacted rfl hhand hs hreaction⟩
      · exact Or.inl (Or.inr (Or.inr ⟨thread, hold⟩))

/-- What is noted in a step is the call that the worker makes, and what is dispatched in it. -/
theorem Transition.mem_log (h : Transition address node label node') {happening : Happening}
    (hmem : happening ∈ node'.log) : happening ∈ node.log ∨
      ∃ task s, node.hand = some task ∧ node.subscribers[task.subscriber]? = some s ∧
        (happening = .called task.subscriber task.args ∨ ∃ event data n,
          Reaction address node.n s.module s.subscription.callback task.args event data n ∧
            happening = .dispatched task.subscriber s.module.library event data) := by
  cases h with
  | start | subscribe | notify | post | take => exact Or.inl hmem
  | silent task s hhand hs hcallback =>
    rcases List.mem_append.mp hmem with hold | hnew
    · exact Or.inl hold
    · exact Or.inr ⟨task, s, hhand, hs, Or.inl (List.mem_singleton.mp hnew)⟩
  | react task s event data n engines hhand hs hreaction =>
    rcases List.mem_append.mp hmem with hold | hnew
    · exact Or.inl hold
    · refine Or.inr ⟨task, s, hhand, hs, ?_⟩
      rcases List.mem_cons.mp hnew with rfl | hnew
      · exact Or.inl rfl
      · exact Or.inr ⟨event, data, n, hreaction, List.mem_singleton.mp hnew⟩

/-- A property that transitions keep holds after every run, with the node sound. -/
theorem Run.holds (hseparate : Separate functionName) {I : List Label → Node → Prop}
    {start : Node} {trace : List Label} (hrun : Run (Step functionName address) start trace node)
    (hsound : Sound functionName start) (hstart : I [] start)
    (hstep : ∀ {trace label u u'}, Sound functionName u → I trace u →
      Transition address u label u' → I (trace ++ [label]) u') :
    Sound functionName node ∧ I trace node := by
  refine hrun.invariant (I := fun trace u => Sound functionName u ∧ I trace u)
    ⟨hsound, hstart⟩ ?_
  rintro trace label u u' _ ⟨hu, hI⟩ h
  obtain ⟨htransition, hwired⟩ := Step.transition hseparate hu h
  exact ⟨hu.transition hwired htransition, hstep hu hI htransition⟩

end CppJam.Modules
