import CppJam.Subscriptions.EngineIdentity
import CppJam.Subscriptions.Engine

/-!
# Modules on the subscription engines

`run_node` starts a loader for every module, and `start` of a loader subscribes the module to its
events, one subscriber for each, and notifies that the module is loaded. Notifications become
calls for the worker thread `kTest`, which makes them one after another. A call of a module may
notify again: `Networking` answers requests for blocks, `Synchronizer` asks for the blocks that are
announced. The steps below are those of the thread that loads modules, of the worker, and of other
threads that notify. A notification posts its calls one by one, so that the calls of other threads
come in between. The subscription manager is not disposed while they run.
-/

namespace CppJam.Modules

open Subscriptions (Engine Call getSubscriptionHash)

/-- `EventTypes`, but for the events that nothing notifies or subscribes to. -/
inductive EventTypes where
  | loadingIsFinished
  | exampleModuleIsLoaded
  | exampleNotification
  | exampleRequest
  | exampleResponse
  | networkingIsLoaded
  | blockRequest
  | blockResponse
  | synchronizerIsLoaded
  | blockAnnounceReceived
  deriving DecidableEq

/-- `SubscriptionEngineHandlers`. -/
inductive Handlers where
  | kTest
  deriving DecidableEq

/-- `RequestId`. -/
structure RequestId where
  /-- `id`. -/
  id : UInt64
  deriving DecidableEq

/-- The constructor of `RequestId`. -/
def RequestId.new (seed n : UInt64) : RequestId :=
  ⟨n + 0x9e3779b9 + (seed <<< (6 : UInt64)) + (seed >>> (2 : UInt64))⟩

/-- The types of the data of events. -/
inductive DataType where
  /-- `std::shared_ptr<const std::string>`. -/
  | text
  /-- `std::shared_ptr<const BlockAnnounceMessage>`. -/
  | blockAnnounce
  /-- `std::shared_ptr<const BlockRequestMessage>`. -/
  | blockRequest
  /-- `std::shared_ptr<const BlockResponseMessage>`. -/
  | blockResponse
  deriving DecidableEq

/-- The data of an event. Messages are made with empty headers, blocks and peers, which nothing
reads. -/
inductive Data where
  | text (s : String)
  | blockAnnounce
  | blockRequest (rid : RequestId)
  | blockResponse (rid : RequestId)
  deriving DecidableEq

/-- The type of the data. -/
def Data.type : Data → DataType
  | text _ => .text
  | blockAnnounce => .blockAnnounce
  | blockRequest _ => .blockRequest
  | blockResponse _ => .blockResponse

/-- The modules that have a loader. -/
inductive Kind where
  | exampleModule
  | networking
  | synchronizer
  deriving DecidableEq

/-- The functions of modules that loaders call. -/
inductive Callback where
  | onLoadedSuccess
  | onLoadingIsFinished
  | onRequest
  | onResponse
  | onNotify
  | onBlockRequest
  | onBlockAnnounce
  | onBlockResponse
  deriving DecidableEq

/-- What `SubscriberCreator::create` is given. -/
structure Subscription where
  /-- The event. -/
  event : EventTypes
  /-- `EventData`. -/
  args : List DataType
  /-- The function that its callback calls. -/
  callback : Callback
  deriving DecidableEq

/-- The subscribers of each loader, in the order of `start`. The text of the example is not
`EventData`, but the type of the object that the subscriber holds. -/
def Kind.subscriptions : Kind → List Subscription
  | exampleModule => [
    ⟨.exampleModuleIsLoaded, [], .onLoadedSuccess⟩,
    ⟨.loadingIsFinished, [], .onLoadingIsFinished⟩,
    ⟨.exampleRequest, [], .onRequest⟩,
    ⟨.exampleResponse, [], .onResponse⟩,
    ⟨.exampleNotification, [], .onNotify⟩]
  | networking => [
    ⟨.networkingIsLoaded, [], .onLoadedSuccess⟩,
    ⟨.loadingIsFinished, [], .onLoadingIsFinished⟩,
    ⟨.blockRequest, [.blockRequest], .onBlockRequest⟩]
  | synchronizer => [
    ⟨.synchronizerIsLoaded, [], .onLoadedSuccess⟩,
    ⟨.blockAnnounceReceived, [.blockAnnounce], .onBlockAnnounce⟩,
    ⟨.blockResponse, [.blockResponse], .onBlockResponse⟩]

/-- What `start` notifies at its end. -/
def Kind.isLoaded : Kind → EventTypes
  | exampleModule => .exampleModuleIsLoaded
  | networking => .networkingIsLoaded
  | synchronizer => .synchronizerIsLoaded

/-- A module: its loader and its library, which holds the instance. -/
structure Module where
  /-- The loader. -/
  kind : Kind
  /-- The library. -/
  library : ℕ
  deriving DecidableEq

/-- A subscriber, with the module that it calls. -/
structure Subscriber where
  /-- What it is subscribed to. -/
  subscription : Subscription
  /-- `module_internal`. -/
  module : Module
  deriving DecidableEq

/-- A call that waits for the worker. -/
abbrev Task := Call EventTypes Handlers (List Data)

/-- The threads that notify. -/
inductive Thread where
  /-- The thread of `run_node`. -/
  | main
  /-- The worker `kTest`. -/
  | worker
  | other (i : ℕ)
  deriving DecidableEq

/-- What modules did. -/
inductive Happening where
  /-- The function of a subscriber was called. -/
  | called (subscriber : ℕ) (data : List Data)
  /-- In the call of a subscriber, the module notified through its loader. -/
  | dispatched (subscriber library : ℕ) (event : EventTypes) (data : List Data)
  /-- A response was found to be one to an own request. -/
  | recognized (rid : RequestId)
  deriving DecidableEq

/-- The node while `run_node` runs. -/
structure Node where
  /-- `engines_`. -/
  engines : UInt64 → Option (Engine EventTypes Handlers)
  /-- The subscribers, which the loaders hold. -/
  subscribers : List Subscriber
  /-- Where the main thread is in `start`: the subscribers that are still to be made. -/
  starting : Option (Module × List Subscription)
  /-- The calls that a thread is about to give to the dispatcher. -/
  posting : Thread → List Task
  /-- The calls that wait for the worker, in the order in which they were posted. They are in the
  scheduler of `kTest`, and have no timeout. -/
  queue : List Task
  /-- The call that the worker makes. -/
  hand : Option Task
  /-- The static `n` of `on_block_announce`, in each library. -/
  n : ℕ → UInt64
  /-- The keys of `block_response_callbacks_`, in each library. -/
  callbacks : ℕ → List RequestId
  /-- What modules did so far. -/
  log : List Happening

/-- The node before modules are loaded. -/
def Node.initial : Node where
  engines := fun _ => none
  subscribers := []
  starting := none
  posting := fun _ => []
  queue := []
  hand := none
  n := fun _ => 0
  callbacks := fun _ => []
  log := []

section Semantics

-- the compiler's name of `getSubscriptionHash<Args...>`, and the addresses of the synchronizers
variable (functionName : List DataType → List UInt8) (address : ℕ → UInt64)

/-- `getSubscriptionHash<Args...>`, for the types of event data. -/
def engineId (args : List DataType) : UInt64 := getSubscriptionHash functionName args

/-- `SubscriberCreator::create`: the engine is made when it is not there, and the new subscriber
is put at the end of the list of the event. It has no other subscription. -/
def Node.subscribe (s : Subscriber) (node : Node) : Node :=
  let engine := (node.engines (engineId functionName s.subscription.args)).getD ⟨fun _ => none, 0⟩
  let engine := (engine.subscribe .kTest 0 s.subscription.event node.subscribers.length).2
  { node with
    engines := Function.update node.engines (engineId functionName s.subscription.args)
      (some engine)
    subscribers := node.subscribers ++ [s] }

/-- `SubscriptionManager::notify`. Loaders keep their subscribers, so none is expired. -/
def Node.notify (thread : Thread) (event : EventTypes) (data : List Data) (node : Node) : Node :=
  match node.engines (engineId functionName (data.map Data.type)) with
  | none => node
  | some engine =>
    let (calls, engine) := engine.notify (fun _ => true) event data
    { node with
      engines := Function.update node.engines (engineId functionName (data.map Data.type))
        (some engine)
      posting := Function.update node.posting thread calls }

/-- Note what a module did. -/
def Node.note (happening : Happening) (node : Node) : Node :=
  { node with log := node.log ++ [happening] }

/-- `dispatch_block_announce` and the others: the worker, in the call of a subscriber, notifies
for its module. -/
def Node.dispatch (subscriber library : ℕ) (event : EventTypes) (data : List Data) (node : Node) :
    Node :=
  (node.note (.dispatched subscriber library event data)).notify functionName .worker event data

/-- `NetworkingImpl::on_loading_is_finished`. -/
def Node.onLoadingIsFinished (subscriber library : ℕ) (node : Node) : Node :=
  node.dispatch functionName subscriber library .blockAnnounceReceived [.blockAnnounce]

/-- `NetworkingImpl::on_block_request`. -/
def Node.onBlockRequest (subscriber library : ℕ) (rid : RequestId) (node : Node) : Node :=
  node.dispatch functionName subscriber library .blockResponse [.blockResponse rid]

/-- `SynchronizerImpl::on_block_announce`. -/
def Node.onBlockAnnounce (subscriber library : ℕ) (node : Node) : Node :=
  let n := node.n library + 1
  { node with n := Function.update node.n library n }.dispatch functionName subscriber library
    .blockRequest [.blockRequest (.new (address library) n)]

/-- `SynchronizerImpl::on_block_response`. -/
def Node.onBlockResponse (library : ℕ) (rid : RequestId) (node : Node) : Node :=
  if rid ∈ node.callbacks library then node.note (.recognized rid) else node

/-- The call of a module's function. `none` is for data of another type and for the functions of
the example that would read a text that is not there. -/
def Node.invoke (subscriber : ℕ) (module : Module) (callback : Callback) (data : List Data)
    (node : Node) : Option Node :=
  match module.kind, callback, data with
  | _, .onLoadedSuccess, [] => some node
  | .exampleModule, .onLoadingIsFinished, [] => some node
  | .networking, .onLoadingIsFinished, [] =>
    some (node.onLoadingIsFinished functionName subscriber module.library)
  | .networking, .onBlockRequest, [.blockRequest rid] =>
    some (node.onBlockRequest functionName subscriber module.library rid)
  | .synchronizer, .onBlockAnnounce, [.blockAnnounce] =>
    some (node.onBlockAnnounce functionName address subscriber module.library)
  | .synchronizer, .onBlockResponse, [.blockResponse rid] =>
    some (node.onBlockResponse module.library rid)
  | _, _, _ => none

/-- `on_notify` of a subscriber, by the worker. -/
def Node.onNotify (task : Task) (node : Node) : Option Node := do
  let s ← node.subscribers[task.subscriber]?
  (node.note (.called task.subscriber task.args)).invoke functionName address task.subscriber
    s.module s.subscription.callback task.args

/-- A step of a thread. -/
inductive Label where
  /-- The main thread begins `start`; the library may lack `query_module_instance`. -/
  | start (module : Module) (exported : Bool)
  /-- The next subscriber is made. -/
  | subscribe
  /-- The end of `start`. -/
  | loaded
  /-- Another thread notifies `LoadingIsFinished`; in `run_node` this line is a comment. -/
  | finished (i : ℕ)
  /-- Another thread calls `dispatch_request`, `dispatch_response` or `dispatch_notify` of an
  example's loader. -/
  | dispatch (i : ℕ) (event : EventTypes) (text : String)
  /-- A thread gives the next call to the dispatcher. -/
  | post (thread : Thread)
  /-- The worker takes the first call. -/
  | take
  /-- The worker makes the call. -/
  | call
  deriving DecidableEq

/-- The events of the example's loader. -/
def EventTypes.isExample : EventTypes → Bool
  | .exampleRequest | .exampleResponse | .exampleNotification => true
  | _ => false

/-- Execute a step; `none` when it is not the turn of the step. -/
def exec (node : Node) : Label → Option Node
  | .start module exported =>
    match node.starting, node.posting .main with
    | none, [] =>
      some (if exported then { node with starting := some (module, module.kind.subscriptions) }
        else node)
    | _, _ => none
  | .subscribe =>
    match node.starting with
    | some (module, s :: rest) =>
      some { node.subscribe functionName ⟨s, module⟩ with starting := some (module, rest) }
    | _ => none
  | .loaded =>
    match node.starting with
    | some (module, []) =>
      some ({ node with starting := none }.notify functionName .main module.kind.isLoaded [])
    | _ => none
  | .finished i =>
    match node.posting (.other i) with
    | [] => some (node.notify functionName (.other i) .loadingIsFinished [])
    | _ => none
  | .dispatch i event text =>
    match node.posting (.other i), event.isExample with
    | [], true => some (node.notify functionName (.other i) event [.text text])
    | _, _ => none
  | .post thread =>
    match node.posting thread with
    | task :: rest =>
      some { node with
        posting := Function.update node.posting thread rest
        queue := node.queue ++ [task] }
    | [] => none
  | .take =>
    match node.hand, node.posting .worker, node.queue with
    | none, [], task :: rest => some { node with hand := some task, queue := rest }
    | _, _, _ => none
  | .call => do
    let task ← node.hand
    { node with hand := none }.onNotify functionName address task

/-- The step leads from one state to the other. -/
abbrev Step (node : Node) (label : Label) (node' : Node) : Prop :=
  exec functionName address node label = some node'

end Semantics

end CppJam.Modules
