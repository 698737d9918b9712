import CppJam.Modules.Steps
import Mathlib.Algebra.Group.Nat.Defs

/-!
# Requests and responses

Whatever modules are loaded and in whatever order the threads take their steps: from the moment
that a networking module is subscribed to requests, it answers each request that any synchronizer
dispatches exactly once and in the order of the requests; what it has not answered yet is on its
way. The requests of one synchronizer have different numbers.
-/

namespace CppJam.Modules

open Runs
open Subscriptions (Engine Call)

/-- The request that was dispatched. -/
def Happening.request? : Happening → Option RequestId
  | .dispatched _ _ .blockRequest [.blockRequest rid] => some rid
  | _ => none

/-- The request of a library. -/
def Happening.requestOf? (library : ℕ) : Happening → Option RequestId
  | .dispatched _ library' .blockRequest [.blockRequest rid] =>
    if library' = library then some rid else none
  | _ => none

/-- The request that a subscriber answered. -/
def Happening.answer? (i : ℕ) : Happening → Option RequestId
  | .dispatched j _ .blockResponse [.blockResponse rid] => if j = i then some rid else none
  | _ => none

/-- The request that a subscriber is to be called with. -/
def request? (i : ℕ) (task : Task) : Option RequestId :=
  match task.args with
  | [.blockRequest rid] => if task.subscriber = i then some rid else none
  | _ => none

namespace Node

/-- The requests that were dispatched, in order. -/
def requests (node : Node) : List RequestId := node.log.filterMap Happening.request?

/-- The requests of the synchronizer in a library. -/
def requestsOf (library : ℕ) (node : Node) : List RequestId :=
  node.log.filterMap (Happening.requestOf? library)

/-- The requests that were answered in calls of a subscriber, in order. -/
def answered (i : ℕ) (node : Node) : List RequestId := node.log.filterMap (Happening.answer? i)

/-- The calls from the one that the worker makes to those that it is about to post. -/
def route (node : Node) : List Task := node.hand.toList ++ node.queue ++ node.posting .worker

/-- The requests that a subscriber is going to be called with, in order. -/
def pending (i : ℕ) (node : Node) : List RequestId := node.route.filterMap (request? i)

end Node

/-- Calls on the route of the worker are in flight. -/
theorem inFlight_of_mem_route {node : Node} {task : Task} (h : task ∈ node.route) :
    node.InFlight task := by
  simp only [Node.route, List.mem_append, Option.mem_toList] at h
  rcases h with (h | h) | h
  · exact Or.inl h
  · exact Or.inr (Or.inl h)
  · exact Or.inr (Or.inr ⟨.worker, h⟩)

/-- What holds of the calls in flight and of what was done. -/
structure Addressed (node : Node) : Prop where
  /-- Calls are for subscribers of their event and data types. -/
  heard : ∀ task, node.InFlight task →
    hears node.subscribers (task.args.map Data.type) task.key task.subscriber = true
  /-- Only the worker posts requests. -/
  others : ∀ thread, thread ≠ .worker → ∀ task ∈ node.posting thread, task.key ≠ .blockRequest
  /-- Answers were given in calls of subscribers. -/
  answers : ∀ i, node.subscribers.length ≤ i → node.answered i = []

variable {functionName : List DataType → List UInt8} {address : ℕ → UInt64} {node node' : Node}
  {label : Label}

/-- Calls are addressed in the new node. -/
theorem addressed_initial : Addressed .initial where
  heard := by simp [Node.InFlight, Node.initial]
  others := by simp [Node.initial]
  answers := fun _ _ => rfl

/-- The events of threads other than the worker. -/
theorem Notifies.ne_blockRequest {thread : Thread} {event : EventTypes} {data : List Data}
    (h : Notifies node label thread event data) : thread ≠ .worker ∧ event ≠ .blockRequest := by
  cases h with
  | loaded module _ =>
    refine ⟨by decide, ?_⟩
    cases module.kind <;> decide
  | finished i => exact ⟨by simp, by decide⟩
  | dispatch i event text hexample =>
    refine ⟨by simp, ?_⟩
    rintro rfl
    cases hexample

section Reactions

variable {counts n : ℕ → UInt64} {module : Module} {callback : Callback} {data data' : List Data}
  {event : EventTypes} {i j library : ℕ}

/-- What is done in the call of one subscriber is no answer of another. -/
theorem Reaction.answer?_eq_none (h : Reaction address counts module callback data event data' n)
    (hne : j ≠ i) : (Happening.dispatched j library event data').answer? i = none := by
  cases h <;> simp [Happening.answer?, hne]

end Reactions

/-- Steps keep the calls addressed. -/
theorem Addressed.transition (haddressed : Addressed node)
    (h : Transition address node label node') : Addressed node' := by
  refine ⟨fun task htask => ?_, ?_, ?_⟩
  · obtain hold | ⟨event, data, hcall, _⟩ := h.inFlight htask
    · exact h.hears (haddressed.heard task hold)
    · obtain ⟨rfl, rfl, hhears⟩ := hears_of_mem_calls hcall
      exact h.hears hhears
  · cases h with
    | start | subscribe | take | silent => exact haddressed.others
    | notify starting engines hnotifies hstarting =>
      intro thread hthread task htask
      rcases mem_update htask with ⟨_, hcall⟩ | hold
      · rw [(hears_of_mem_calls hcall).1]
        exact hnotifies.ne_blockRequest.2
      · exact haddressed.others thread hthread task hold
    | post thread' task' rest hposting =>
      intro thread hthread task htask
      refine haddressed.others thread hthread task ?_
      rcases mem_update htask with ⟨rfl, hrest⟩ | hold
      · exact hposting ▸ List.mem_cons_of_mem task' hrest
      · exact hold
    | react task' s event data n engines hhand hs hreaction =>
      intro thread hthread task htask
      rcases mem_update htask with ⟨hworker, _⟩ | hold
      · exact absurd hworker hthread
      · exact haddressed.others thread hthread task hold
  · intro i hi
    cases h with
    | start | notify | post | take => exact haddressed.answers i hi
    | subscribe module s rest engines hstarting =>
      refine haddressed.answers i ?_
      simp only [List.length_append] at hi
      omega
    | silent task s hhand hs hcallback =>
      simp only [Node.answered, List.filterMap_append, List.append_eq_nil_iff]
      exact ⟨haddressed.answers i hi, rfl⟩
    | react task s event data n engines hhand hs hreaction =>
      have hlt := (List.getElem?_eq_some_iff.mp hs).1
      have hne : task.subscriber ≠ i := by
        simp only at hi
        omega
      simp only [Node.answered, List.filterMap_append, List.append_eq_nil_iff]
      refine ⟨haddressed.answers i hi, ?_⟩
      rw [List.filterMap_cons_none rfl, List.filterMap_cons_none (hreaction.answer?_eq_none hne),
        List.filterMap_nil]

/-- The subscriber of a networking module for requests. -/
theorem eq_of_onBlockRequest {kind : Kind} {s : Subscription} (hs : s ∈ kind.subscriptions)
    (hcallback : s.callback = .onBlockRequest) :
    s.event = .blockRequest ∧ s.args = [.blockRequest] := by
  have hall : ∀ kind : Kind, ∀ s ∈ kind.subscriptions, s.callback = .onBlockRequest →
      s.event = .blockRequest ∧ s.args = [.blockRequest] := by
    intro kind
    cases kind <;> decide
  exact hall kind s hs hcallback

/-- A call of another subscriber is no request for this one. -/
theorem request?_of_ne {i : ℕ} {task : Task} (hne : task.subscriber ≠ i) :
    request? i task = none := by
  unfold request?
  split
  · rw [if_neg hne]
  · rfl

/-- One element of a list without repetitions. -/
theorem filterMap_single {α : Type} {a : α} {i : ℕ} {l : List ℕ} (hnodup : l.Nodup)
    (hi : i ∈ l) : l.filterMap (fun j => if j = i then some a else none) = [a] := by
  induction l with
  | nil => cases hi
  | cons j l ih =>
    obtain ⟨hj, hnodup⟩ := List.nodup_cons.mp hnodup
    by_cases hji : j = i
    · subst hji
      have hrest : l.filterMap (fun k => if k = j then some a else none) = [] := by
        refine List.filterMap_eq_nil_iff.mpr fun k hk => if_neg ?_
        rintro rfl
        exact hj hk
      simp [hrest]
    · have hil : i ∈ l := (List.mem_cons.mp hi).resolve_left (Ne.symm hji)
      simp [hji, ih hnodup hil]

/-- A subscriber is called once with a request. -/
theorem filterMap_calls_request {subscribers : List Subscriber} {i : ℕ} {rid : RequestId}
    (hi : hears subscribers [.blockRequest] .blockRequest i = true) :
    (calls subscribers .blockRequest [.blockRequest rid]).filterMap (request? i) = [rid] := by
  have hlt : i < subscribers.length := by
    obtain ⟨s, hs, _⟩ := hears_iff.mp hi
    exact (List.getElem?_eq_some_iff.mp hs).1
  rw [calls, List.filterMap_map]
  exact filterMap_single (List.nodup_range.filter _)
    (List.mem_filter.mpr ⟨List.mem_range.mpr hlt, hi⟩)

/-- Other calls are no requests. -/
theorem filterMap_calls_other {subscribers : List Subscriber} {i : ℕ} {event : EventTypes}
    {data : List Data} (hdata : ∀ rid, data ≠ [.blockRequest rid]) :
    (calls subscribers event data).filterMap (request? i) = [] := by
  refine List.filterMap_eq_nil_iff.mpr fun task htask => ?_
  obtain ⟨_, hargs, _⟩ := hears_of_mem_calls htask
  unfold request?
  split
  · rename_i rid heq
    exact absurd (hargs.symm.trans heq) (hdata rid)
  · rfl

/-- From some requests on, a subscriber has answered them in order, but for those on their way. -/
structure Answering (before : List RequestId) (i : ℕ) (node : Node) : Prop where
  addressed : Addressed node
  /-- The subscriber is one for requests. -/
  subscriber : ∃ s, node.subscribers[i]? = some s ∧ s.subscription.callback = .onBlockRequest
  /-- Each request is answered once, or on its way. -/
  exchange : node.requests = before ++ node.answered i ++ node.pending i

/-- Steps that do not call a function keep what is done, and the requests on their way. -/
theorem Transition.pending_eq (hsound : Sound functionName node) (haddressed : Addressed node)
    {i : ℕ} {s : Subscriber} (hs : node.subscribers[i]? = some s)
    (hcallback : s.subscription.callback = .onBlockRequest) (hlabel : label ≠ .call)
    (h : Transition address node label node') :
    node'.log = node.log ∧ node'.pending i = node.pending i := by
  cases h with
  | start | subscribe => exact ⟨rfl, rfl⟩
  | notify starting engines hnotifies hstarting =>
    refine ⟨rfl, ?_⟩
    simp only [Node.pending, Node.route, Function.update_of_ne hnotifies.ne_blockRequest.1.symm]
  | post thread task rest hposting =>
    refine ⟨rfl, ?_⟩
    by_cases hthread : thread = .worker
    · subst hthread
      simp only [Node.pending, Node.route, Function.update_self, hposting, List.append_assoc,
        List.singleton_append]
    · have hmem : task ∈ node.posting thread := hposting ▸ List.mem_cons_self
      have hne : task.subscriber ≠ i := by
        rintro rfl
        have hknown := hsound.known s (List.mem_of_getElem? hs)
        obtain ⟨s', hs', hevent, _⟩ :=
          hears_iff.mp (haddressed.heard task (Or.inr (Or.inr ⟨thread, hmem⟩)))
        obtain rfl : s = s' := Option.some.inj (hs.symm.trans hs')
        refine haddressed.others thread hthread task hmem ?_
        rw [← hevent, (eq_of_onBlockRequest hknown hcallback).1]
      simp only [Node.pending, Node.route, Function.update_of_ne (Ne.symm hthread),
        List.filterMap_append, List.filterMap_cons_none (request?_of_ne hne), List.filterMap_nil,
        List.append_nil]
  | take task rest hhand hposting hqueue =>
    refine ⟨rfl, ?_⟩
    simp only [Node.pending, Node.route, hhand, hqueue, Option.toList_some, Option.toList_none,
      List.nil_append, List.singleton_append]
  | silent | react => exact absurd rfl hlabel

/-- What a subscriber is called with is what it answers, and what it is going to be called with is
what is requested. -/
theorem Reaction.exchange {counts n : ℕ → UInt64} {module : Module} {callback : Callback}
    {data : List Data} {event : EventTypes} {task : Task} {subscribers : List Subscriber}
    {i : ℕ} (h : Reaction address counts module callback task.args event data n) (library : ℕ)
    (hi : hears subscribers [.blockRequest] .blockRequest i = true) :
    (request? i task).toList =
        ((Happening.dispatched task.subscriber library event data).answer? i).toList ∧
      (calls subscribers event data).filterMap (request? i) =
        (Happening.dispatched task.subscriber library event data).request?.toList := by
  generalize hargs : task.args = args at h
  unfold request?
  rw [hargs]
  cases h with
  | announce library' => exact ⟨rfl, filterMap_calls_other fun _ => by simp⟩
  | respond library' rid => exact ⟨rfl, filterMap_calls_other fun _ => by simp⟩
  | request library' => exact ⟨rfl, filterMap_calls_request hi⟩

/-- What one element gives. -/
theorem filterMap_singleton {α β : Type} (f : α → Option β) (a : α) :
    [a].filterMap f = (f a).toList := by
  cases ha : f a with
  | none => rw [List.filterMap_cons_none ha, List.filterMap_nil, Option.toList_none]
  | some b => rw [List.filterMap_cons_some ha, List.filterMap_nil, Option.toList_some]

/-- The requests on their way when the worker makes a call. -/
theorem pending_of_hand (hsound : Sound functionName node) {i : ℕ} {task : Task}
    (hhand : node.hand = some task) :
    node.pending i = (request? i task).toList ++ node.queue.filterMap (request? i) := by
  rw [Node.pending, Node.route, hhand, hsound.worker task hhand, List.append_nil,
    List.filterMap_append, Option.toList_some, filterMap_singleton]

/-- What is dispatched in a call is noted after it. -/
theorem filterMap_called {β : Type} {f : Happening → Option β}
    (hcalled : ∀ j data, f (.called j data) = none) (j : ℕ) (data : List Data)
    (happening : Happening) :
    [.called j data, happening].filterMap f = (f happening).toList := by
  rw [List.filterMap_cons_none (hcalled j data), filterMap_singleton]

/-- Steps keep the exchange going. -/
theorem Answering.transition (hsound : Sound functionName node) {before : List RequestId} {i : ℕ}
    (hanswering : Answering before i node) (h : Transition address node label node') :
    Answering before i node' := by
  obtain ⟨haddressed, ⟨s, hs, hcallback⟩, hexchange⟩ := hanswering
  refine ⟨haddressed.transition h, ⟨s, h.getElem?_subscribers hs, hcallback⟩, ?_⟩
  by_cases hlabel : label = .call
  · subst hlabel
    cases h with
    | silent task s' hhand hs' hcallback' =>
      have hne : task.subscriber ≠ i := by
        rintro rfl
        obtain rfl : s = s' := Option.some.inj (hs.symm.trans hs')
        exact hcallback' hcallback
      rw [pending_of_hand hsound hhand, request?_of_ne hne] at hexchange
      simpa [Node.requests, Node.answered, Node.pending, Node.route, filterMap_singleton,
        hsound.worker task hhand, Happening.request?, Happening.answer?] using hexchange
    | react task s' event data n engines hhand hs' hreaction =>
      obtain ⟨hevent, hargs⟩ :=
        eq_of_onBlockRequest (hsound.known s (List.mem_of_getElem? hs)) hcallback
      obtain ⟨htaken, hposted⟩ :=
        hreaction.exchange s'.module.library (hears_iff.mpr ⟨s, hs, hevent, hargs⟩)
      rw [pending_of_hand hsound hhand, htaken] at hexchange
      simp only [Node.requests, Node.answered, Node.pending, Node.route, Function.update_self,
        Option.toList_none, List.nil_append, List.filterMap_append, hposted] at hexchange ⊢
      rw [filterMap_called fun _ _ => rfl, filterMap_called fun _ _ => rfl, hexchange]
      simp only [List.append_assoc]
    | notify starting engines hnotifies hstarting => cases hnotifies
  · obtain ⟨hlog, hpending⟩ := h.pending_eq hsound haddressed hs hcallback hlabel
    rw [Node.requests, Node.answered, hlog, hpending]
    exact hexchange

/-- The first requests of a synchronizer. -/
def numbered (seed : UInt64) (k : ℕ) : List RequestId :=
  (List.range k).map fun j => .new seed (UInt64.ofNat (j + 1))

/-- The requests of a synchronizer are numbered, and its counter is at the last number. -/
def Numbered (address : ℕ → UInt64) (node : Node) : Prop :=
  ∀ library, ∃ k, node.n library = UInt64.ofNat k ∧
    node.requestsOf library = numbered (address library) k

/-- A module asks with the next number, or leaves the counter. -/
theorem Reaction.requestOf? {counts n : ℕ → UInt64} {module : Module} {callback : Callback}
    {data data' : List Data} {event : EventTypes}
    (h : Reaction address counts module callback data event data' n) (j library : ℕ) :
    (n library = counts library ∧
      (Happening.dispatched j module.library event data').requestOf? library = none) ∨
    (n library = counts library + 1 ∧
      (Happening.dispatched j module.library event data').requestOf? library =
        some (.new (address library) (counts library + 1))) := by
  cases h with
  | announce | respond => exact Or.inl ⟨rfl, rfl⟩
  | request library' =>
    by_cases hlibrary : library' = library
    · subst hlibrary
      exact Or.inr ⟨Function.update_self .., if_pos rfl⟩
    · exact Or.inl ⟨Function.update_of_ne (Ne.symm hlibrary) .., if_neg hlibrary⟩

/-- Steps keep the numbers. -/
theorem Numbered.transition (hnumbered : Numbered address node)
    (h : Transition address node label node') : Numbered address node' := by
  intro library
  obtain ⟨k, hn, hrequests⟩ := hnumbered library
  cases h with
  | start | subscribe | notify | post | take => exact ⟨k, hn, hrequests⟩
  | silent task s hhand hs hcallback =>
    refine ⟨k, hn, ?_⟩
    rw [Node.requestsOf, List.filterMap_append, filterMap_singleton]
    exact (List.append_nil _).trans hrequests
  | react task s event data n engines hhand hs hreaction =>
    simp only [Node.requestsOf, List.filterMap_append] at hrequests ⊢
    rw [filterMap_called fun _ _ => rfl, hrequests]
    obtain ⟨hcount, hnone⟩ | ⟨hcount, hsome⟩ := hreaction.requestOf? task.subscriber library
    · exact ⟨k, hcount.trans hn, by rw [hnone, Option.toList_none, List.append_nil]⟩
    · have hnext : node.n library + 1 = UInt64.ofNat (k + 1) := by
        rw [hn, UInt64.ofNat_add]
        rfl
      refine ⟨k + 1, hcount.trans hnext, ?_⟩
      rw [hsome, hnext, numbered, numbered, List.range_succ, List.map_append]
      rfl

/-- Different numbers make different requests. -/
theorem nodup_numbered (seed : UInt64) {k : ℕ} (hk : k ≤ 2 ^ 64) : (numbered seed k).Nodup := by
  refine List.Nodup.map_on (fun a ha b hb heq => ?_) List.nodup_range
  rw [List.mem_range] at ha hb
  have hsum : UInt64.ofNat (a + 1) = UInt64.ofNat (b + 1) := by
    simpa [RequestId.new] using heq
  have hmod : (a + 1) % 2 ^ 64 = (b + 1) % 2 ^ 64 := by
    simpa using congrArg UInt64.toNat hsum
  omega

/-- Whatever modules are loaded, and in whatever order the threads take their steps: a networking
module that subscribes to requests answers, from then on, each request that is dispatched exactly
once and in order, but for those that are on their way to it; and the requests of one
synchronizer, up to 2^64 of them, are different. -/
theorem answers_in_order (hseparate : Separate functionName) {front back : List Label}
    {u u' : Node} (hfront : Run (Step functionName address) .initial front u)
    (hsubscribe : Step functionName address u .subscribe u')
    (hback : Run (Step functionName address) u' back node) {s : Subscriber}
    (hs : u'.subscribers[u.subscribers.length]? = some s)
    (hcallback : s.subscription.callback = .onBlockRequest) :
    node.requests = u.requests ++ node.answered u.subscribers.length ++
        node.pending u.subscribers.length ∧
      ∀ library, (node.requestsOf library).length ≤ 2 ^ 64 →
        (node.requestsOf library).Nodup := by
  obtain ⟨hsound, haddressed, hnumbered⟩ := Run.holds hseparate hfront sound_initial
    (I := fun _ u => Addressed u ∧ Numbered address u)
    ⟨addressed_initial, fun _ => ⟨0, rfl, rfl⟩⟩
    fun _ hu h => ⟨hu.1.transition h, hu.2.transition h⟩
  obtain ⟨htransition, hwired⟩ := Step.transition hseparate hsound hsubscribe
  have hsound' := hsound.transition hwired htransition
  -- Nothing was done or is on its way for the new subscriber.
  have hstart : Answering u.requests u.subscribers.length u' := by
    refine ⟨haddressed.transition htransition, ⟨s, hs, hcallback⟩, ?_⟩
    cases htransition with
    | subscribe module s' rest engines hstarting =>
      have hpending : u.pending u.subscribers.length = [] := by
        refine List.filterMap_eq_nil_iff.mpr fun task htask => request?_of_ne ?_
        obtain ⟨_, hhears, _⟩ := hears_iff.mp (haddressed.heard task (inFlight_of_mem_route htask))
        exact (List.getElem?_eq_some_iff.mp hhears).1.ne
      have hnone : u.requests = u.requests ++ u.answered u.subscribers.length ++
          u.pending u.subscribers.length := by
        rw [haddressed.answers _ le_rfl, hpending, List.append_nil, List.append_nil]
      exact hnone
    | notify starting engines hnotifies hstarting => cases hnotifies
  obtain ⟨_, hanswering, hnumbered'⟩ := Run.holds hseparate hback hsound'
    (I := fun _ v => Answering u.requests u.subscribers.length v ∧ Numbered address v)
    ⟨hstart, hnumbered.transition htransition⟩
    fun hv hI h => ⟨hI.1.transition hv h, hI.2.transition h⟩
  refine ⟨hanswering.exchange, fun library hlength => ?_⟩
  obtain ⟨k, _, hrequests⟩ := hnumbered' library
  rw [hrequests] at hlength ⊢
  refine nodup_numbered _ ?_
  rwa [numbered, List.length_map, List.length_range] at hlength

/-- How GCC writes the type of event data. -/
def DataType.gccName : DataType → String
  | text =>
    "std::shared_ptr<const std::__cxx11::basic_string<char, std::char_traits<char>, " ++
      "std::allocator<char> > >"
  | blockAnnounce => "std::shared_ptr<const jam::messages::BlockAnnounceMessage>"
  | blockRequest => "std::shared_ptr<const jam::messages::BlockRequestMessage>"
  | blockResponse => "std::shared_ptr<const jam::messages::BlockResponseMessage>"

/-- `__PRETTY_FUNCTION__` of `getSubscriptionHash<Args...>`, as GCC writes it. -/
def gccFunctionName (args : List DataType) : List UInt8 :=
  Subscriptions.Hasher.chars
    ("static constexpr jam::se::SubscriptionManager<kHandlersCount, kPoolSize>::EngineHash " ++
      "jam::se::SubscriptionManager<kHandlersCount, kPoolSize>::getSubscriptionHash() " ++
      "[with Args = \x7b" ++ ", ".intercalate (args.map DataType.gccName) ++
      "\x7d; unsigned int kHandlersCount = 1; unsigned int kPoolSize = 3; " ++
      "EngineHash = long unsigned int]")

/-- Texts with the same hashes that are shorter, so that runs are evaluated with them. -/
def shortName : List DataType → List UInt8
  | [] => Subscriptions.Hasher.chars "aawbbqom"
  | [.text] => Subscriptions.Hasher.chars "acfpqafa"
  | [.blockAnnounce] => Subscriptions.Hasher.chars "acgajukh"
  | [.blockRequest] => Subscriptions.Hasher.chars "apfaiwmu"
  | [.blockResponse] => Subscriptions.Hasher.chars "afushhnz"
  | args => gccFunctionName args

/-- The hashes are the same. -/
theorem engineId_shortName : engineId shortName = engineId gccFunctionName := by
  have hused : ∀ args ∈ dataTypes, engineId shortName args = engineId gccFunctionName args := by
    decide +kernel
  funext args
  by_cases hargs : args ∈ dataTypes
  · exact hused args hargs
  · unfold engineId Subscriptions.getSubscriptionHash
    rw [shortName.eq_6]
    all_goals
      rintro rfl
      exact hargs (by decide)

/-- The hashes of the names that GCC gives are different. -/
theorem separate_gccFunctionName : Separate gccFunctionName := by
  have hshort : Separate shortName := by
    unfold Separate
    decide +kernel
  unfold Separate at hshort ⊢
  rwa [engineId_shortName] at hshort

/-- The steps depend on the names by their hashes only. -/
theorem exec_congr {f g : List DataType → List UInt8} (h : engineId f = engineId g)
    (address : ℕ → UInt64) : exec f address = exec g address := by
  funext node label
  unfold exec Node.onNotify Node.invoke Node.onLoadingIsFinished Node.onBlockRequest
    Node.onBlockAnnounce Node.dispatch Node.subscribe Node.notify
  rw [h]

/-- The networking module is about to subscribe to requests. -/
def beforeSubscription : List Label := [.start ⟨.networking, 0⟩ true, .subscribe, .subscribe]

/-- A synchronizer is loaded, loading is finished, and a block is announced, requested and sent. -/
def afterSubscription : List Label := [
  .loaded, .post .main, .start ⟨.synchronizer, 1⟩ true, .take, .subscribe, .subscribe, .call,
  .subscribe, .loaded, .finished 0, .post (.other 0), .take, .call, .post .worker, .post .main,
  .take, .call, .post .worker, .take, .call, .take, .call]

/-- The node after some steps, with a synchronizer at address 64. -/
def nodeAfter (trace : List Label) : Option Node :=
  trace.foldlM (exec shortName fun _ => 64) .initial

/-- The node after a run is the one that is computed. -/
theorem nodeAfter_eq_some {trace : List Label} {node : Node} :
    nodeAfter trace = some node ↔ Run (Step gccFunctionName fun _ => 64) .initial trace node := by
  rw [nodeAfter, exec_congr engineId_shortName]
  exact ⟨Run.of_foldlM_some, Run.foldlM_eq_some⟩

/-- What is computed of the node holds after the run. -/
theorem eq_of_nodeAfter {α : Type} {f : Node → α} {trace : List Label} {node : Node} {a : α}
    (h : (nodeAfter trace).map f = some a)
    (hrun : Run (Step gccFunctionName fun _ => 64) .initial trace node) : f node = a := by
  rw [nodeAfter_eq_some.mpr hrun, Option.map_some] at h
  exact Option.some.inj h

/-- The request is answered, and nothing is on its way. -/
theorem answers_in_order_once : ∃ u u' node,
    Run (Step gccFunctionName fun _ => 64) .initial beforeSubscription u ∧
      Step gccFunctionName (fun _ => 64) u .subscribe u' ∧
      Run (Step gccFunctionName fun _ => 64) u' afterSubscription node ∧
      node.requests = [⟨2654439882⟩] ∧ node.answered 2 = [⟨2654439882⟩] ∧
      node.requests = u.requests ++ node.answered 2 ++ node.pending 2 := by
  have hdefined : (nodeAfter (beforeSubscription ++ .subscribe :: afterSubscription)).isSome := by
    decide +kernel
  obtain ⟨node, hnode⟩ := Option.isSome_iff_exists.mp hdefined
  have hrun := nodeAfter_eq_some.mp hnode
  obtain ⟨u, u', hfront, hsubscribe, hback⟩ := hrun.at_step
  have hrequests : node.requests = [⟨2654439882⟩] := eq_of_nodeAfter (by decide +kernel) hrun
  have hanswered : node.answered 2 = [⟨2654439882⟩] :=
    eq_of_nodeAfter (f := Node.answered 2) (by decide +kernel) hrun
  have hlength : u.subscribers.length = 2 :=
    eq_of_nodeAfter (f := fun u => u.subscribers.length) (by decide +kernel) hfront
  have hs : u'.subscribers[2]? =
      some ⟨⟨.blockRequest, [.blockRequest], .onBlockRequest⟩, ⟨.networking, 0⟩⟩ :=
    eq_of_nodeAfter (f := fun u' => u'.subscribers[2]?) (by decide +kernel)
      (hfront.snoc hsubscribe)
  rw [← hlength] at hs
  have horder := (answers_in_order separate_gccFunctionName hfront hsubscribe hback hs rfl).1
  rw [hlength] at horder
  exact ⟨u, u', node, hfront, hsubscribe, hback, hrequests, hanswered, horder⟩

end CppJam.Modules
