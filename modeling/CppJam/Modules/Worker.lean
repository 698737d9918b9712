import CppJam.Modules.Node
import CppJam.Runs
import CppJam.Scheduler.Untimed

/-!
# The scheduler of the worker

The node has a queue for the calls that wait for the worker. In the program they are given without
timeout to the scheduler of `kTest`, which keeps them in the order of the times at which they are
due. A node with this scheduler in place of the queue is the node: each of its runs is, seen with
the calls that the scheduler holds as the queue, a run of the node. The dispatcher takes calls until
the subscription manager is disposed, and runs end before.
-/

namespace CppJam.Modules

open Runs
open Scheduler (InTurn Hand TimedTask)

/-- The node with other calls on their way. -/
def Node.withCalls (queue : List Task) (hand : Option Task) (node : Node) : Node :=
  { node with queue := queue, hand := hand }

/-- The node with the scheduler of its worker. -/
structure Hosted where
  /-- The node, without the calls that wait for the worker. -/
  node : Node
  /-- The scheduler of `kTest`. -/
  scheduler : Scheduler.State
  /-- The calls that were given to the scheduler, each at its number. -/
  given : List Task
  /-- The worker is inside `on_notify`, or posts what it notified there. -/
  calling : Bool

namespace Hosted

/-- The node before modules are loaded. -/
def initial (start : ℤ) : Hosted := ⟨.initial, .initial start, [], false⟩

/-- A step of a thread. -/
inductive Turn where
  /-- A step that is not about the calls. -/
  | other (label : Label)
  /-- A thread gives the next call to the dispatcher. -/
  | post (thread : Thread) (now : ℤ)
  /-- The worker extracts a call. -/
  | extract (now : ℤ)
  /-- The worker finds no call. -/
  | pause (now : ℤ)
  /-- The worker calls the function of the subscriber. -/
  | call
  /-- The body of the task returns. -/
  | returns
  deriving DecidableEq

end Hosted

/-- The steps that load modules and notify. -/
def Label.isLoading : Label → Bool
  | .start .. | .subscribe | .loaded | .finished _ | .dispatch .. => true
  | .post _ | .take | .call => false

section Semantics

variable (functionName : List DataType → List UInt8) (address : ℕ → UInt64)

/-- Execute a step; `none` when it is not the turn of the step. -/
def Hosted.exec (h : Hosted) : Turn → Option Hosted
  | .other label =>
    if label.isLoading then
      (Modules.exec functionName address h.node label).map fun node => { h with node := node }
    else none
  | .post thread now =>
    match h.node.posting thread with
    | task :: rest =>
      (Scheduler.exec h.scheduler (.addDelayed now 0 true)).map fun s =>
        { h with
          node := { h.node with posting := Function.update h.node.posting thread rest }
          scheduler := s
          given := h.given ++ [task] }
    | [] => none
  | .extract now => do
    let s ← Scheduler.exec h.scheduler (.extract now)
    if s.hand = .idle then none else return { h with scheduler := s }
  | .pause now => do
    let s ← Scheduler.exec h.scheduler (.extract now)
    if s.hand = .idle then return { h with scheduler := s } else none
  | .call =>
    match h.scheduler.hand, h.calling with
    | .holding t, false => do
      let task ← h.given[t.id]?
      let node ← h.node.onNotify functionName address task
      return { h with node := node, calling := true }
    | _, _ => none
  | .returns =>
    match h.calling, h.node.posting .worker with
    | true, [] =>
      (Scheduler.exec h.scheduler (.body true)).map fun s =>
        { h with scheduler := s, calling := false }
    | _, _ => none

/-- The step leads from one state to the other. -/
abbrev Hosted.Step (h : Hosted) (turn : Turn) (h' : Hosted) : Prop :=
  h.exec functionName address turn = some h'

end Semantics

/-- The node with the calls that the scheduler holds. -/
def Hosted.view (h : Hosted) : Node :=
  h.node.withCalls (h.scheduler.tasks.filterMap fun t => h.given[t.id]?)
    (if h.calling then none else h.scheduler.hand.task?.bind fun t => h.given[t.id]?)

/-- The steps of the node that a step is seen as. -/
def Hosted.Turn.shown : Hosted.Turn → List Label
  | .other label => [label]
  | .post thread _ => [.post thread]
  | .extract _ => [.take]
  | .pause _ => []
  | .call => [.call]
  | .returns => []

/-- The scheduler has the calls it was given in turn, and the worker posts only inside of a call. -/
structure Hosted.Valid (h : Hosted) : Prop where
  /-- The calls are in turn. -/
  turn : InTurn h.scheduler
  /-- Every accepted call was given. -/
  given : h.given.length = h.scheduler.accepted
  /-- The worker is at the head of its loop or holds a call. -/
  hand : h.scheduler.hand = .idle ∧ h.calling = false ∨
    ∃ t, h.scheduler.hand = .holding t ∧ t.id < h.scheduler.accepted
  /-- Outside of a call the worker has nothing to post. -/
  quiet : h.calling = false → h.node.posting .worker = []

variable {functionName : List DataType → List UInt8} {address : ℕ → UInt64}
  {node node' : Node} {queue : List Task} {hand : Option Task}

/-! ## The calls on their way concern no other step -/

/-- Notifying. -/
theorem notify_withCalls (node : Node) (thread : Thread) (event : EventTypes) (data : List Data) :
    (node.withCalls queue hand).notify functionName thread event data =
      (node.notify functionName thread event data).withCalls queue hand := by
  have hengines : (node.withCalls queue hand).engines = node.engines := rfl
  unfold Node.notify
  rw [hengines]
  cases node.engines (engineId functionName (data.map Data.type)) <;> rfl

/-- Notifying is for one thread. -/
theorem posting_notify {thread thread' : Thread} (hne : thread' ≠ thread) (event : EventTypes)
    (data : List Data) :
    (node.notify functionName thread event data).posting thread' = node.posting thread' := by
  unfold Node.notify
  cases node.engines (engineId functionName (data.map Data.type)) with
  | none => rfl
  | some engine => exact Function.update_of_ne hne _ _

/-- A step that loads modules or notifies. -/
theorem exec_withCalls {label : Label} (hloading : label.isLoading = true) :
    exec functionName address (node.withCalls queue hand) label =
      (exec functionName address node label).map (Node.withCalls queue hand) := by
  have hstarting : (node.withCalls queue hand).starting = node.starting := rfl
  have hposting : (node.withCalls queue hand).posting = node.posting := rfl
  cases label with
  | post | take | call => cases hloading
  | start module exported =>
    rw [exec, exec, hstarting, hposting]
    cases exported <;> cases node.starting <;> cases node.posting .main <;> rfl
  | subscribe =>
    rw [exec, exec, hstarting]
    split <;> rfl
  | loaded =>
    rw [exec, exec, hstarting]
    split
    · exact congrArg some (notify_withCalls { node with starting := none } ..)
    · rfl
  | finished i =>
    rw [exec, exec, hposting]
    split
    · exact congrArg some (notify_withCalls ..)
    · rfl
  | dispatch i event text =>
    rw [exec, exec, hposting]
    split
    · exact congrArg some (notify_withCalls ..)
    · rfl

/-- The worker posts nothing in it. -/
theorem posting_worker_of_isLoading {label : Label} (hloading : label.isLoading = true)
    (hstep : Step functionName address node label node') :
    node'.posting .worker = node.posting .worker := by
  unfold Step at hstep
  cases label with
  | post | take | call => cases hloading
  | start module exported =>
    rw [exec] at hstep
    split at hstep <;> cases hstep
    cases exported <;> rfl
  | subscribe =>
    rw [exec] at hstep
    split at hstep <;> cases hstep
    rfl
  | loaded =>
    rw [exec] at hstep
    split at hstep <;> cases hstep
    exact posting_notify (by decide) _ _
  | finished i | dispatch i event text =>
    rw [exec] at hstep
    split at hstep <;> cases hstep
    exact posting_notify (by simp) _ _

/-- A call of a module's function. -/
theorem invoke_withCalls (node : Node) (subscriber : ℕ) (module : Module) (callback : Callback)
    (data : List Data) :
    (node.withCalls queue hand).invoke functionName address subscriber module callback data =
      (node.invoke functionName address subscriber module callback data).map
        (Node.withCalls queue hand) := by
  unfold Node.invoke
  split
  · rfl
  · rfl
  · exact congrArg some (notify_withCalls (node.note _) ..)
  · exact congrArg some (notify_withCalls (node.note _) ..)
  · exact congrArg some (notify_withCalls (Node.note _ { node with n := _ }) ..)
  · have hcallbacks : (node.withCalls queue hand).callbacks = node.callbacks := rfl
    unfold Node.onBlockResponse
    rw [hcallbacks]
    split_ifs <;> rfl
  · rfl

/-- The worker's call. -/
theorem onNotify_withCalls (node : Node) (task : Task) :
    (node.withCalls queue hand).onNotify functionName address task =
      (node.onNotify functionName address task).map (Node.withCalls queue hand) := by
  have hsubscribers : (node.withCalls queue hand).subscribers = node.subscribers := rfl
  unfold Node.onNotify
  rw [hsubscribers]
  cases node.subscribers[task.subscriber]? with
  | none => rfl
  | some s => exact invoke_withCalls (node.note _) ..

/-! ## The scheduler as a queue -/

namespace Hosted

variable {h h' : Hosted}

/-- What the numbers of queued tasks stand for stays when another call is given. -/
theorem Valid.filterMap_given (hvalid : h.Valid) (task : Task) :
    (h.scheduler.tasks.filterMap fun t => (h.given ++ [task])[t.id]?) =
      h.scheduler.tasks.filterMap fun t => h.given[t.id]? := by
  refine List.filterMap_congr fun t ht => List.getElem?_append_left ?_
  rw [hvalid.given]
  exact hvalid.turn.id_lt (List.mem_append_right _ ht)

/-- What the worker holds stays when another call is given. -/
theorem Valid.hand_given (hvalid : h.Valid) (task : Task) :
    (h.scheduler.hand.task?.bind fun t => (h.given ++ [task])[t.id]?) =
      h.scheduler.hand.task?.bind fun t => h.given[t.id]? := by
  obtain ⟨hidle, _⟩ | ⟨t, hholding, hlt⟩ := hvalid.hand
  · rw [hidle]
    rfl
  · rw [hholding]
    exact List.getElem?_append_left (hvalid.given.symm ▸ hlt)

/-- A call that is given to the scheduler comes last in the queue. -/
theorem Step.viewed_post {thread : Thread} {now : ℤ} (hvalid : h.Valid)
    (hstep : Step functionName address h (.post thread now) h') :
    h'.Valid ∧ Modules.Step functionName address h.view (.post thread) h'.view := by
  unfold Step at hstep
  rw [exec] at hstep
  split at hstep
  · rename_i task rest hposting
    obtain ⟨s, haccept, rfl⟩ := Option.map_eq_some_iff.mp hstep
    have hturn := hvalid.turn.accept haccept
    obtain ⟨_, rfl⟩ := hvalid.turn.accept_eq haccept
    refine ⟨⟨hturn, ?_, ?_, fun hcalling => ?_⟩, ?_⟩
    · rw [List.length_append, hvalid.given]
      rfl
    · exact hvalid.hand.imp_right fun ⟨t, ht, hlt⟩ => ⟨t, ht, Nat.lt_succ_of_lt hlt⟩
    · have hworker : Thread.worker ≠ thread := by
        rintro rfl
        rw [hvalid.quiet hcalling] at hposting
        cases hposting
      exact (Function.update_of_ne hworker _ _).trans (hvalid.quiet hcalling)
    · have hnew : (h.given ++ [task])[h.scheduler.accepted]? = some task := by
        rw [← hvalid.given, List.getElem?_concat_length]
      have hview : h.view.posting thread = task :: rest := hposting
      unfold Modules.Step
      rw [Modules.exec, hview]
      simp [view, Node.withCalls, hvalid.filterMap_given, hvalid.hand_given, hnew]
  · cases hstep

/-- A worker that is at the head of its loop is not in a call. -/
theorem Valid.calling_of_idle (hvalid : h.Valid) (hidle : h.scheduler.hand = .idle) :
    h.calling = false := by
  obtain ⟨_, hcalling⟩ | ⟨t, hholding, _⟩ := hvalid.hand
  · exact hcalling
  · rw [hidle] at hholding
    cases hholding

/-- The worker extracts the first call of the queue. -/
theorem Step.viewed_extract {now : ℤ} (hvalid : h.Valid)
    (hstep : Step functionName address h (.extract now) h') :
    h'.Valid ∧ Modules.Step functionName address h.view .take h'.view := by
  simp only [Step, exec, Option.bind_eq_bind, Option.bind_eq_some_iff] at hstep
  obtain ⟨s, hextract, hstep⟩ := hstep
  split_ifs at hstep with hhand
  cases hstep
  obtain ⟨hidle, hexpired⟩ := Scheduler.Step.of_extract hextract
  have hturn := hvalid.turn.extract hexpired
  have hcalling := hvalid.calling_of_idle hidle
  obtain ⟨_, ⟨_, rfl⟩ | ⟨first, rest, htasks, _, rfl⟩⟩ := Scheduler.extractExpired_cases hexpired
  · exact absurd hidle hhand
  · have hlt : first.id < h.scheduler.accepted :=
      hvalid.turn.id_lt (List.mem_append_right _ (htasks ▸ List.mem_cons_self))
    refine ⟨⟨hturn, hvalid.given, .inr ⟨first, rfl, hlt⟩, hvalid.quiet⟩, ?_⟩
    obtain ⟨task, htask⟩ : ∃ task, h.given[first.id]? = some task :=
      ⟨_, List.getElem?_eq_getElem (hvalid.given.symm ▸ hlt)⟩
    have hposting : h.view.posting .worker = [] := hvalid.quiet hcalling
    have hview : h.view.hand = none := by simp [view, Node.withCalls, hidle, Hand.task?]
    have hqueue : h.view.queue = task :: rest.filterMap fun t => h.given[t.id]? := by
      simp [view, Node.withCalls, htasks, htask]
    unfold Modules.Step
    rw [Modules.exec, hview, hposting, hqueue]
    simp [view, Node.withCalls, hcalling, Hand.task?, htask]

/-- A worker that finds nothing leaves the queue as it is. -/
theorem Step.viewed_pause {now : ℤ} (hvalid : h.Valid)
    (hstep : Step functionName address h (.pause now) h') : h'.Valid ∧ h'.view = h.view := by
  simp only [Step, exec, Option.bind_eq_bind, Option.bind_eq_some_iff] at hstep
  obtain ⟨s, hextract, hstep⟩ := hstep
  split_ifs at hstep with hhand
  cases hstep
  obtain ⟨hidle, hexpired⟩ := Scheduler.Step.of_extract hextract
  have hturn := hvalid.turn.extract hexpired
  obtain ⟨_, ⟨_, rfl⟩ | ⟨first, rest, _, _, rfl⟩⟩ := Scheduler.extractExpired_cases hexpired
  · exact ⟨⟨hturn, hvalid.given, hvalid.hand, hvalid.quiet⟩, rfl⟩
  · cases hhand

/-- The worker makes the call that it extracted. -/
theorem Step.viewed_call (hvalid : h.Valid) (hstep : Step functionName address h .call h') :
    h'.Valid ∧ Modules.Step functionName address h.view .call h'.view := by
  unfold Step at hstep
  rw [exec] at hstep
  split at hstep
  · rename_i t hholding hcalling
    simp only [Option.bind_eq_bind, Option.bind_eq_some_iff] at hstep
    obtain ⟨task, htask, node, hnode, hstep⟩ := hstep
    cases hstep
    have hlt : t.id < h.scheduler.accepted := by
      rw [← hvalid.given]
      exact (List.getElem?_eq_some_iff.mp htask).1
    refine ⟨⟨hvalid.turn, hvalid.given, .inr ⟨t, hholding, hlt⟩, nofun⟩, ?_⟩
    have hview : h.view.hand = some task := by
      simp [view, Node.withCalls, hcalling, hholding, Hand.task?, htask]
    unfold Modules.Step
    rw [Modules.exec, hview]
    refine (onNotify_withCalls h.node task).trans ?_
    rw [hnode]
    rfl
  · cases hstep

/-- The end of a call is not seen. -/
theorem Step.viewed_returns (hvalid : h.Valid) (hstep : Step functionName address h .returns h') :
    h'.Valid ∧ h'.view = h.view := by
  unfold Step at hstep
  rw [exec] at hstep
  split at hstep
  · rename_i hcalling hposting
    obtain ⟨s, hbody, rfl⟩ := Option.map_eq_some_iff.mp hstep
    obtain ⟨_, hcalling'⟩ | ⟨t, hholding, _⟩ := hvalid.hand
    · rw [hcalling] at hcalling'
      cases hcalling'
    · simp only [Scheduler.exec, hholding] at hbody
      split_ifs at hbody
      cases hbody
      refine ⟨⟨⟨hvalid.turn.ids, hvalid.turn.plain, hvalid.turn.due⟩, hvalid.given, .inl ⟨rfl, rfl⟩,
        fun _ => hposting⟩, ?_⟩
      simp [view, hcalling, Hand.task?]
  · cases hstep

/-- Each step is seen as a step of the node, or not at all. -/
theorem Step.viewed {turn : Turn} (hvalid : h.Valid) (hstep : Step functionName address h turn h') :
    h'.Valid ∧ Run (Modules.Step functionName address) h.view turn.shown h'.view := by
  cases turn with
  | other label =>
    unfold Step at hstep
    rw [exec] at hstep
    split_ifs at hstep with hloading
    obtain ⟨node, hnode, rfl⟩ := Option.map_eq_some_iff.mp hstep
    have hworker := posting_worker_of_isLoading hloading hnode
    refine ⟨⟨hvalid.turn, hvalid.given, hvalid.hand, fun hcalling => ?_⟩, Run.nil.snoc ?_⟩
    · exact hworker.trans (hvalid.quiet hcalling)
    · exact (exec_withCalls hloading).trans (congrArg _ hnode)
  | post thread now => exact (Step.viewed_post hvalid hstep).imp_right Run.nil.snoc
  | extract now => exact (Step.viewed_extract hvalid hstep).imp_right Run.nil.snoc
  | pause now =>
    obtain ⟨hvalid', hview⟩ := Step.viewed_pause hvalid hstep
    exact ⟨hvalid', hview ▸ .nil⟩
  | call => exact (Step.viewed_call hvalid hstep).imp_right Run.nil.snoc
  | returns =>
    obtain ⟨hvalid', hview⟩ := Step.viewed_returns hvalid hstep
    exact ⟨hvalid', hview ▸ .nil⟩

/-- No call is on its way at first. -/
theorem valid_initial (start : ℤ) : (initial start).Valid :=
  ⟨Scheduler.inTurn_initial start, rfl, .inl ⟨rfl, rfl⟩, fun _ => rfl⟩

/-- **The scheduler is the queue of the node.** Every run of the node with the scheduler of its
worker is seen as a run of the node, whose queue holds the calls that wait in the scheduler. -/
theorem run_view {start : ℤ} {trace : List Turn}
    (hrun : Run (Step functionName address) (initial start) trace h) :
    Run (Modules.Step functionName address) .initial (trace.flatMap Turn.shown) h.view := by
  have hviewed : h.Valid ∧ Run (Modules.Step functionName address) (initial start).view
      (trace.flatMap Turn.shown) h.view :=
    hrun.viewed (I := Valid) (fun _ _ _ hstep hvalid => Step.viewed hvalid hstep)
      (valid_initial start)
  exact hviewed.2

end Hosted

end CppJam.Modules
