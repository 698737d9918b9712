import CppJam.Common
import CppJam.Slots

/-!
# The authorizations transition

Data and stages of `authorizations::transition`. Every core has a pool of
authorizers and a queue from which the pool is refilled. A block first uses up
authorizers, drawing a replacement for each, then drops the oldest authorizer of
the full pools from which nothing was used, and finally draws once more for every
pool that is not full.
-/

namespace CppJam.Authorizations

open Bytes Checks Slots

/-- `AuthorizerHash`. -/
abbrev AuthorizerHash := OpaqueHash

/-- `State`. -/
structure State where
  /-- The pool of every core, oldest authorizer first. -/
  authPools : List (List AuthorizerHash)
  /-- The queue of every core. -/
  authQueues : List (List AuthorizerHash)
  deriving DecidableEq

/-- An authorizer used by a work package on a core. -/
structure CoreAuthorizer where
  /-- Index of the core. -/
  core : UInt16
  /-- The authorizer. -/
  authorizer : AuthorizerHash
  deriving DecidableEq

/-- `Input`. -/
structure Input where
  /-- Timeslot of the block. -/
  slot : UInt32
  /-- The used authorizers. -/
  auths : List CoreAuthorizer
  deriving DecidableEq

/-- `pools[core]` and `deleted[core]`. -/
structure CorePool where
  /-- The new pool. -/
  pool : List AuthorizerHash
  /-- Whether an authorizer was used. -/
  deleted : Bool
  deriving DecidableEq

/-- A loop over all cores that updates each in turn. The index has 16 bits: with more cores
than it can count it starts again at 0 and the loop never ends. -/
def forEachCore (config : Config) (body : ℕ → CorePool → Except Abort CorePool)
    (cores : List CorePool) : Except Abort (List CorePool) := do
  let cores ← (List.range (min config.coresCount.toNat (2 ^ 16))).foldlM
    (fun cores core => modifyAt .undefinedBehaviour cores core (body core)) cores
  failIf (2 ^ 16 ≤ config.coresCount.toNat) .undefinedBehaviour
  return cores

/-- Copy the pool of a core. -/
def copyPool (config : Config) (s : State) (core : ℕ) (_ : CorePool) :
    Except Abort CorePool := do
  let pool ← element s.authPools core
  failIf (¬pool.length ≤ config.authPoolMaxSize.toNat) .assertion
  return ⟨pool, false⟩

/-- `std::erase` of a list: remove all elements equal to `a` and count them. -/
def erase (pool : List AuthorizerHash) (a : AuthorizerHash) : List AuthorizerHash × ℕ :=
  (pool.filter (fun b => b ≠ a), pool.count a)

/-- `queueing`: the authorizer in a core's queue for the slot. -/
def queueing (config : Config) (s : State) (slot : UInt32) (core : ℕ) :
    Except Abort AuthorizerHash := do
  let queue ← element s.authQueues core
  failIf (¬queue.length = config.authQueueSize.toNat) .assertion
  failIf (config.authQueueSize.toNat = 0) .undefinedBehaviour
  element queue (slot.toNat % config.authQueueSize.toNat)

/-- Remove a used authorizer from the pool of its core and draw a new one. -/
def useAuthorizer (config : Config) (s : State) (slot : UInt32) (core : ℕ)
    (authorizer : AuthorizerHash) (c : CorePool) : Except Abort CorePool :=
  let (pool, erased) := erase c.pool authorizer
  if erased ≠ 0 then do
    let drawn ← queueing config s slot core
    return ⟨pool ++ [drawn], true⟩
  else .ok ⟨pool, c.deleted⟩

/-- Drop the oldest authorizer of a full pool from which none was used. `pop_front` of an
empty list is undefined. -/
def popOldest (config : Config) (c : CorePool) : Except Abort CorePool :=
  if ¬c.deleted ∧ c.pool.length = config.authPoolMaxSize.toNat then
    match c.pool with
    | [] => .error .undefinedBehaviour
    | _ :: pool => .ok ⟨pool, c.deleted⟩
  else .ok c

/-- Draw an authorizer for a pool that is not full. -/
def fillPool (config : Config) (s : State) (slot : UInt32) (core : ℕ) (c : CorePool) :
    Except Abort CorePool :=
  if c.pool.length < config.authPoolMaxSize.toNat then do
    let drawn ← queueing config s slot core
    return ⟨c.pool ++ [drawn], c.deleted⟩
  else .ok c

/-- `authorizations::transition`. The output is empty. -/
def transition (config : Config) (s : State) (input : Input) : Except Abort (State × Unit) := do
  let cores ← forEachCore config (copyPool config s)
    (List.replicate config.coresCount.toNat ⟨[], false⟩)
  let cores ← input.auths.foldlM (fun cores auth =>
    modifyAt .undefinedBehaviour cores auth.core.toNat
      (useAuthorizer config s input.slot auth.core.toNat auth.authorizer)) cores
  let cores ← forEachCore config (fun _ => popOldest config) cores
  let cores ← forEachCore config (fillPool config s input.slot) cores
  return (⟨cores.map CorePool.pool, s.authQueues⟩, ())

end CppJam.Authorizations
