import Mathlib.Logic.Function.Basic
import TinyMachine.Vm

/-! The warm pools of `pool.rs`. A fork either fails, as the host decides, or
yields a VM in the state of the engine's snapshot. -/
namespace TinyMachine

inductive PoolError where
  | fork (error : ForkError)
  | empty
  | variantNotFound (variantId : String)
  deriving DecidableEq, Repr

def PoolError.display : PoolError → String
  | fork error => s!"Fork error: {error.display}"
  | empty => "Pool is empty"
  | variantNotFound variantId => s!"No pool registered for variant: {variantId}"

/-- The host's side of forking: how many forks were attempted, and what each
attempt meets. -/
structure Host where
  attempts : Nat
  outcome : Nat → Option ForkError

/-- A forked VM. The serial number tells apart VMs in equal states. -/
structure ForkedVm (σ : Type u) where
  serial : Nat
  state : σ
  deriving DecidableEq, Repr

/-- A fork engine hands out copies of one snapshot. -/
structure ForkEngine (σ : Type u) where
  snapshot : σ

namespace ForkEngine
variable {σ : Type u}

/-- `ForkEngine::fork` -/
def fork (engine : ForkEngine σ) (host : Host) : Except ForkError (ForkedVm σ) × Host :=
  let after := { host with attempts := host.attempts + 1 }
  match host.outcome host.attempts with
  | some error => (.error error, after)
  | none => (.ok ⟨host.attempts, engine.snapshot⟩, after)

/-- `ForkEngine::fork_batch`: the first failure drops what was forked. -/
def forkBatch (engine : ForkEngine σ) : Nat → Host → Except ForkError (List (ForkedVm σ)) × Host
  | 0, host => (.ok [], host)
  | count + 1, host =>
    match engine.fork host with
    | (.error error, host) => (.error error, host)
    | (.ok vm, host) =>
      match engine.forkBatch count host with
      | (.error error, host) => (.error error, host)
      | (.ok vms, host) => (.ok (vm :: vms), host)

end ForkEngine

structure PoolConfig where
  min : Nat
  max : Nat
  idleTimeoutSecs : Nat
  variantId : Option String
  deriving DecidableEq, Repr

/-- `ForkPool`; the front of the list is the front of the queue. -/
structure ForkPool (σ : Type u) where
  engine : ForkEngine σ
  pool : List (ForkedVm σ)
  config : PoolConfig

namespace ForkPool
variable {σ : Type u}

/-- The pool takes whatever a batch fork yields, and nothing when it fails. -/
def extendWith (pool : ForkPool σ) : Except ForkError (List (ForkedVm σ)) → ForkPool σ
  | .ok vms => { pool with pool := pool.pool ++ vms }
  | .error _ => pool

/-- `ForkPool::new`, pre-warming to `min`. -/
def new (engine : ForkEngine σ) (config : PoolConfig) (host : Host) : ForkPool σ × Host :=
  let pool : ForkPool σ := ⟨engine, [], config⟩
  if config.min > 0 then
    let (forked, host) := engine.forkBatch config.min host
    (pool.extendWith forked, host)
  else (pool, host)

/-- `ForkPool::refill` -/
def refill (pool : ForkPool σ) (host : Host) : ForkPool σ × Host :=
  let needed := pool.config.min - pool.pool.length
  if needed = 0 then (pool, host)
  else
    let batchSize := Nat.min needed (pool.config.max - pool.pool.length)
    let (forked, host) := pool.engine.forkBatch batchSize host
    (pool.extendWith forked, host)

/-- `ForkPool::acquire` -/
def acquire (pool : ForkPool σ) (host : Host) :
    Except PoolError (ForkedVm σ) × ForkPool σ × Host :=
  match pool.pool with
  | vm :: rest => (.ok vm, { pool with pool := rest }.refill host)
  | [] =>
    match pool.engine.fork host with
    | (.error error, host) => (.error (.fork error), pool, host)
    | (.ok vm, host) => (.ok vm, pool.refill host)

/-- `ForkPool::acquire_batch`: the idle VMs first, forks for the rest. -/
def acquireBatch (pool : ForkPool σ) (n : Nat) (host : Host) :
    Except PoolError (List (ForkedVm σ)) × ForkPool σ × Host :=
  let vms := pool.pool.take n
  let drained := { pool with pool := pool.pool.drop n }
  let needed := n - vms.length
  if needed > 0 then
    match pool.engine.forkBatch needed host with
    | (.error error, host) => (.error (.fork error), drained, host)
    | (.ok forked, host) => (.ok (vms ++ forked), drained, host)
  else (.ok vms, drained, host)

/-- `ForkPool::release`: queued as it is, or dropped at capacity. -/
def release (pool : ForkPool σ) (vm : ForkedVm σ) : ForkPool σ :=
  if pool.pool.length ≥ pool.config.max then pool
  else { pool with pool := pool.pool ++ [vm] }

/-- `ForkPool::fill_to` -/
def fillTo (pool : ForkPool σ) (target : Nat) (host : Host) :
    Except PoolError Unit × ForkPool σ × Host :=
  if target ≤ pool.pool.length then (.ok (), pool, host)
  else
    match pool.engine.forkBatch (target - pool.pool.length) host with
    | (.error error, host) => (.error (.fork error), pool, host)
    | (.ok vms, host) => (.ok (), { pool with pool := pool.pool ++ vms }, host)

end ForkPool

/-- `PoolManager`: the pools by variant id. -/
structure PoolManager (σ : Type u) where
  pools : String → Option (ForkPool σ)

namespace PoolManager
variable {σ : Type u}

def put (manager : PoolManager σ) (variantId : String) (pool : ForkPool σ) : PoolManager σ :=
  ⟨Function.update manager.pools variantId (some pool)⟩

/-- `PoolManager::acquire` -/
def acquire (manager : PoolManager σ) (variantId : String) (host : Host) :
    Except PoolError (ForkedVm σ) × PoolManager σ × Host :=
  match manager.pools variantId with
  | none => (.error (.variantNotFound variantId), manager, host)
  | some pool =>
    let (result, pool, host) := pool.acquire host
    (result, manager.put variantId pool, host)

/-- `PoolManager::release`; a VM of an unknown variant is dropped. -/
def release (manager : PoolManager σ) (variantId : String) (vm : ForkedVm σ) :
    Except PoolError Unit × PoolManager σ :=
  match manager.pools variantId with
  | none => (.error (.variantNotFound variantId), manager)
  | some pool => (.ok (), manager.put variantId (pool.release vm))

end PoolManager
end TinyMachine
