import TinyMachine.Lib.Batches
import TinyMachine.Lib.Overflow
import TinyMachine.Pool

/-! The deferred batch executor of `lazy.rs`. What a run of code does to a VM
and how much RAM the profiler predicts for a snippet are parameters. -/
namespace TinyMachine
open Lib

structure QueuedCode where
  code : String
  variantId : String
  deriving DecidableEq, Repr

structure LazyConfig where
  maxBatch : UInt64
  profilerEnabled : Bool
  deriving DecidableEq, Repr

/-- `LazyFork`; the timer is the instant of the first push. -/
structure LazyFork (σ : Type u) where
  queue : List QueuedCode
  poolManager : Option (PoolManager σ)
  config : LazyConfig
  timerStart : Option Nat

/-- Running code on a VM: its outcome, or `none` for a panic, and what is
left of the VM. -/
abbrev RunCode (σ : Type u) := ForkedVm σ → String → Option (Except String String) × σ

/-- One `manager.acquire` call and what it returned. -/
structure Acquisition (σ : Type u) where
  variantId : String
  outcome : Except PoolError (ForkedVm σ)

/-- What a result slot was filled with: an acquisition error, or the run of
some code on the VM acquired for some variant. -/
inductive Slot (σ : Type u) where
  | acquireFailed (variantId : String) (error : PoolError)
  | ran (code : String) (variantId : String) (vm : ForkedVm σ)

/-- The `Result<String, String>` a slot is returned as. -/
def Slot.render (run : RunCode σ) : Slot σ → Except String String
  | acquireFailed variantId error => .error s!"acquire({variantId}): {error.display}"
  | ran code _ vm => (run vm code).1.getD (.error "VM task panicked")

/-- `FREE_RAM`, 8 GB -/
def freeRam : UInt64 := 8 * 1024 * 1024 * 1024

def totalRam (mode : Overflow) (ram : String → UInt64) (items : List QueuedCode) :
    Option UInt64 :=
  items.foldlM (fun total item => mode.add64 total (ram item.code)) 0

/-- `effective_batch_size`; `none` is an overflow panic. -/
def effectiveBatchSize (mode : Overflow) (ram : String → UInt64) (config : LazyConfig)
    (items : List QueuedCode) : Option Nat :=
  if !config.profilerEnabled then some config.maxBatch.toNat
  else do
    let total ← totalRam mode ram items
    if total = 0 then return config.maxBatch.toNat
    let maxRam := freeRam / 2
    if total > maxRam then
      let product ← mode.mul64 config.maxBatch maxRam
      return max (product / total).toNat 1
    else return config.maxBatch.toNat

/-- Step 1 of a chunk: one acquisition per item. -/
def acquireChunk (manager : PoolManager σ) (host : Host) :
    List QueuedCode → List (Acquisition σ) × PoolManager σ × Host
  | [] => ([], manager, host)
  | item :: rest =>
    let (outcome, manager, host) := manager.acquire item.variantId host
    let (acquisitions, manager, host) := acquireChunk manager host rest
    (⟨item.variantId, outcome⟩ :: acquisitions, manager, host)

/-- The results written while acquiring: the failures, in place. -/
def failureSlots (acquisitions : List (Acquisition σ)) : List (Option (Slot σ)) :=
  acquisitions.map fun acquisition =>
    match acquisition.outcome with
    | .error error => some (.acquireFailed acquisition.variantId error)
    | .ok _ => none

/-- `acquired`: the successes, without their places. -/
def acquiredVms (acquisitions : List (Acquisition σ)) : List (String × ForkedVm σ) :=
  acquisitions.filterMap fun acquisition =>
    match acquisition.outcome with
    | .error _ => none
    | .ok vm => some (acquisition.variantId, vm)

/-- Step 2: the acquired VM number `vm_idx` runs `chunk[vm_idx]`. -/
def runSlots (acquired : List (String × ForkedVm σ)) (chunk : List QueuedCode) :
    List (Option (Slot σ)) :=
  List.zipWith (fun (variantId, vm) item => some (.ran item.code variantId vm)) acquired chunk

/-- The VMs as the runs leave them. -/
def usedVms (run : RunCode σ) (acquired : List (String × ForkedVm σ)) (chunk : List QueuedCode) :
    List (String × ForkedVm σ) :=
  List.zipWith (fun (variantId, vm) item => (variantId, { vm with state := (run vm item.code).2 }))
    acquired chunk

/-- Step 3: every VM goes back to its variant's pool, errors ignored. -/
def releaseAll (manager : PoolManager σ) (vms : List (String × ForkedVm σ)) : PoolManager σ :=
  vms.foldl (fun manager (variantId, vm) => (manager.release variantId vm).2) manager

/-- The variables of the chunk loop, with a record of all acquisitions. -/
structure Progress (σ : Type u) where
  results : List (Option (Slot σ))
  acquisitions : List (Acquisition σ)
  manager : PoolManager σ
  host : Host

/-- One pass of the chunk loop. Where nothing was acquired the source goes on
to the next chunk; steps 2 and 3 then have nothing to do. -/
def realizeChunk (run : RunCode σ) (progress : Progress σ) : Nat × List QueuedCode → Progress σ
  | (chunkBase, chunk) =>
    let (acquisitions, manager, host) := acquireChunk progress.manager progress.host chunk
    let acquired := acquiredVms acquisitions
    let results := overwrite progress.results chunkBase (failureSlots acquisitions)
    let results := overwrite results chunkBase (runSlots acquired chunk)
    { results := results
      acquisitions := progress.acquisitions ++ acquisitions
      manager := releaseAll manager (usedVms run acquired chunk)
      host := host }

/-- What `realize` returns and leaves behind. -/
structure Realized (σ : Type u) where
  slots : List (Option (Slot σ))
  acquisitions : List (Acquisition σ)
  lazy : LazyFork σ
  host : Host

/-- The returned vector: every slot unwrapped. -/
def Realized.results (run : RunCode σ) (realized : Realized σ) : List (Except String String) :=
  realized.slots.map fun
    | some slot => slot.render run
    | none => .error "internal: uninitialized result slot"

/-- `LazyFork::realize`; `none` is a panic, of the batch size arithmetic or of
`chunks(0)`. -/
def LazyFork.realize (mode : Overflow) (ram : String → UInt64) (run : RunCode σ)
    (lazy : LazyFork σ) (host : Host) : Option (Realized σ) :=
  let items := lazy.queue
  let lazy := { lazy with timerStart := none, queue := [] }
  if items.isEmpty then some ⟨[], [], lazy, host⟩
  else
    match effectiveBatchSize mode ram lazy.config items, lazy.poolManager with
    | none, _ => none
    | some _, none => some ⟨[], [], lazy, host⟩
    | some effectiveBatch, some manager =>
      if effectiveBatch = 0 then none
      else
        let progress := (batches effectiveBatch items).foldl (realizeChunk run)
          ⟨List.replicate items.length none, [], manager, host⟩
        some ⟨progress.results, progress.acquisitions,
          { lazy with poolManager := some progress.manager }, progress.host⟩

end TinyMachine
