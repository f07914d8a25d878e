import Mathlib.Data.Set.Function
import TinyMachine.Lib.Text
import TinyMachine.Composer
import TinyMachine.PoolIsolation
import TinyMachine.PoolRegistration

/-! Which engine forked the VM that is acquired for a variant or a composition.
No operation looks into the state of a VM, so here it is the key that the
engine was registered with. -/
namespace TinyMachine.PoolSharing
open Lib PoolIsolation
open Composer (CompositionPlan)

/-! ## Finding a pool -/

section Finding
variable {σ : Type u} {manager : PoolManager σ} {variantId other : String} {pool : ForkPool σ}

theorem pools_put_self : (manager.put variantId pool).pools variantId = some pool := Function.update_self ..

theorem pools_put_of_ne (apart : other ≠ variantId) :
    (manager.put variantId pool).pools other = manager.pools other := Function.update_of_ne apart ..

theorem pools_remove_self : (manager.remove variantId).2.pools variantId = none := Function.update_self ..

theorem pools_remove_of_ne (apart : other ≠ variantId) :
    (manager.remove variantId).2.pools other = manager.pools other := Function.update_of_ne apart ..

theorem register_held {engine : ForkEngine σ} {config : PoolConfig} {host : Host}
    (held : manager.pools variantId = some pool) :
    (manager.register variantId engine config host).1 = manager := by
  rw [PoolManager.register, held]

/-- A pool that is not warmed is registered without VMs. -/
theorem register_cold {engine : ForkEngine σ} {config : PoolConfig} {host : Host}
    (fresh : manager.pools variantId = none) (cold : config.min = 0) :
    (manager.register variantId engine config host).1 = manager.put variantId ⟨engine, [], config⟩ := by
  rw [PoolManager.register, fresh]
  simp [ForkPool.new, cold]

/-- A pool without VMs forks one. -/
theorem acquire_cold {engine : ForkEngine σ} {config : PoolConfig} {host : Host}
    (held : manager.pools variantId = some ⟨engine, [], config⟩) (willing : host.outcome host.attempts = none) :
    (manager.acquire variantId host).1 = .ok ⟨host.attempts, engine.snapshot⟩ := by
  simp [PoolManager.acquire, held, ForkPool.acquire, ForkEngine.fork, willing]

end Finding

/-! ## Keys and pool ids -/

/-- What a pool is registered for. -/
inductive PoolKey where
  | variant (variantId : String)
  | composition (compositionKey : String)
  deriving DecidableEq, Repr

def PoolKey.poolId : PoolKey → String
  | .variant variantId => variantId
  | .composition compositionKey => PoolConfig.compositionId compositionKey

/-- Four characters of the digest are left in the pool id of a resolved plan. -/
theorem compositionId_compositionKey (hash : String → String) (plan : CompositionPlan) :
    PoolConfig.compositionId (plan.compositionKey hash) =
      "compose:" ++ String.ofList ("compose:".toList ++ (hash plan.keyInput).toList.take 4) := by
  unfold PoolConfig.compositionId CompositionPlan.compositionKey
  rw [String.toList_append, List.take_append]
  rfl

/-- Two plans share a pool exactly if their digests start with the same four
characters. -/
theorem poolId_resolved_iff (hash : String → String) (plan other : CompositionPlan) :
    (PoolKey.composition (plan.compositionKey hash)).poolId =
        (PoolKey.composition (other.compositionKey hash)).poolId ↔
      (hash plan.keyInput).toList.take 4 = (hash other.keyInput).toList.take 4 := by
  simp only [PoolKey.poolId, compositionId_compositionKey]
  constructor
  · intro same
    have texts := congrArg String.toList same
    rw [String.toList_append, String.toList_append] at texts
    exact List.append_cancel_left (String.ofList_injective (String.toList_inj.mp (List.append_cancel_left texts)))
  · intro same
    rw [same]

/-- No variant has the pool id of a composition unless its language is `compose`
or has a colon. -/
theorem variant_apart {variant : PooledVariant} (plain : ':' ∉ variant.lang.toList)
    (other : variant.lang ≠ "compose") (compositionKey : String) :
    (PoolKey.variant variant.id).poolId ≠ (PoolKey.composition compositionKey).poolId := by
  intro same
  have texts : variant.lang.toList ++ ':' :: variant.name.toList =
      "compose".toList ++ ':' :: compositionKey.toList.take 12 := by
    have all := congrArg String.toList same
    simpa [PoolKey.poolId, Templates.Variant.id, PoolConfig.compositionId] using all
  have cut := congrArg (Text.splitOnce ':') texts
  rw [Text.splitOnce_append plain, Text.splitOnce_append (by decide)] at cut
  exact other (String.toList_inj.mp (Prod.mk.inj (Option.some.inj cut)).1)

/-! ## Runs -/

/-- The manager, and the VMs that are handed out with the keys they were
acquired for. -/
structure Sharing where
  manager : PoolManager PoolKey
  out : List (PoolKey × ForkedVm PoolKey)

inductive ManagerCall where
  | register (variantId : String) (config : PoolConfig) (host : Host)
  | registerComposition (compositionKey : String) (host : Host)
  | acquire (key : PoolKey) (host : Host)
  /-- One of those that are handed out comes back, for some key. -/
  | release (position : Nat) (key : PoolKey)
  | remove (key : PoolKey)

def ManagerCall.key : ManagerCall → PoolKey
  | .register variantId _ _ => .variant variantId
  | .registerComposition compositionKey _ => .composition compositionKey
  | .acquire key _ => key
  | .release _ key => key
  | .remove key => key

namespace Sharing

def after (sharing : Sharing) : ManagerCall → Sharing
  | .register variantId config host =>
    { sharing with manager := (sharing.manager.register variantId ⟨.variant variantId⟩ config host).1 }
  | .registerComposition compositionKey host =>
    { sharing with manager :=
        (sharing.manager.registerComposition compositionKey ⟨.composition compositionKey⟩ host).1 }
  | .acquire key host =>
    match sharing.manager.acquire key.poolId host with
    | (.ok vm, manager, _) => ⟨manager, (key, vm) :: sharing.out⟩
    | (.error _, manager, _) => ⟨manager, sharing.out⟩
  | .release position key =>
    match sharing.out[position]? with
    | some (_, vm) => ⟨(sharing.manager.release key.poolId vm).2, sharing.out.eraseIdx position⟩
    | none => sharing
  | .remove key => { sharing with manager := (sharing.manager.remove key.poolId).2 }

def system : System Sharing ManagerCall where
  start := fun sharing => sharing = ⟨.new, []⟩
  step := fun sharing call next => next = sharing.after call

/-- The call is about one of the keys, and what it releases was acquired for
the same key. -/
def Admits (keys : Set PoolKey) (sharing : Sharing) (call : ManagerCall) : Prop :=
  call.key ∈ keys ∧
    match call with
    | .release position key => ∀ entry, sharing.out[position]? = some entry → entry.1 = key
    | _ => True

/-- In every such run, the VM acquired for a key was forked by the engine
registered with it. -/
def KeepsApart (keys : Set PoolKey) : Prop :=
  ∀ sharing, system.Reached (Admits keys) sharing → ∀ key ∈ keys, ∀ host vm,
    (sharing.manager.acquire key.poolId host).1 = .ok vm → vm.state = key

/-- The pool of every key has its engine and VMs of this engine. -/
def Filed (keys : Set PoolKey) (manager : PoolManager PoolKey) : Prop :=
  ∀ key ∈ keys, ∀ pool, manager.pools key.poolId = some pool →
    pool.engine.snapshot = key ∧ IdlePristine pool

structure Sorted (keys : Set PoolKey) (sharing : Sharing) : Prop where
  filed : Filed keys sharing.manager
  out : ∀ entry ∈ sharing.out, entry.2.state = entry.1

section Apart
variable {keys : Set PoolKey} {manager : PoolManager PoolKey} {key : PoolKey} {pool : ForkPool PoolKey}

theorem filed_put (apart : Set.InjOn PoolKey.poolId keys) (filed : Filed keys manager) (member : key ∈ keys)
    (engine : pool.engine.snapshot = key) (idle : IdlePristine pool) :
    Filed keys (manager.put key.poolId pool) := by
  intro other there found held
  by_cases same : other.poolId = key.poolId
  · obtain rfl := apart there member same
    rw [pools_put_self] at held
    cases held
    exact ⟨engine, idle⟩
  · rw [pools_put_of_ne same] at held
    exact filed other there found held

theorem filed_register (apart : Set.InjOn PoolKey.poolId keys) (filed : Filed keys manager) (member : key ∈ keys)
    (config : PoolConfig) (host : Host) :
    Filed keys (manager.register key.poolId ⟨key⟩ config host).1 := by
  unfold PoolManager.register
  split
  · exact filed
  · obtain ⟨engine, idle⟩ := new_spec ⟨key⟩ config host
    exact filed_put apart filed member (congrArg ForkEngine.snapshot engine) idle

theorem acquire_filed (apart : Set.InjOn PoolKey.poolId keys) (filed : Filed keys manager) (member : key ∈ keys)
    (host : Host) :
    Filed keys (manager.acquire key.poolId host).2.1 ∧
      ∀ vm, (manager.acquire key.poolId host).1 = .ok vm → vm.state = key := by
  unfold PoolManager.acquire
  split
  · refine ⟨filed, ?_⟩
    rintro vm ⟨⟩
  · rename_i pool held
    obtain ⟨engine, idle⟩ := filed key member pool held
    obtain ⟨same, kept, fresh⟩ := acquire_spec host idle
    refine ⟨filed_put apart filed member ?_ kept, ?_⟩
    · rw [same, engine]
    · intro vm done
      exact (fresh vm done).trans engine

theorem filed_release (apart : Set.InjOn PoolKey.poolId keys) (filed : Filed keys manager) (member : key ∈ keys)
    {vm : ForkedVm PoolKey} (own : vm.state = key) : Filed keys (manager.release key.poolId vm).2 := by
  unfold PoolManager.release
  split
  · exact filed
  · rename_i pool held
    obtain ⟨engine, idle⟩ := filed key member pool held
    obtain ⟨same, kept⟩ := release_spec idle (.inl (own.trans engine.symm))
    exact filed_put apart filed member ((congrArg ForkEngine.snapshot same).trans engine) kept

theorem filed_remove (filed : Filed keys manager) (variantId : String) :
    Filed keys (manager.remove variantId).2 := by
  intro other there found held
  by_cases same : other.poolId = variantId
  · rw [same, pools_remove_self] at held
    cases held
  · rw [pools_remove_of_ne same] at held
    exact filed other there found held

theorem sorted_after {sharing : Sharing} {call : ManagerCall} (apart : Set.InjOn PoolKey.poolId keys)
    (sorted : Sorted keys sharing) (admits : Admits keys sharing call) : Sorted keys (sharing.after call) := by
  obtain ⟨member, own⟩ := admits
  cases call with
  | register variantId config host => exact ⟨filed_register apart sorted.filed member config host, sorted.out⟩
  | registerComposition compositionKey host =>
    exact ⟨filed_register apart sorted.filed member _ host, sorted.out⟩
  | acquire key host =>
    obtain ⟨filed, fresh⟩ := acquire_filed apart sorted.filed member host
    rw [after]
    split
    · rename_i vm manager _ acquired
      rw [ManagerCall.key, acquired] at filed fresh
      refine ⟨filed, ?_⟩
      intro entry inside
      rcases List.mem_cons.mp inside with rfl | old
      · exact fresh vm rfl
      · exact sorted.out entry old
    · rename_i manager _ failed
      rw [ManagerCall.key, failed] at filed
      exact ⟨filed, sorted.out⟩
  | release position key =>
    rw [after]
    split
    · rename_i origin vm found
      have state : vm.state = origin := sorted.out _ (List.mem_of_getElem? found)
      have same : origin = key := own _ found
      refine ⟨filed_release apart sorted.filed member (state.trans same), ?_⟩
      intro entry inside
      exact sorted.out entry (List.mem_of_mem_eraseIdx inside)
    · exact sorted
  | remove key => exact ⟨filed_remove sorted.filed _, sorted.out⟩

theorem keepsApart_of_injOn (apart : Set.InjOn PoolKey.poolId keys) : KeepsApart keys := by
  intro sharing reached key member host vm acquired
  have sorted : Sorted keys sharing := by
    apply reached.invariant
    · rintro _ rfl
      refine ⟨?_, ?_⟩
      · intro key _ pool held
        cases held
      · intro entry inside
        cases inside
    · rintro before call _ sorted admits rfl
      exact sorted_after apart sorted admits
  exact (acquire_filed apart sorted.filed member host).2 vm acquired

end Apart

/-! ## A shared pool -/

def willing : Host := ⟨0, fun _ => none⟩

/-- The registration of a key whose pool starts without VMs. -/
def registering : PoolKey → ManagerCall
  | .variant variantId => .register variantId ⟨0, 1, 60, some variantId⟩ willing
  | .composition compositionKey => .registerComposition compositionKey willing

theorem key_registering (key : PoolKey) : (registering key).key = key := by cases key <;> rfl

theorem admits_registering {keys : Set PoolKey} {key : PoolKey} (sharing : Sharing) (member : key ∈ keys) :
    Admits keys sharing (registering key) := by
  refine ⟨?_, ?_⟩
  · rwa [key_registering]
  · cases key <;> trivial

theorem register_first (key : PoolKey) : ∃ config,
    (after ⟨.new, []⟩ (registering key)).manager.pools key.poolId = some ⟨⟨key⟩, [], config⟩ := by
  cases key with
  | variant variantId =>
    refine ⟨⟨0, 1, 60, some variantId⟩, ?_⟩
    rw [registering, after, register_cold rfl rfl]
    exact pools_put_self
  | composition compositionKey =>
    refine ⟨.fromComposition compositionKey, ?_⟩
    rw [registering, after, PoolManager.registerComposition]
    dsimp only
    rw [register_cold rfl rfl]
    exact pools_put_self

theorem register_second {sharing : Sharing} {pool : ForkPool PoolKey} {key : PoolKey}
    (held : sharing.manager.pools key.poolId = some pool) : sharing.after (registering key) = sharing := by
  cases key with
  | variant variantId => exact congrArg (Sharing.mk · sharing.out) (register_held held)
  | composition compositionKey => exact congrArg (Sharing.mk · sharing.out) (register_held held)

/-- The first of two keys with one pool id is registered, then the second. -/
def bothRegistered (first second : PoolKey) : Sharing :=
  (after ⟨.new, []⟩ (registering first)).after (registering second)

theorem reached_bothRegistered {keys : Set PoolKey} {first second : PoolKey} (one : first ∈ keys)
    (two : second ∈ keys) : system.Reached (Admits keys) (bothRegistered first second) := by
  apply System.Reached.next _ (admits_registering _ two) rfl
  apply System.Reached.next _ (admits_registering _ one) rfl
  exact .start rfl

/-- The second is given a VM of the first. -/
theorem acquire_bothRegistered {first second : PoolKey} (same : first.poolId = second.poolId) :
    ((bothRegistered first second).manager.acquire second.poolId willing).1 = .ok ⟨0, first⟩ := by
  obtain ⟨config, held⟩ := register_first first
  rw [same] at held
  rw [bothRegistered, register_second held]
  exact acquire_cold held rfl

/-- The keys keep to their own engines exactly if no two of them have one pool
id; those of two resolved plans do if the digests start alike. -/
theorem keeps_apart_iff (keys : Set PoolKey) : (KeepsApart keys ↔ Set.InjOn PoolKey.poolId keys) ∧
    ∀ (hash : String → String) (plan other : CompositionPlan),
      (PoolKey.composition (plan.compositionKey hash)).poolId =
          (PoolKey.composition (other.compositionKey hash)).poolId ↔
        (hash plan.keyInput).toList.take 4 = (hash other.keyInput).toList.take 4 := by
  refine ⟨⟨?_, keepsApart_of_injOn⟩, poolId_resolved_iff⟩
  intro keeps first one second two same
  have acquired := acquire_bothRegistered same
  exact keeps _ (reached_bothRegistered one two) second two willing _ acquired

/-! ### Two plans with one pool -/

def samplePlan (python : String) : CompositionPlan where
  layers := [⟨.base, "base", "v1", "base/base/v1/layer.cpio.zst", "b0"⟩,
    ⟨.runtime, "python", python, "runtime/python/" ++ python ++ "/layer.cpio.zst", "c0"⟩]
  kernelProfile := "base"
  memoryMb := 128
  cmdConfig := ⟨some "python3", [], none⟩

/-- The digests of the two plans' texts, in full. -/
def sampleBlake3 (text : String) : String :=
  if text = "base:base@v1:b0,python@3.161:c0" then
    "5e6d37e1ce6ccc4a07d86d07a6d3559a3b1e3045213e6e63378c7523b55228cb"
  else if text = "base:base@v1:b0,python@3.430:c0" then
    "5e6ddb6b516e7ea7eb9e0fafc7e7a4ec41ff778f775bfab8a4a6430ac3e6af1b"
  else text

def sampleKey (python : String) : PoolKey := .composition ((samplePlan python).compositionKey sampleBlake3)

/-- Of two plans with other interpreters and other keys, one is given a VM of
the other. -/
theorem another_interpreter_is_acquired : sampleKey "3.161" ≠ sampleKey "3.430" ∧
    ¬ KeepsApart {sampleKey "3.161", sampleKey "3.430"} := by
  have apart : sampleKey "3.161" ≠ sampleKey "3.430" := by decide +kernel
  have same : (sampleKey "3.161").poolId = (sampleKey "3.430").poolId := by decide +kernel
  refine ⟨apart, fun keeps => apart ?_⟩
  exact keeps _ (reached_bothRegistered (.inl rfl) (.inr rfl)) _ (.inr rfl) willing _ (acquire_bothRegistered same)

end Sharing
end TinyMachine.PoolSharing
