import TinyMachine.Pool
import TinyMachine.TemplateRegistry

/-! How the warm pools of variants and of compositions are set up and found. -/
namespace TinyMachine
open Templates (Variant)

/-- A variant with the settings of its pool. -/
structure PooledVariant extends Variant where
  poolMin : Nat
  poolMax : Nat
  poolIdleTimeoutSecs : Nat
  deriving DecidableEq, Repr

def poolMaxCap : Nat := 1000

namespace PoolConfig

def fromVariant (variant : PooledVariant) : PoolConfig where
  min := Nat.min variant.poolMin poolMaxCap
  max := Nat.min variant.poolMax poolMaxCap
  idleTimeoutSecs := variant.poolIdleTimeoutSecs
  variantId := some variant.id

/-- The pool id for a composition, from the start of its key. -/
def compositionId (compositionKey : String) : String :=
  "compose:" ++ String.ofList (compositionKey.toList.take 12)

def fromComposition (compositionKey : String) : PoolConfig where
  min := 0
  max := Nat.min 10 poolMaxCap
  idleTimeoutSecs := 60
  variantId := some (compositionId compositionKey)

end PoolConfig

namespace PoolManager
variable {σ : Type u}

def new : PoolManager σ := ⟨fun _ => none⟩

/-- A pool that is there already stays. -/
def register (manager : PoolManager σ) (variantId : String) (engine : ForkEngine σ) (config : PoolConfig)
    (host : Host) : PoolManager σ × Host :=
  match manager.pools variantId with
  | some _ => (manager, host)
  | none =>
    let (pool, host) := ForkPool.new engine config host
    (manager.put variantId pool, host)

def registerComposition (manager : PoolManager σ) (compositionKey : String) (engine : ForkEngine σ) (host : Host) :
    PoolManager σ × Host :=
  let config := PoolConfig.fromComposition compositionKey
  manager.register (config.variantId.getD ("compose:" ++ compositionKey)) engine config host

def remove (manager : PoolManager σ) (variantId : String) : Option (ForkPool σ) × PoolManager σ :=
  (manager.pools variantId, ⟨Function.update manager.pools variantId none⟩)

end PoolManager
end TinyMachine
