import TinyMachine.Lib.Runs
import TinyMachine.PoolRegistration

/-! How many VMs wait in a warm pool. -/
namespace TinyMachine.PoolIdle
open Lib

variable {σ : Type u}

/-! ## Counting forks -/

theorem length_forkBatch {engine : ForkEngine σ} {count : Nat} {host : Host} {vms : List (ForkedVm σ)}
    (forked : (engine.forkBatch count host).1 = .ok vms) : vms.length = count := by
  induction count generalizing host vms with
  | zero =>
    cases forked
    rfl
  | succ count ih =>
    simp only [ForkEngine.forkBatch] at forked
    split at forked
    · cases forked
    · split at forked
      · cases forked
      · rename_i rest _ others
        cases forked
        rw [List.length_cons, ih (congrArg Prod.fst others)]

/-- A host on which no fork fails. -/
def Willing (host : Host) : Prop := ∀ attempt, host.outcome attempt = none

theorem forkBatch_willing (engine : ForkEngine σ) {host : Host} (willing : Willing host) (count : Nat) :
    ∃ vms after, engine.forkBatch count host = (.ok vms, after) ∧ Willing after := by
  induction count generalizing host with
  | zero => exact ⟨[], host, rfl, willing⟩
  | succ count ih =>
    have first : engine.fork host =
        (.ok ⟨host.attempts, engine.snapshot⟩, { host with attempts := host.attempts + 1 }) := by
      unfold ForkEngine.fork
      rw [willing]
    have still : Willing { host with attempts := host.attempts + 1 } := willing
    obtain ⟨vms, after, rest, last⟩ := ih still
    refine ⟨⟨host.attempts, engine.snapshot⟩ :: vms, after, ?_, last⟩
    rw [ForkEngine.forkBatch, first]
    dsimp only
    rw [rest]

section Operations
variable {pool : ForkPool σ} {host : Host} {count : Nat}

theorem length_extendWith :
    (pool.extendWith (pool.engine.forkBatch count host).1).pool.length ≤ pool.pool.length + count := by
  cases forked : (pool.engine.forkBatch count host).1 with
  | error error => exact Nat.le_add_right _ _
  | ok vms =>
    have length := length_forkBatch forked
    simp [ForkPool.extendWith, length]

/-- Refilling goes no further than the maximum. -/
theorem length_refill : (pool.refill host).1.pool.length ≤ max pool.config.max pool.pool.length := by
  unfold ForkPool.refill
  dsimp only
  split
  · exact Nat.le_max_right _ _
  · have filled : (pool.extendWith (pool.engine.forkBatch (Nat.min (pool.config.min - pool.pool.length)
        (pool.config.max - pool.pool.length)) host).1).pool.length ≤ _ := length_extendWith
    have small : Nat.min (pool.config.min - pool.pool.length) (pool.config.max - pool.pool.length) ≤
      pool.config.max - pool.pool.length := Nat.min_le_right _ _
    dsimp only
    omega

theorem config_extendWith (forked : Except ForkError (List (ForkedVm σ))) :
    (pool.extendWith forked).config = pool.config := by
  cases forked <;> rfl

theorem config_refill : (pool.refill host).1.config = pool.config := by
  unfold ForkPool.refill
  dsimp only
  split
  · rfl
  · exact config_extendWith _

end Operations

/-! ## Calls -/

inductive PoolCall (σ : Type u) where
  | acquire (host : Host)
  | acquireBatch (n : Nat) (host : Host)
  | release (vm : ForkedVm σ)
  | fillTo (target : Nat) (host : Host)

namespace PoolCall

def after (pool : ForkPool σ) : PoolCall σ → ForkPool σ
  | acquire host => (pool.acquire host).2.1
  | acquireBatch n host => (pool.acquireBatch n host).2.1
  | release vm => pool.release vm
  | fillTo target host => (pool.fillTo target host).2.1

def Fills : PoolCall σ → Prop
  | fillTo _ _ => True
  | _ => False

variable {pool : ForkPool σ} {call : PoolCall σ}

theorem config_after : (call.after pool).config = pool.config := by
  cases call with
  | acquire host =>
    rw [after, ForkPool.acquire]
    split
    · exact config_refill
    · split
      · rfl
      · exact config_refill
  | acquireBatch n host =>
    rw [after, ForkPool.acquireBatch]
    split
    · split <;> rfl
    · rfl
  | release vm =>
    rw [after, ForkPool.release]
    split <;> rfl
  | fillTo target host =>
    rw [after, ForkPool.fillTo]
    split
    · rfl
    · split <;> rfl

/-- Whatever is called but `fill_to`, no more VMs wait than before, or than the
maximum. -/
theorem length_after (other : ¬ call.Fills) :
    (call.after pool).pool.length ≤ max pool.config.max pool.pool.length := by
  cases call with
  | acquire host =>
    rw [after, ForkPool.acquire]
    split
    · rename_i vm rest queue
      have refilled : (ForkPool.refill { pool with pool := rest } host).1.pool.length ≤
          max pool.config.max rest.length := length_refill
      dsimp only
      rw [queue, List.length_cons]
      omega
    · split
      · exact Nat.le_max_right _ _
      · exact length_refill
  | acquireBatch n host =>
    have shorter : (pool.pool.drop n).length ≤ pool.pool.length := by simp
    have drained : ∀ later : Nat, later ≤ pool.pool.length → later ≤ max pool.config.max pool.pool.length := by omega
    rw [after, ForkPool.acquireBatch]
    apply drained
    split
    · split <;> exact shorter
    · exact shorter
  | release vm =>
    rw [after, ForkPool.release]
    split
    · exact Nat.le_max_right _ _
    · rename_i room
      simp only [List.length_append, List.length_singleton]
      omega
  | fillTo target host => exact absurd trivial other

end PoolCall

/-! ## Runs -/

def system (engine : ForkEngine σ) (config : PoolConfig) : System (ForkPool σ) (PoolCall σ) where
  start := fun pool => ∃ host, pool = (ForkPool.new engine config host).1
  step := fun pool call next => next = call.after pool

/-- No more VMs wait than the maximum after any call, and where `fill_to` has put
more, no other call adds to them. -/
structure KeepsIdleBound (engine : ForkEngine σ) (config : PoolConfig) : Prop where
  bounded : ∀ pool, (system engine config).Reached (fun _ call => ¬ call.Fills) pool → pool.pool.length ≤ config.max
  filled : ∀ (pool : ForkPool σ) (call : PoolCall σ), (system engine config).Reached (fun _ _ => True) pool → ¬ call.Fills →
    (call.after pool).pool.length ≤ max config.max pool.pool.length

variable {engine : ForkEngine σ} {config : PoolConfig}

theorem config_new (host : Host) : (ForkPool.new engine config host).1.config = config := by
  unfold ForkPool.new
  dsimp only
  split
  · exact config_extendWith _
  · rfl

theorem length_new (host : Host) : (ForkPool.new engine config host).1.pool.length ≤ config.min := by
  unfold ForkPool.new
  dsimp only
  split
  · have filled : (ForkPool.extendWith (⟨engine, [], config⟩ : ForkPool σ)
        (engine.forkBatch config.min host).1).pool.length ≤ 0 + config.min := length_extendWith
    rwa [Nat.zero_add] at filled
  · exact Nat.zero_le _

/-- All VMs of the minimum are forked. -/
theorem length_new_willing {host : Host} (willing : Willing host) :
    (ForkPool.new engine config host).1.pool.length = config.min := by
  obtain ⟨vms, after, forked, -⟩ := forkBatch_willing engine willing config.min
  have length := length_forkBatch (congrArg Prod.fst forked)
  unfold ForkPool.new
  dsimp only
  split
  · rw [forked]
    exact length
  · rename_i none
    exact (Nat.eq_zero_of_not_pos none).symm

theorem config_reached {admitted : ForkPool σ → PoolCall σ → Prop} {pool : ForkPool σ}
    (reached : (system engine config).Reached admitted pool) : pool.config = config := by
  apply reached.invariant
  · rintro pool ⟨host, rfl⟩
    exact config_new host
  · rintro pool call _ same _ rfl
    exact PoolCall.config_after.trans same

/-- The bound is kept exactly if the minimum is within the maximum. -/
theorem keepsIdleBound_iff (engine : ForkEngine σ) (config : PoolConfig) :
    KeepsIdleBound engine config ↔ config.min ≤ config.max := by
  constructor
  · intro keeps
    have started : (system engine config).Reached (fun _ call => ¬ call.Fills) _ :=
      .start ⟨⟨0, fun _ => none⟩, rfl⟩
    have bounded := keeps.bounded _ started
    rwa [length_new_willing fun _ => rfl] at bounded
  · intro within
    constructor
    · intro pool reached
      have both : pool.pool.length ≤ config.max ∧ pool.config = config := by
        apply reached.invariant
        · rintro pool ⟨host, rfl⟩
          exact ⟨(length_new host).trans within, config_new host⟩
        · rintro pool call _ ⟨bounded, same⟩ other rfl
          have length : (call.after pool).pool.length ≤ max pool.config.max pool.pool.length :=
            PoolCall.length_after other
          rw [same, max_eq_left bounded] at length
          exact ⟨length, PoolCall.config_after.trans same⟩
      exact both.1
    · intro pool call reached other
      rw [← config_reached reached]
      exact PoolCall.length_after other

/-- The pool of a variant keeps its bound exactly if its minimum is within its
maximum, both capped, and the pool of a composition always does. -/
theorem idle_bound_iff (engine : ForkEngine σ) :
    (∀ variant, KeepsIdleBound engine (.fromVariant variant) ↔
      Nat.min variant.poolMin poolMaxCap ≤ Nat.min variant.poolMax poolMaxCap) ∧
    ∀ compositionKey, KeepsIdleBound engine (.fromComposition compositionKey) :=
  ⟨fun _ => keepsIdleBound_iff engine _, fun _ => (keepsIdleBound_iff engine _).mpr (Nat.zero_le _)⟩

/-- Three VMs are warmed for a pool of at most two. -/
theorem prewarmed_beyond_max : ¬ KeepsIdleBound (⟨()⟩ : ForkEngine Unit)
    (.fromVariant ⟨⟨"python", "minimal", .base, none⟩, 3, 2, 60⟩) := by
  intro keeps
  have started : (system (⟨()⟩ : ForkEngine Unit) (.fromVariant ⟨⟨"python", "minimal", .base, none⟩, 3, 2, 60⟩)).Reached
      (fun _ call => ¬ call.Fills) _ := .start ⟨⟨0, fun _ => none⟩, rfl⟩
  have bounded := keeps.bounded _ started
  rw [length_new_willing fun _ => rfl] at bounded
  exact absurd bounded (by decide)

end TinyMachine.PoolIdle
