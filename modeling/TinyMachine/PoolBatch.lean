import Mathlib.Data.List.Nodup
import TinyMachine.Lib.Runs
import TinyMachine.PoolIdle

/-! Acquiring several VMs at once: what becomes of those that were waiting when
a fork fails, and that nobody gets a VM twice. -/
namespace TinyMachine.PoolBatch
open Lib PoolIdle

variable {σ : Type u}

/-! ## Counting VMs -/

/-- How often the VM with this serial number is among these. -/
def times (serial : Nat) (vms : List (ForkedVm σ)) : Nat := (vms.map ForkedVm.serial).count serial

/-- One for a number that was given to a fork already. -/
def issued (attempts serial : Nat) : Nat := if serial < attempts then 1 else 0

section Counting
variable {serial : Nat} {vms others : List (ForkedVm σ)} {vm : ForkedVm σ} {position : Nat}

@[simp] theorem times_nil : times serial ([] : List (ForkedVm σ)) = 0 := rfl

@[simp] theorem times_append : times serial (vms ++ others) = times serial vms + times serial others := by
  simp [times]

theorem times_cons : times serial (vm :: vms) = times serial [vm] + times serial vms := by
  rw [← times_append, List.singleton_append]

theorem times_singleton : times serial [vm] = if vm.serial = serial then 1 else 0 := by
  simp [times, List.count_cons]

theorem times_take_drop (n : Nat) : times serial (vms.take n) + times serial (vms.drop n) = times serial vms := by
  rw [← times_append, List.take_append_drop]

theorem times_eraseIdx (serial : Nat) (there : vms[position]? = some vm) :
    times serial [vm] + times serial (vms.eraseIdx position) = times serial vms := by
  obtain ⟨bound, same⟩ := List.getElem?_eq_some_iff.mp there
  have split : times serial (vms.drop position) = times serial [vm] + times serial (vms.drop (position + 1)) := by
    rw [List.drop_eq_getElem_cons bound, same, times_cons]
  have whole : times serial (vms.take position) + times serial (vms.drop position) = times serial vms :=
    times_take_drop position
  rw [List.eraseIdx_eq_take_drop_succ, times_append]
  omega

/-- No VM is among these twice. -/
def Distinct (vms : List (ForkedVm σ)) : Prop := (vms.map ForkedVm.serial).Nodup

theorem distinct_of_times (once : ∀ serial, times serial vms ≤ 1) : Distinct vms := List.nodup_iff_count_le_one.mpr once

end Counting

/-! ## Forks -/

section Forks
variable {engine : ForkEngine σ} {host after : Host} {vm : ForkedVm σ} {vms : List (ForkedVm σ)} {error : ForkError}
  {count : Nat}

/-- The next forks that are attempted succeed. -/
def Grants (host : Host) (count : Nat) : Prop := ∀ i < count, host.outcome (host.attempts + i) = none

theorem fork_issued (engine : ForkEngine σ) (host : Host) (serial : Nat) :
    times serial (engine.fork host).1.toOption.toList + issued host.attempts serial ≤
      issued (engine.fork host).2.attempts serial := by
  unfold ForkEngine.fork
  split
  · simp only [Except.toOption, Option.toList_none, times_nil, issued]
    split <;> split <;> omega
  · simp only [Except.toOption, Option.toList_some, times_singleton, issued]
    split <;> split <;> split <;> omega

theorem forkBatch_issued (engine : ForkEngine σ) (count : Nat) (host : Host) (serial : Nat) :
    times serial ((engine.forkBatch count host).1.toOption.getD []) + issued host.attempts serial ≤
      issued (engine.forkBatch count host).2.attempts serial := by
  induction count generalizing host with
  | zero => simp [ForkEngine.forkBatch, Except.toOption]
  | succ count ih =>
    have first := fork_issued engine host serial
    rw [ForkEngine.forkBatch]
    split
    · rename_i failed
      rw [failed] at first
      exact first
    · rename_i vm next forked
      rw [forked] at first
      have rest := ih next
      split
      · rename_i failed
        rw [failed] at rest
        simp only [Except.toOption, Option.getD_none, Option.toList_some, times_nil] at first rest ⊢
        omega
      · rename_i others
        rw [others] at rest
        simp only [Except.toOption, Option.getD_some, Option.toList_some] at first rest ⊢
        rw [times_cons]
        omega

theorem grants_succ :
    Grants host (count + 1) ↔ host.outcome host.attempts = none ∧ Grants { host with attempts := host.attempts + 1 } count := by
  constructor
  · intro grants
    refine ⟨grants 0 (Nat.zero_lt_succ count), fun i bound => ?_⟩
    have later := grants (i + 1) (Nat.succ_lt_succ bound)
    rwa [show host.attempts + (i + 1) = host.attempts + 1 + i by omega] at later
  · rintro ⟨first, later⟩ i bound
    cases i with
    | zero => exact first
    | succ i =>
      rw [show host.attempts + (i + 1) = host.attempts + 1 + i by omega]
      exact later i (Nat.lt_of_succ_lt_succ bound)

/-- A batch succeeds when each of its forks does. -/
theorem forkBatch_ok_iff (engine : ForkEngine σ) (count : Nat) (host : Host) :
    (∃ vms after, engine.forkBatch count host = (.ok vms, after)) ↔ Grants host count := by
  induction count generalizing host with
  | zero => exact iff_of_true ⟨[], host, rfl⟩ (fun i bound => absurd bound (Nat.not_lt_zero i))
  | succ count ih =>
    rw [grants_succ, ← ih, ForkEngine.forkBatch, ForkEngine.fork]
    cases outcome : host.outcome host.attempts with
    | some error => simp
    | none =>
      dsimp only
      cases others : engine.forkBatch count { host with attempts := host.attempts + 1 } with
      | mk result last => cases result <;> simp

end Forks

/-! ## Operations of a pool -/

section Operations
variable {pool next : ForkPool σ} {host after : Host} {vm : ForkedVm σ} {vms : List (ForkedVm σ)} {n target : Nat}

/-- Nothing is in the pool, or given away, that was not in it or newly forked. -/
def Accounts (pool : ForkPool σ) (host : Host) (given : List (ForkedVm σ)) (next : ForkPool σ) (after : Host) : Prop :=
  ∀ serial, times serial next.pool + times serial given + issued host.attempts serial ≤
    times serial pool.pool + issued after.attempts serial

theorem extendWith_accounts (engine : ForkEngine σ) (count : Nat) :
    Accounts pool host [] (pool.extendWith (engine.forkBatch count host).1) (engine.forkBatch count host).2 := by
  intro serial
  have fresh := forkBatch_issued engine count host serial
  cases forked : (engine.forkBatch count host).1 with
  | ok vms =>
    rw [forked] at fresh
    simp only [ForkPool.extendWith, Except.toOption, Option.getD_some, times_append, times_nil] at fresh ⊢
    omega
  | error error =>
    rw [forked] at fresh
    simp only [ForkPool.extendWith, Except.toOption, Option.getD_none, times_nil] at fresh ⊢
    omega

theorem new_accounts (engine : ForkEngine σ) (config : PoolConfig) :
    Accounts ⟨engine, [], config⟩ host [] (ForkPool.new engine config host).1 (ForkPool.new engine config host).2 := by
  rw [ForkPool.new]
  split
  · exact extendWith_accounts engine config.min
  · exact fun serial => Nat.le_refl _

theorem refill_accounts (pool : ForkPool σ) (host : Host) :
    Accounts pool host [] (pool.refill host).1 (pool.refill host).2 := by
  rw [ForkPool.refill]
  split
  · exact fun serial => Nat.le_refl _
  · exact extendWith_accounts pool.engine _

theorem acquire_accounts (pool : ForkPool σ) (host : Host) :
    Accounts pool host (pool.acquire host).1.toOption.toList (pool.acquire host).2.1 (pool.acquire host).2.2 := by
  intro serial
  rw [ForkPool.acquire]
  split
  · rename_i vm rest queue
    have refilled := refill_accounts { pool with pool := rest } host serial
    rw [queue, times_cons]
    simp only [Except.toOption, Option.toList_some, times_nil] at refilled ⊢
    omega
  · rename_i queue
    have fresh := fork_issued pool.engine host serial
    split
    · rename_i failed
      rw [failed] at fresh
      simp only [Except.toOption, Option.toList_none, times_nil] at fresh ⊢
      omega
    · rename_i next forked
      rw [forked] at fresh
      have refilled := refill_accounts pool next serial
      simp only [Except.toOption, Option.toList_some, times_nil] at fresh refilled ⊢
      omega

theorem acquireBatch_accounts (pool : ForkPool σ) (n : Nat) (host : Host) :
    Accounts pool host ((pool.acquireBatch n host).1.toOption.getD []) (pool.acquireBatch n host).2.1
      (pool.acquireBatch n host).2.2 := by
  intro serial
  have parts : times serial (pool.pool.take n) + times serial (pool.pool.drop n) = times serial pool.pool :=
    times_take_drop n
  rw [ForkPool.acquireBatch]
  split
  · have fresh := forkBatch_issued pool.engine (n - (pool.pool.take n).length) host serial
    split
    · rename_i failed
      rw [failed] at fresh
      simp only [Except.toOption, Option.getD_none, times_nil] at fresh ⊢
      omega
    · rename_i forked
      rw [forked] at fresh
      simp only [Except.toOption, Option.getD_some, times_append] at fresh ⊢
      omega
  · simp only [Except.toOption, Option.getD_some]
    omega

theorem fillTo_accounts (pool : ForkPool σ) (target : Nat) (host : Host) :
    Accounts pool host [] (pool.fillTo target host).2.1 (pool.fillTo target host).2.2 := by
  intro serial
  rw [ForkPool.fillTo]
  split
  · exact Nat.le_refl _
  · have fresh := forkBatch_issued pool.engine (target - pool.pool.length) host serial
    split
    · rename_i failed
      rw [failed] at fresh
      simp only [Except.toOption, Option.getD_none, times_nil] at fresh ⊢
      omega
    · rename_i forked
      rw [forked] at fresh
      simp only [Except.toOption, Option.getD_some, times_append, times_nil] at fresh ⊢
      omega

theorem release_times (pool : ForkPool σ) (vm : ForkedVm σ) (serial : Nat) :
    times serial (pool.release vm).pool ≤ times serial pool.pool + times serial [vm] := by
  rw [ForkPool.release]
  split
  · exact Nat.le_add_right _ _
  · rw [times_append]

end Operations

/-! ## Runs -/

/-- A pool, its host, and the VMs that are out. -/
structure Lending (σ : Type u) where
  pool : ForkPool σ
  host : Host
  out : List (ForkedVm σ)

inductive LendingStep (σ : Type u) where
  | acquire
  | acquireBatch (n : Nat)
  | fillTo (target : Nat)
  /-- One of those that are out comes back. -/
  | release (position : Nat)
  | dispose (position : Nat)
  /-- Code is run on one of those that are out. -/
  | used (position : Nat) (state : σ)
  /-- Another pool of the same host hands one out. -/
  | elsewhere (engine : ForkEngine σ)

namespace Lending

def after (lending : Lending σ) : LendingStep σ → Lending σ
  | .acquire =>
    let (result, pool, host) := lending.pool.acquire lending.host
    ⟨pool, host, result.toOption.toList ++ lending.out⟩
  | .acquireBatch n =>
    let (result, pool, host) := lending.pool.acquireBatch n lending.host
    ⟨pool, host, result.toOption.getD [] ++ lending.out⟩
  | .fillTo target =>
    let (_, pool, host) := lending.pool.fillTo target lending.host
    ⟨pool, host, lending.out⟩
  | .release position =>
    match lending.out[position]? with
    | some vm => { lending with pool := lending.pool.release vm, out := lending.out.eraseIdx position }
    | none => lending
  | .dispose position => { lending with out := lending.out.eraseIdx position }
  | .used position state => { lending with out := lending.out.modify position fun vm => { vm with state := state } }
  | .elsewhere engine =>
    let (result, host) := engine.fork lending.host
    { lending with host := host, out := result.toOption.toList ++ lending.out }

def system : System (Lending σ) (LendingStep σ) where
  start := fun lending => ∃ engine config host,
    lending = ⟨(ForkPool.new engine config host).1, (ForkPool.new engine config host).2, []⟩
  step := fun lending step next => next = lending.after step

/-- Every VM is in one place, and its number was given to it before. -/
def Owned (lending : Lending σ) : Prop :=
  ∀ serial, times serial lending.pool.pool + times serial lending.out ≤ issued lending.host.attempts serial

section Steps
variable {lending : Lending σ}

theorem times_eraseIdx_le (serial position : Nat) (vms : List (ForkedVm σ)) :
    times serial (vms.eraseIdx position) ≤ times serial vms := by
  cases there : vms[position]? with
  | some vm =>
    have split := times_eraseIdx serial there
    omega
  | none => rw [List.eraseIdx_of_length_le (List.getElem?_eq_none_iff.mp there)]

theorem times_modify (serial position : Nat) (state : σ) (vms : List (ForkedVm σ)) :
    times serial (vms.modify position fun vm => { vm with state := state }) = times serial vms := by
  have same : (vms.modify position fun vm => { vm with state := state }).map ForkedVm.serial =
      vms.map ForkedVm.serial := by
    apply List.ext_getElem?
    intro i
    simp only [List.getElem?_map, List.getElem?_modify]
    cases vms[i]? <;> simp
    split <;> rfl
  rw [times, same, times]

theorem owned_start (start : system.start lending) : Owned lending := by
  obtain ⟨engine, config, host, rfl⟩ := start
  intro serial
  have made : times serial (ForkPool.new engine config host).1.pool + times serial [] + issued host.attempts serial ≤
    times serial [] + issued (ForkPool.new engine config host).2.attempts serial := new_accounts engine config serial
  simp only [times_nil] at made ⊢
  omega

theorem owned_after (owned : Owned lending) (step : LendingStep σ) : Owned (lending.after step) := by
  intro serial
  have before := owned serial
  cases step with
  | acquire =>
    have moved := acquire_accounts lending.pool lending.host serial
    rw [after]
    generalize lending.pool.acquire lending.host = called at moved ⊢
    obtain ⟨result, pool, host⟩ := called
    simp only [times_append] at moved ⊢
    omega
  | acquireBatch n =>
    have moved := acquireBatch_accounts lending.pool n lending.host serial
    rw [after]
    generalize lending.pool.acquireBatch n lending.host = called at moved ⊢
    obtain ⟨result, pool, host⟩ := called
    simp only [times_append] at moved ⊢
    omega
  | fillTo target =>
    have moved := fillTo_accounts lending.pool target lending.host serial
    rw [after]
    generalize lending.pool.fillTo target lending.host = called at moved ⊢
    obtain ⟨result, pool, host⟩ := called
    simp only [times_nil] at moved ⊢
    omega
  | release position =>
    rw [after]
    split
    · rename_i vm there
      have split := times_eraseIdx serial there
      have back := release_times lending.pool vm serial
      simp only
      omega
    · exact before
  | dispose position =>
    have fewer := times_eraseIdx_le serial position lending.out
    simp only [after]
    omega
  | used position state =>
    simp only [after, times_modify]
    exact before
  | elsewhere engine =>
    have fresh := fork_issued engine lending.host serial
    simp only [after, times_append]
    omega

theorem owned_reached {admitted : Lending σ → LendingStep σ → Prop} (reached : system.Reached admitted lending) :
    Owned lending :=
  reached.invariant (fun _ start => owned_start start) fun _ step _ owned _ taken => taken ▸ owned_after owned step

end Steps
end Lending

/-! ## One batch -/

/-- The batch comes with as many VMs as asked for, the waiting ones in front, or
the queue is as before. -/
def AllOrNothing (pool : ForkPool σ) (n : Nat) (host : Host) : Prop :=
  match pool.acquireBatch n host with
  | (.error _, after, _) => after.pool = pool.pool
  | (.ok vms, _, _) => vms.length = n ∧ Distinct vms ∧ pool.pool.take n <+: vms

section Batch
variable {pool : ForkPool σ} {host : Host} {n : Nat}

private theorem needed_eq : n - (pool.pool.take n).length = n - pool.pool.length := by
  rw [List.length_take]
  omega

theorem acquireBatch_of_grants (grants : Grants host (n - pool.pool.length)) :
    ∃ forked after, forked.length = n - pool.pool.length ∧
      pool.acquireBatch n host = (.ok (pool.pool.take n ++ forked), { pool with pool := pool.pool.drop n }, after) := by
  obtain ⟨vms, after, forked⟩ := (forkBatch_ok_iff pool.engine _ host).mpr grants
  have count : vms.length = n - pool.pool.length := length_forkBatch (congrArg Prod.fst forked)
  rw [ForkPool.acquireBatch, needed_eq]
  by_cases more : n - pool.pool.length > 0
  · exact ⟨vms, after, count, by rw [if_pos more, forked]⟩
  · refine ⟨[], host, by simp; omega, by rw [if_neg more, List.append_nil]⟩

/-- A batch that fails has taken out all that was waiting. -/
theorem acquireBatch_of_failure (fails : ¬ Grants host (n - pool.pool.length)) :
    ∃ error after, pool.acquireBatch n host = (.error error, { pool with pool := [] }, after) := by
  have more : n - pool.pool.length > 0 := by
    refine Nat.pos_of_ne_zero fun none => fails ?_
    rw [none]
    exact fun i bound => absurd bound (Nat.not_lt_zero i)
  have all : pool.pool.drop n = [] := List.drop_eq_nil_iff.mpr (by omega)
  rw [ForkPool.acquireBatch, needed_eq, if_pos more, all]
  cases forked : pool.engine.forkBatch (n - pool.pool.length) host with
  | mk result after =>
    cases result with
    | ok vms => exact absurd ((forkBatch_ok_iff ..).mp ⟨vms, after, forked⟩) fails
    | error error => exact ⟨.fork error, after, rfl⟩

/-- From any state a run comes to, a batch is all or nothing exactly when no VM
was waiting or all forks it needs succeed. -/
theorem allOrNothing_iff {lending : Lending σ} (reached : Lending.system.Reached (fun _ _ => True) lending) (n : Nat) :
    AllOrNothing lending.pool n lending.host ↔
      lending.pool.pool = [] ∨ Grants lending.host (n - lending.pool.pool.length) := by
  by_cases grants : Grants lending.host (n - lending.pool.pool.length)
  · refine iff_of_true ?_ (.inr grants)
    have moved := acquireBatch_accounts lending.pool n lending.host
    obtain ⟨forked, after, count, acquired⟩ := acquireBatch_of_grants grants
    rw [AllOrNothing, acquired]
    rw [acquired] at moved
    refine ⟨?_, distinct_of_times fun serial => ?_, List.prefix_append ..⟩
    · rw [List.length_append, List.length_take, count]
      omega
    · have given := moved serial
      have owned := Lending.owned_reached reached serial
      have once : issued after.attempts serial ≤ 1 := by
        rw [issued]
        split <;> omega
      simp only [Except.toOption, Option.getD_some] at given
      omega
  · obtain ⟨error, after, acquired⟩ := acquireBatch_of_failure grants
    rw [AllOrNothing, acquired, or_iff_left grants]
    exact eq_comm

end Batch

/-- A host on which only the first fork succeeds. -/
def grantsOne : Host := ⟨0, fun attempt => if attempt = 0 then none else some (.forkLimit 1)⟩

/-- A pool that was warmed with that fork. -/
def warmed : Lending Unit :=
  ⟨(ForkPool.new ⟨()⟩ ⟨1, 1, 0, none⟩ grantsOne).1, (ForkPool.new ⟨()⟩ ⟨1, 1, 0, none⟩ grantsOne).2, []⟩

theorem warmed_start : Lending.system.start warmed := ⟨⟨()⟩, ⟨1, 1, 0, none⟩, grantsOne, rfl⟩

theorem one_is_served : AllOrNothing warmed.pool 1 warmed.host :=
  (allOrNothing_iff (.start warmed_start) 1).mpr (.inr fun i bound => absurd bound (Nat.not_lt_zero i))

/-- The VM that was waiting is gone when the second cannot be forked. -/
theorem waiting_vm_is_lost :
    Lending.system.Reached (fun _ _ => True) warmed ∧ ¬ AllOrNothing warmed.pool 2 warmed.host := by
  refine ⟨.start warmed_start, fun kept => ?_⟩
  have empty : ([] : List (ForkedVm Unit)) = [⟨0, ()⟩] := kept
  cases empty

end TinyMachine.PoolBatch
