import TinyMachine.Lib.Runs
import TinyMachine.Pool

/-! Tenant isolation of a warm pool: what one tenant leaves in a VM must not
reach the next. Every operation other than `release` keeps the idle queue in
the snapshot state. `release` queues whatever it is given, so isolation is a
matter of what is released. -/
namespace TinyMachine.PoolIsolation
open Lib

/-- The VM is as the engine forked it. -/
def Pristine (engine : ForkEngine σ) (vm : ForkedVm σ) : Prop := vm.state = engine.snapshot

/-- Every idle VM is as the pool's engine forked it. -/
def IdlePristine (pool : ForkPool σ) : Prop := ∀ vm ∈ pool.pool, Pristine pool.engine vm

section Operations
variable {σ : Type u} {engine : ForkEngine σ} {pool : ForkPool σ} {host : Host}

theorem fork_pristine {vm : ForkedVm σ} (forked : (engine.fork host).1 = .ok vm) :
    Pristine engine vm := by
  unfold ForkEngine.fork at forked
  split at forked <;> cases forked
  rfl

theorem forkBatch_pristine {count : Nat} {vms : List (ForkedVm σ)}
    (forked : (engine.forkBatch count host).1 = .ok vms) : ∀ vm ∈ vms, Pristine engine vm := by
  induction count generalizing host vms with
  | zero => cases forked; simp
  | succ count ih =>
    simp only [ForkEngine.forkBatch] at forked
    split at forked
    · cases forked
    · rename_i vm after first
      split at forked
      · cases forked
      · rename_i rest final others
        cases forked
        intro vm' member
        rcases List.mem_cons.mp member with rfl | member
        · exact fork_pristine (congrArg Prod.fst first)
        · exact ih (congrArg Prod.fst others) vm' member

@[simp] theorem extendWith_engine (forked : Except ForkError (List (ForkedVm σ))) :
    (pool.extendWith forked).engine = pool.engine := by cases forked <;> rfl

theorem extendWith_pristine (idle : IdlePristine pool) {count : Nat} :
    IdlePristine (pool.extendWith (pool.engine.forkBatch count host).1) := by
  cases forked : (pool.engine.forkBatch count host).1 with
  | error error => exact idle
  | ok vms =>
    intro vm member
    rcases List.mem_append.mp member with old | new
    · exact idle vm old
    · exact forkBatch_pristine forked vm new

theorem new_spec (engine : ForkEngine σ) (config : PoolConfig) (host : Host) :
    (ForkPool.new engine config host).1.engine = engine ∧
      IdlePristine (ForkPool.new engine config host).1 := by
  have empty : IdlePristine ⟨engine, [], config⟩ := by intro vm member; cases member
  unfold ForkPool.new
  split
  · exact ⟨extendWith_engine _, extendWith_pristine empty⟩
  · exact ⟨rfl, empty⟩

theorem refill_spec (host : Host) (idle : IdlePristine pool) :
    (pool.refill host).1.engine = pool.engine ∧ IdlePristine (pool.refill host).1 := by
  unfold ForkPool.refill
  dsimp only
  split
  · exact ⟨rfl, idle⟩
  · exact ⟨extendWith_engine _, extendWith_pristine idle⟩

/-- An acquired VM is pristine, and so are the idle VMs that stay. -/
theorem acquire_spec (host : Host) (idle : IdlePristine pool) :
    (pool.acquire host).2.1.engine = pool.engine ∧ IdlePristine (pool.acquire host).2.1 ∧
      ∀ vm, (pool.acquire host).1 = .ok vm → Pristine pool.engine vm := by
  unfold ForkPool.acquire
  split
  · rename_i first rest queue
    have remaining : IdlePristine { pool with pool := rest } := by
      intro vm member
      exact idle vm (by rw [queue]; exact List.mem_cons_of_mem _ member)
    obtain ⟨same, refilled⟩ := refill_spec host remaining
    refine ⟨same, refilled, ?_⟩
    rintro vm ⟨⟩
    exact idle first (by rw [queue]; exact List.mem_cons_self)
  · split
    · exact ⟨rfl, idle, by rintro vm ⟨⟩⟩
    · rename_i vm after forked
      obtain ⟨same, refilled⟩ := refill_spec after idle
      refine ⟨same, refilled, ?_⟩
      rintro vm' ⟨⟩
      exact fork_pristine (congrArg Prod.fst forked)

theorem acquireBatch_spec (host : Host) (idle : IdlePristine pool) (n : Nat) :
    (pool.acquireBatch n host).2.1.engine = pool.engine ∧
      IdlePristine (pool.acquireBatch n host).2.1 ∧
      ∀ vms, (pool.acquireBatch n host).1 = .ok vms → ∀ vm ∈ vms, Pristine pool.engine vm := by
  have taken : ∀ vm ∈ pool.pool.take n, Pristine pool.engine vm :=
    fun vm member => idle vm (List.mem_of_mem_take member)
  have left : IdlePristine { pool with pool := pool.pool.drop n } :=
    fun vm member => idle vm (List.mem_of_mem_drop member)
  unfold ForkPool.acquireBatch
  dsimp only
  split
  · split
    · exact ⟨rfl, left, by rintro vms ⟨⟩⟩
    · rename_i forked after batch
      refine ⟨rfl, left, ?_⟩
      rintro vms ⟨⟩ vm member
      rcases List.mem_append.mp member with old | new
      · exact taken vm old
      · exact forkBatch_pristine (congrArg Prod.fst batch) vm new
  · refine ⟨rfl, left, ?_⟩
    rintro vms ⟨⟩
    exact taken

theorem fillTo_spec (host : Host) (idle : IdlePristine pool) (target : Nat) :
    (pool.fillTo target host).2.1.engine = pool.engine ∧
      IdlePristine (pool.fillTo target host).2.1 := by
  unfold ForkPool.fillTo
  split
  · exact ⟨rfl, idle⟩
  · split
    · exact ⟨rfl, idle⟩
    · rename_i vms after batch
      refine ⟨rfl, fun vm member => ?_⟩
      rcases List.mem_append.mp member with old | new
      · exact idle vm old
      · exact forkBatch_pristine (congrArg Prod.fst batch) vm new

/-- A release keeps the queue pristine when the VM is, or when the pool is
full and drops it. -/
theorem release_spec (idle : IdlePristine pool) {vm : ForkedVm σ}
    (clean : Pristine pool.engine vm ∨ pool.config.max ≤ pool.pool.length) :
    (pool.release vm).engine = pool.engine ∧ IdlePristine (pool.release vm) := by
  unfold ForkPool.release
  split
  · exact ⟨rfl, idle⟩
  · rename_i room
    refine ⟨rfl, fun vm' member => ?_⟩
    rcases List.mem_append.mp member with old | new
    · exact idle vm' old
    · obtain rfl := List.mem_singleton.mp new
      exact clean.resolve_right room

end Operations

/-! ## Tenants sharing a pool -/

/-- A pool, the VMs its callers hold, and a record of every VM handed out in
the state it had at that moment. -/
structure Tenancy (κ : Type u) where
  pool : ForkPool (VmState κ)
  host : Host
  held : List (ForkedVm (VmState κ))
  handedOut : List (ForkedVm (VmState κ))

/-- What callers do with a pool. Every run of code comes with its own entropy
and its own guest. -/
inductive PoolOp (κ : Type u) where
  | fillTo (target : Nat)
  | acquire
  | acquireBatch (n : Nat)
  | runCode (index : Nat) (code : String) (entropy : Entropy) (guest : Guest κ)
  | release (index : Nat)

namespace Tenancy
variable {κ : Type u}

/-- A new pool, pre-warmed, with nothing handed out. -/
def create (engine : ForkEngine (VmState κ)) (config : PoolConfig) (host : Host) : Tenancy κ :=
  let (pool, host) := ForkPool.new engine config host
  ⟨pool, host, [], []⟩

/-- The callers receive these VMs. -/
def handOut (s : Tenancy κ) (vms : List (ForkedVm (VmState κ))) : Tenancy κ :=
  { s with held := s.held ++ vms, handedOut := s.handedOut ++ vms }

def apply (s : Tenancy κ) : PoolOp κ → Tenancy κ
  | .fillTo target =>
    let (_, pool, host) := s.pool.fillTo target s.host
    { s with pool := pool, host := host }
  | .acquire =>
    let (result, pool, host) := s.pool.acquire s.host
    let s := { s with pool := pool, host := host }
    match result with
    | .ok vm => s.handOut [vm]
    | .error _ => s
  | .acquireBatch n =>
    let (result, pool, host) := s.pool.acquireBatch n s.host
    let s := { s with pool := pool, host := host }
    match result with
    | .ok vms => s.handOut vms
    | .error _ => s
  | .runCode index code entropy guest =>
    { s with held := s.held.modify index fun vm =>
        { vm with state := (vm.state.runCode entropy guest code).2 } }
  | .release index =>
    match s.held[index]? with
    | some vm => { s with pool := s.pool.release vm, held := s.held.eraseIdx index }
    | none => s

/-- All runs of all pools. -/
def system (κ : Type u) : System (Tenancy κ) (PoolOp κ) where
  start s := ∃ engine config host, s = create engine config host
  step s op t := t = s.apply op

/-- The operations that leave no tenant's traces in the idle queue: whatever
is released is unused, or the pool is full and drops it. -/
def LeavesNoTrace (s : Tenancy κ) : PoolOp κ → Prop
  | .release index => ∀ vm, s.held[index]? = some vm →
      Pristine s.pool.engine vm ∨ s.pool.config.max ≤ s.pool.pool.length
  | _ => True

/-- The idle VMs, and all VMs ever handed out, are snapshot copies. -/
structure Isolated (s : Tenancy κ) : Prop where
  idle : IdlePristine s.pool
  handed : ∀ vm ∈ s.handedOut, Pristine s.pool.engine vm

theorem isolated_create (engine : ForkEngine (VmState κ)) (config : PoolConfig) (host : Host) :
    Isolated (create engine config host) :=
  ⟨(new_spec engine config host).2, by intro vm member; cases member⟩

private theorem isolated_hand_out {s t : Tenancy κ} (isolated : Isolated s)
    (vms : List (ForkedVm (VmState κ))) (same : t.pool.engine = s.pool.engine)
    (idle : IdlePristine t.pool) (records : t.handedOut = s.handedOut ++ vms)
    (fresh : ∀ vm ∈ vms, Pristine s.pool.engine vm) : Isolated t := by
  refine ⟨idle, fun vm member => ?_⟩
  rw [same]
  rw [records] at member
  rcases List.mem_append.mp member with old | new
  · exact isolated.handed vm old
  · exact fresh vm new

/-- One operation. Only `release` needs its condition. -/
theorem isolated_apply {s : Tenancy κ} {op : PoolOp κ} (isolated : Isolated s)
    (clean : LeavesNoTrace s op) : Isolated (s.apply op) := by
  cases op with
  | fillTo target =>
    obtain ⟨same, idle⟩ := fillTo_spec s.host isolated.idle target
    exact isolated_hand_out isolated [] same idle (by simp [apply]) (by simp)
  | acquire =>
    obtain ⟨same, idle, fresh⟩ := acquire_spec s.host isolated.idle
    simp only [apply]
    split
    · rename_i vm acquired
      exact isolated_hand_out isolated _ same idle rfl (by simpa using fresh vm acquired)
    · exact isolated_hand_out isolated [] same idle (by simp) (by simp)
  | acquireBatch n =>
    obtain ⟨same, idle, fresh⟩ := acquireBatch_spec s.host isolated.idle n
    simp only [apply]
    split
    · rename_i vms acquired
      exact isolated_hand_out isolated _ same idle rfl (fresh vms acquired)
    · exact isolated_hand_out isolated [] same idle (by simp) (by simp)
  | runCode index code entropy guest => exact ⟨isolated.idle, isolated.handed⟩
  | release index =>
    simp only [apply]
    split
    · rename_i vm held
      obtain ⟨same, idle⟩ := release_spec isolated.idle (clean vm held)
      exact isolated_hand_out isolated [] same idle (by simp) (by simp)
    · exact isolated

theorem reached_isolated {s : Tenancy κ} (reached : (system κ).Reached LeavesNoTrace s) :
    Isolated s := by
  refine reached.invariant ?_ ?_
  · rintro s ⟨engine, config, host, rfl⟩
    exact isolated_create engine config host
  · rintro s op t isolated clean rfl
    exact isolated_apply isolated clean

/-- Runs that only ever release unused VMs, or release into a full pool, hand
out nothing but snapshot copies. -/
theorem warm_pool_hands_out_snapshots {s : Tenancy κ}
    (reached : (system κ).Reached LeavesNoTrace s) :
    ∀ vm ∈ s.handedOut, vm.state = s.pool.engine.snapshot :=
  (reached_isolated reached).handed

def smallSnapshot : VmState Unit := ⟨Memory.zeroed, 0x100000, (), false⟩
def smallTenancy : Tenancy Unit := create ⟨smallSnapshot⟩ ⟨0, 1, 60, none⟩ ⟨0, fun _ => none⟩

/-- A VM is acquired, released unused and acquired again. -/
def reacquired : Tenancy Unit :=
  ((smallTenancy.apply .acquire).apply (.release 0)).apply .acquire

theorem reacquired_unused_vm_is_pristine :
    (reacquired.handedOut.getLast (by decide)).state = smallSnapshot := by
  have start : (system Unit).Reached LeavesNoTrace smallTenancy :=
    .start ⟨⟨smallSnapshot⟩, ⟨0, 1, 60, none⟩, ⟨0, fun _ => none⟩, rfl⟩
  have acquired : (system Unit).Reached LeavesNoTrace (smallTenancy.apply .acquire) :=
    start.next (show LeavesNoTrace _ .acquire from trivial) rfl
  have released : (system Unit).Reached LeavesNoTrace
      ((smallTenancy.apply .acquire).apply (.release 0)) :=
    acquired.next (show LeavesNoTrace _ (.release 0) from fun vm same => by
      cases same
      exact .inl rfl) rfl
  have reached : (system Unit).Reached LeavesNoTrace reacquired :=
    released.next (show LeavesNoTrace _ .acquire from trivial) rfl
  exact warm_pool_hands_out_snapshots reached _ (List.getLast_mem _)

/-- Two such runs over one snapshot are indistinguishable to whoever acquires
a VM in them, whatever code the earlier callers ran. -/
theorem acquired_vms_are_indistinguishable {s t : Tenancy κ}
    (left : (system κ).Reached LeavesNoTrace s) (right : (system κ).Reached LeavesNoTrace t)
    (shared : s.pool.engine.snapshot = t.pool.engine.snapshot) :
    ∀ vm ∈ s.handedOut, ∀ vm' ∈ t.handedOut, vm.state = vm'.state := by
  intro vm member vm' member'
  rw [(reached_isolated left).handed vm member, (reached_isolated right).handed vm' member',
    shared]

/-- The guest finishes at once and touches nothing. -/
def idleGuest : Guest Unit := fun vm => (.ok (), vm)

def secondTenant : Tenancy Unit :=
  (((smallTenancy.apply .acquire).apply (.runCode 0 "x" (fun _ => 0) idleGuest)).apply
    (.release 0)).apply .acquire

/-- The second tenant acquires a VM that holds the first tenant's code. -/
theorem second_tenant_meets_code :
    ¬ ∀ s : Tenancy Unit, (system Unit).Reached (fun _ _ => True) s →
      ∀ vm ∈ s.handedOut, vm.state = s.pool.engine.snapshot := by
  intro law
  have reached : (system Unit).Reached (fun _ _ => True) secondTenant :=
    .next (.next (.next (.next (.start ⟨_, _, _, rfl⟩) trivial rfl) trivial rfl) trivial rfl)
      trivial rfl
  have leaked : ∃ vm ∈ secondTenant.handedOut, vm.state.memory cmdBufPhys = 0x78 := by
    refine ⟨⟨0, (smallSnapshot.runCode (fun _ => 0) idleGuest "x").2⟩, ?_, by rfl⟩
    exact List.mem_append_right _ List.mem_cons_self
  obtain ⟨vm, member, code⟩ := leaked
  have clean := law secondTenant reached vm member
  rw [clean] at code
  revert code
  decide

end Tenancy
end TinyMachine.PoolIsolation
