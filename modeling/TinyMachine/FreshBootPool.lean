import Mathlib.Data.List.Basic
import TinyMachine.Lib.Runs

/-! The pool of booted VMs, and how many VMs live: those that wait in it and
those that are handed out. -/
namespace TinyMachine.FreshBoot
open Lib

/-! ## The pool -/

inductive FreshBootPoolError where
  | empty
  | full
  | backend (message : String)
  | variantNotFound (variantId : String)
  deriving DecidableEq, Repr

def FreshBootPoolError.display : FreshBootPoolError → String
  | empty => "Pool is empty — all booted VMs are in use"
  | full => "Pool is full — cannot add more VMs"
  | backend message => s!"Backend error: {message}"
  | variantNotFound variantId => s!"Variant not found: {variantId}"

/-- How many boots and resets were attempted, and what each attempt meets. -/
structure BootHost where
  attempts : Nat
  outcome : Nat → Option String

/-- A backend that was booted, by the number of the attempt. -/
structure Backend where
  serial : Nat
  deriving DecidableEq, Repr

/-- `init` of a new backend. -/
def boot (host : BootHost) : Except String Backend × BootHost :=
  let after := { host with attempts := host.attempts + 1 }
  match host.outcome host.attempts with
  | some message => (.error message, after)
  | none => (.ok ⟨host.attempts⟩, after)

/-- `reset` of a backend. -/
def reset (host : BootHost) : Except String Unit × BootHost :=
  let after := { host with attempts := host.attempts + 1 }
  match host.outcome host.attempts with
  | some message => (.error message, after)
  | none => (.ok (), after)

/-- The front of the list is the front of the queue. -/
structure FreshBootPool where
  pool : List Backend
  min : Nat
  max : Nat
  deriving DecidableEq, Repr

/-- So many boots, the first failure of which drops what was booted. -/
def prewarm : Nat → List Backend → BootHost → Except FreshBootPoolError (List Backend) × BootHost
  | 0, booted, host => (.ok booted, host)
  | count + 1, booted, host =>
    match boot host with
    | (.error message, host) => (.error (.backend message), host)
    | (.ok backend, host) => prewarm count (booted ++ [backend]) host

def new (min max : Nat) (host : BootHost) : Except FreshBootPoolError FreshBootPool × BootHost :=
  match prewarm min [] host with
  | (.error error, host) => (.error error, host)
  | (.ok booted, host) => (.ok ⟨booted, min, max⟩, host)

namespace FreshBootPool

/-- So many boots, until one fails. -/
def bootMore : Nat → FreshBootPool → BootHost → FreshBootPool × BootHost
  | 0, pool, host => (pool, host)
  | count + 1, pool, host =>
    match boot host with
    | (.error _, host) => (pool, host)
    | (.ok backend, host) => bootMore count { pool with pool := pool.pool ++ [backend] } host

def refill (pool : FreshBootPool) (host : BootHost) : FreshBootPool × BootHost :=
  bootMore (pool.min - pool.pool.length) pool host

/-- One that waits, or else one that is booted now. -/
def acquire (pool : FreshBootPool) (host : BootHost) :
    Except FreshBootPoolError Backend × FreshBootPool × BootHost :=
  match pool.pool with
  | backend :: rest => (.ok backend, { pool with pool := rest }.refill host)
  | [] =>
    if pool.max < pool.pool.length + 1 then (.error .empty, pool, host)
    else
      match boot host with
      | (.error message, host) => (.error (.backend message), pool, host)
      | (.ok backend, host) => (.ok backend, pool.refill host)

/-- What is not queued again is destroyed. -/
def release (pool : FreshBootPool) (backend : Backend) (host : BootHost) : FreshBootPool × BootHost :=
  if pool.max ≤ pool.pool.length then (pool, host)
  else
    match reset host with
    | (.error _, host) => (pool, host)
    | (.ok (), host) => ({ pool with pool := pool.pool ++ [backend] }, host)

end FreshBootPool

/-! ## Counting -/

section Counting
variable {pool : FreshBootPool} {host : BootHost}

theorem length_prewarm {count : Nat} {before booted : List Backend} {after : BootHost}
    (warmed : prewarm count before host = (.ok booted, after)) : booted.length = before.length + count := by
  induction count generalizing before host with
  | zero =>
    cases warmed
    rfl
  | succ count ih =>
    rw [prewarm] at warmed
    split at warmed
    · cases warmed
    · rw [ih warmed, List.length_append, List.length_singleton]
      omega

theorem bootMore_spec (count : Nat) (pool : FreshBootPool) (host : BootHost) :
    (pool.bootMore count host).1.pool.length ≤ pool.pool.length + count ∧
      (pool.bootMore count host).1.min = pool.min ∧ (pool.bootMore count host).1.max = pool.max := by
  induction count generalizing pool host with
  | zero => exact ⟨Nat.le_refl _, rfl, rfl⟩
  | succ count ih =>
    rw [FreshBootPool.bootMore]
    split
    · exact ⟨Nat.le_add_right _ _, rfl, rfl⟩
    · rename_i backend after booted
      obtain ⟨length, min, max⟩ := ih { pool with pool := pool.pool ++ [backend] } after
      rw [List.length_append, List.length_singleton] at length
      exact ⟨by omega, min, max⟩

theorem refill_spec (pool : FreshBootPool) (host : BootHost) :
    (pool.refill host).1.pool.length ≤ max pool.pool.length pool.min ∧
      (pool.refill host).1.min = pool.min ∧ (pool.refill host).1.max = pool.max := by
  obtain ⟨length, same⟩ := bootMore_spec (pool.min - pool.pool.length) pool host
  unfold FreshBootPool.refill
  exact ⟨by omega, same⟩

theorem acquire_idle {backend : Backend} {rest : List Backend} (queue : pool.pool = backend :: rest) :
    pool.acquire host =
      (.ok backend, { pool with pool := rest }.refill host) := by
  simp only [FreshBootPool.acquire, queue]

theorem acquire_full (queue : pool.pool = []) (full : pool.max = 0) :
    pool.acquire host = (.error .empty, pool, host) := by
  simp [FreshBootPool.acquire, queue, full]

theorem acquire_boots (queue : pool.pool = []) (room : pool.max ≠ 0) : pool.acquire host =
    match boot host with
    | (.error message, host) => (.error (.backend message), pool, host)
    | (.ok backend, host) => (.ok backend, pool.refill host) := by
  simp [FreshBootPool.acquire, queue, room]

theorem acquire_failed {error : FreshBootPoolError} (failed : (pool.acquire host).1 = .error error) :
    (pool.acquire host).2.1 = pool := by
  match queue : pool.pool with
  | backend :: rest =>
    rw [acquire_idle queue] at failed
    cases failed
  | [] =>
    by_cases full : pool.max = 0
    · rw [acquire_full queue full]
    · rw [acquire_boots queue full] at failed ⊢
      split
      · rfl
      · rename_i booted
        rw [booted] at failed
        cases failed

/-- After `acquire` the pool holds its minimum, or one VM less than before. -/
theorem acquire_ok {backend : Backend} (done : (pool.acquire host).1 = .ok backend) :
    (pool.acquire host).2.1.pool.length ≤ max (pool.pool.length - 1) pool.min ∧
      (pool.acquire host).2.1.min = pool.min ∧ (pool.acquire host).2.1.max = pool.max := by
  match queue : pool.pool with
  | first :: rest =>
    rw [acquire_idle queue, List.length_cons, Nat.add_sub_cancel]
    exact refill_spec { pool with pool := rest } host
  | [] =>
    by_cases full : pool.max = 0
    · rw [acquire_full queue full] at done
      cases done
    · rw [acquire_boots queue full] at done ⊢
      split
      · rename_i failed
        rw [failed] at done
        cases done
      · rename_i after booted
        obtain ⟨length, same⟩ := refill_spec pool after
        rw [queue] at length
        exact ⟨length, same⟩

/-- `Empty` is the answer of a pool without VMs and without room for one. -/
theorem acquire_empty_iff : (pool.acquire host).1 = .error .empty ↔ pool.pool = [] ∧ pool.max = 0 := by
  match queue : pool.pool with
  | backend :: rest =>
    rw [acquire_idle queue]
    simp
  | [] =>
    by_cases full : pool.max = 0
    · rw [acquire_full queue full]
      simp [full]
    · rw [acquire_boots queue full]
      split
      · simp [full]
      · simp [full]

theorem release_spec (pool : FreshBootPool) (backend : Backend) (host : BootHost) :
    (pool.release backend host).1.min = pool.min ∧ (pool.release backend host).1.max = pool.max ∧
      (pool.release backend host).1.pool.length ≤ pool.pool.length + 1 := by
  unfold FreshBootPool.release
  split
  · exact ⟨rfl, rfl, Nat.le_succ _⟩
  · split
    · exact ⟨rfl, rfl, Nat.le_succ _⟩
    · exact ⟨rfl, rfl, by simp⟩

end Counting

/-! ## Runs -/

/-- The pool and the VMs that are handed out. -/
structure Floor where
  pool : FreshBootPool
  out : List Backend
  deriving DecidableEq, Repr

inductive FloorCall where
  | acquire (host : BootHost)
  /-- One of those that are handed out comes back. -/
  | release (position : Nat) (host : BootHost)

namespace Floor

def live (floor : Floor) : Nat := floor.pool.pool.length + floor.out.length

def after (floor : Floor) : FloorCall → Floor
  | .acquire host =>
    match floor.pool.acquire host with
    | (.ok backend, pool, _) => ⟨pool, backend :: floor.out⟩
    | (.error _, pool, _) => ⟨pool, floor.out⟩
  | .release position host =>
    match floor.out[position]? with
    | some backend => ⟨(floor.pool.release backend host).1, floor.out.eraseIdx position⟩
    | none => floor

def system (min max : Nat) : System Floor FloorCall where
  start := fun floor => ∃ host after, new min max host = (.ok floor.pool, after) ∧ floor.out = []
  step := fun floor call next => next = floor.after call

/-- There is room for the VM and for those that are booted in its place, or
there is none at all. -/
def Admits (floor : Floor) : FloorCall → Prop
  | .acquire _ =>
    Nat.max (floor.pool.pool.length - 1) floor.pool.min + floor.out.length + 1 ≤ floor.pool.max ∨
      floor.pool.max = 0 ∧ floor.pool.pool = []
  | .release _ _ => True

variable {floor : Floor} {min max : Nat}

theorem start_spec (started : (system min max).start floor) :
    floor.pool.pool.length = min ∧ floor.pool.min = min ∧ floor.pool.max = max ∧ floor.out = [] := by
  obtain ⟨host, after, made, out⟩ := started
  unfold new at made
  split at made
  · cases made
  · rename_i booted later warmed
    have length := length_prewarm warmed
    rw [List.length_nil, Nat.zero_add] at length
    rw [← Except.ok.inj (Prod.mk.inj made).1]
    exact ⟨length, rfl, rfl, out⟩

theorem after_acquire_ok {host : BootHost} {backend : Backend} (done : (floor.pool.acquire host).1 = .ok backend) :
    floor.after (.acquire host) = ⟨(floor.pool.acquire host).2.1, backend :: floor.out⟩ := by
  rw [after]
  split
  · rename_i ran
    rw [ran] at done ⊢
    cases done
    rfl
  · rename_i ran
    rw [ran] at done
    cases done

theorem after_acquire_failed {host : BootHost} {error : FreshBootPoolError}
    (failed : (floor.pool.acquire host).1 = .error error) : floor.after (.acquire host) = floor := by
  have same := acquire_failed failed
  rw [after]
  split
  · rename_i ran
    rw [ran] at failed
    cases failed
  · rename_i ran
    rw [ran] at same
    exact congrArg (Floor.mk · floor.out) same

theorem after_acquire_cases (floor : Floor) (host : BootHost) : floor.after (.acquire host) = floor ∨
    ∃ backend, (floor.pool.acquire host).1 = .ok backend ∧
      floor.after (.acquire host) = ⟨(floor.pool.acquire host).2.1, backend :: floor.out⟩ := by
  cases answer : (floor.pool.acquire host).1 with
  | ok backend => exact .inr ⟨backend, rfl, after_acquire_ok answer⟩
  | error error => exact .inl (after_acquire_failed answer)

/-- What comes back is no longer handed out. -/
theorem after_release (floor : Floor) (position : Nat) (host : BootHost) :
    (floor.after (.release position host)).live ≤ floor.live ∧
      (floor.after (.release position host)).pool.min = floor.pool.min ∧
      (floor.after (.release position host)).pool.max = floor.pool.max := by
  rw [after]
  split
  · rename_i backend found
    obtain ⟨min, max, length⟩ := release_spec floor.pool backend host
    have there : position < floor.out.length := (List.getElem?_eq_some_iff.mp found).1
    have removed := List.length_eraseIdx_of_lt there
    refine ⟨?_, min, max⟩
    unfold live
    dsimp only
    omega
  · exact ⟨Nat.le_refl _, rfl, rfl⟩

theorem settings_after (floor : Floor) (call : FloorCall) :
    (floor.after call).pool.min = floor.pool.min ∧ (floor.after call).pool.max = floor.pool.max := by
  cases call with
  | acquire host =>
    rcases after_acquire_cases floor host with same | ⟨backend, done, same⟩
    · rw [same]
      exact ⟨rfl, rfl⟩
    · rw [same]
      exact (acquire_ok done).2
  | release position host => exact (after_release floor position host).2

/-- A call that is admitted leaves no more VMs than the maximum. -/
theorem live_after {call : FloorCall} (bounded : floor.live ≤ floor.pool.max) (admits : floor.Admits call) :
    (floor.after call).live ≤ floor.pool.max := by
  cases call with
  | acquire host =>
    rcases after_acquire_cases floor host with same | ⟨backend, done, same⟩
    · rwa [same]
    · rcases admits with room | ⟨none, empty⟩
      · have waiting : (floor.pool.acquire host).2.1.pool.length ≤
          Nat.max (floor.pool.pool.length - 1) floor.pool.min := (acquire_ok done).1
        rw [same, live, List.length_cons]
        dsimp only
        omega
      · have answer : (floor.pool.acquire host).1 = .error .empty := acquire_empty_iff.mpr ⟨empty, none⟩
        rw [done] at answer
        cases answer
  | release position host => exact Nat.le_trans (after_release floor position host).1 bounded

/-- The settings are those of the start. -/
theorem settings_reached {admitted : Floor → FloorCall → Prop}
    (reached : (system min max).Reached admitted floor) : floor.pool.min = min ∧ floor.pool.max = max := by
  apply reached.invariant
  · intro floor started
    obtain ⟨-, same⟩ := start_spec started
    exact ⟨same.1, same.2.1⟩
  · rintro floor call _ ⟨least, most⟩ - rfl
    obtain ⟨least', most'⟩ := settings_after floor call
    exact ⟨least'.trans least, most'.trans most⟩

theorem bounded_of_admitted (within : min ≤ max) (reached : (system min max).Reached Admits floor) :
    floor.live ≤ floor.pool.max := by
  apply reached.invariant
  · intro floor started
    obtain ⟨length, -, most, out⟩ := start_spec started
    rw [live, length, most, out]
    exact within
  · rintro floor call _ bounded admits rfl
    rw [(settings_after floor call).2]
    exact live_after bounded admits

/-- The answer `Empty` is given exactly when no VM waits and the maximum is
handed out. -/
def EmptyWhenAllOut (floor : Floor) (host : BootHost) : Prop :=
  (floor.pool.acquire host).1 = .error .empty ↔ floor.pool.pool = [] ∧ floor.out.length = floor.pool.max

theorem emptyWhenAllOut_of_admitted {host : BootHost} (bounded : floor.live ≤ floor.pool.max)
    (admits : floor.Admits (.acquire host)) : floor.EmptyWhenAllOut host := by
  unfold EmptyWhenAllOut
  rw [acquire_empty_iff]
  unfold live at bounded
  rcases admits with room | ⟨none, empty⟩
  · constructor
    · rintro ⟨-, none⟩
      omega
    · rintro ⟨-, all⟩
      omega
  · have nobody : floor.out.length = 0 := by omega
    simp [none, empty, nobody]

/-! ### Which settings need no condition -/

/-- All boots and resets succeed. -/
def willing : BootHost := ⟨0, fun _ => none⟩

theorem boot_willing {host : BootHost} (willing : host.outcome = fun _ => none) :
    boot host = (.ok ⟨host.attempts⟩, ⟨host.attempts + 1, host.outcome⟩) := by
  simp [boot, willing]

theorem prewarm_willing (count : Nat) (before : List Backend) (host : BootHost)
    (willing : host.outcome = fun _ => none) :
    ∃ booted after, prewarm count before host = (.ok booted, after) := by
  induction count generalizing before host with
  | zero => exact ⟨before, host, rfl⟩
  | succ count ih =>
    rw [prewarm, boot_willing willing]
    exact ih _ _ willing

theorem start_willing (min max : Nat) : ∃ floor, (system min max).start floor := by
  obtain ⟨booted, after, warmed⟩ := prewarm_willing min [] willing rfl
  refine ⟨⟨⟨booted, min, max⟩, []⟩, willing, after, ?_, rfl⟩
  rw [new, warmed]

theorem acquire_willing (room : floor.pool.max ≠ 0) :
    ∃ backend, (floor.pool.acquire willing).1 = .ok backend := by
  match queue : floor.pool.pool with
  | backend :: rest => exact ⟨backend, by rw [acquire_idle queue]⟩
  | [] =>
    rw [acquire_boots queue room, boot_willing rfl]
    exact ⟨_, rfl⟩

/-- With a willing host and a maximum above zero any number of VMs is handed out. -/
theorem reaches_any (min : Nat) (room : max ≠ 0) (count : Nat) :
    ∃ floor, (system min max).Reached (fun _ _ => True) floor ∧ floor.out.length = count := by
  induction count with
  | zero =>
    obtain ⟨floor, started⟩ := start_willing min max
    obtain ⟨-, -, -, out⟩ := start_spec started
    exact ⟨floor, .start started, by rw [out, List.length_nil]⟩
  | succ count ih =>
    obtain ⟨floor, reached, length⟩ := ih
    have most : floor.pool.max = max := (settings_reached reached).2
    have some : floor.pool.max ≠ 0 := by rwa [most]
    obtain ⟨backend, done⟩ := acquire_willing some
    refine ⟨floor.after (.acquire willing), .next reached trivial rfl, ?_⟩
    rw [after_acquire_ok done, List.length_cons, length]

/-- A pool that may hold nothing stays empty. -/
theorem idle_of_none (reached : (system 0 0).Reached (fun _ _ => True) floor) :
    floor.pool.pool = [] ∧ floor.pool.max = 0 ∧ floor.out = [] := by
  apply reached.invariant
  · intro floor started
    obtain ⟨length, -, most, out⟩ := start_spec started
    exact ⟨List.eq_nil_of_length_eq_zero length, most, out⟩
  · rintro floor call _ ⟨idle, none, out⟩ - rfl
    cases call with
    | acquire host =>
      rw [after, acquire_full idle none]
      exact ⟨idle, none, out⟩
    | release position host =>
      rw [after, out, List.getElem?_nil]
      exact ⟨idle, none, out⟩

/-- The VMs are no more than the maximum, and none more is booted once it is
handed out: in every run whose `acquire`s find room for the VM and for the
refill; in every run of any calls only where nothing may be booted at all. -/
theorem live_bound_iff (min max : Nat) :
    (min ≤ max → ∀ floor, (system min max).Reached Admits floor → floor.live ≤ max ∧
      ∀ host, floor.Admits (.acquire host) → floor.EmptyWhenAllOut host) ∧
    ((∀ floor, (system min max).Reached (fun _ _ => True) floor → floor.live ≤ max ∧
      ∀ host, floor.EmptyWhenAllOut host) ↔ min = 0 ∧ max = 0) := by
  refine ⟨?_, ?_, ?_⟩
  · intro within floor reached
    have bounded := bounded_of_admitted within reached
    refine ⟨?_, fun host admits => emptyWhenAllOut_of_admitted bounded admits⟩
    rwa [(settings_reached reached).2] at bounded
  · intro always
    have most : max = 0 := by
      by_contra room
      obtain ⟨floor, reached, length⟩ := reaches_any min room (max + 1)
      have bound := (always floor reached).1
      rw [live, length] at bound
      omega
    obtain ⟨floor, started⟩ := start_willing min max
    have bound := (always floor (.start started)).1
    rw [live, (start_spec started).1] at bound
    exact ⟨by omega, most⟩
  · rintro ⟨rfl, rfl⟩ floor reached
    obtain ⟨idle, none, out⟩ := idle_of_none reached
    refine ⟨by rw [live, idle, out]; exact Nat.le_refl _, fun host => ?_⟩
    rw [EmptyWhenAllOut, acquire_empty_iff, idle, none, out]
    simp

/-- A run that acquires so many VMs from a willing host. -/
def acquireAll : Nat → Floor → Floor
  | 0, floor => floor
  | count + 1, floor => acquireAll count (floor.after (.acquire willing))

theorem reached_acquireAll (count : Nat) (reached : (system min max).Reached (fun _ _ => True) floor) :
    (system min max).Reached (fun _ _ => True) (acquireAll count floor) := by
  induction count generalizing floor with
  | zero => exact reached
  | succ count ih => exact ih (.next reached trivial rfl)

/-- One VM may wait and be handed out: the run that acquires it keeps the bound. -/
theorem one_is_handed_out :
    let floor := (⟨⟨[], 0, 1⟩, []⟩ : Floor).after (.acquire willing)
    floor.live ≤ 1 ∧ ∀ host, floor.Admits (.acquire host) → floor.EmptyWhenAllOut host := by
  have started : (system 0 1).start ⟨⟨[], 0, 1⟩, []⟩ := ⟨willing, willing, rfl, rfl⟩
  have room : (⟨⟨[], 0, 1⟩, []⟩ : Floor).Admits (.acquire willing) := .inl (Nat.le_refl 1)
  exact (live_bound_iff 0 1).1 (Nat.zero_le 1) _ (.next (.start started) room rfl)

/-- One VM is allowed; two `acquire`s hand out two. -/
theorem two_of_one : ∃ floor, (system 0 1).Reached (fun _ _ => True) floor ∧
    floor.pool.max = 1 ∧ floor.live = 2 := by
  have started : (system 0 1).start ⟨⟨[], 0, 1⟩, []⟩ := ⟨willing, willing, rfl, rfl⟩
  exact ⟨_, reached_acquireAll 2 (.start started), rfl, rfl⟩

end Floor
end TinyMachine.FreshBoot
