import TinyMachine.Lazy

/-! Whether `LazyFork::realize` gives every queued item its own outcome. A
chunk's VMs are renumbered when failed acquisitions are left out, while the
code they run and the slots they fill are still taken by that number. Within
one chunk this is harmless exactly when all failures come behind all
successes. Which acquisitions succeed is a matter of idle counts and of the
host alone, so the condition is read off the pools with their VMs erased. -/
namespace TinyMachine.LazyPairing
open Lib

/-! ## Pools with the VMs' contents erased -/

section Erasure
variable {σ : Type u}

def eraseVm (vm : ForkedVm σ) : ForkedVm Unit := ⟨vm.serial, ()⟩

def eraseEngine (_ : ForkEngine σ) : ForkEngine Unit := ⟨()⟩

def erasePool (pool : ForkPool σ) : ForkPool Unit :=
  ⟨eraseEngine pool.engine, pool.pool.map eraseVm, pool.config⟩

def eraseManager (manager : PoolManager σ) : PoolManager Unit :=
  ⟨fun variantId => (manager.pools variantId).map erasePool⟩

theorem fork_erased (engine : ForkEngine σ) (host : Host) :
    (eraseEngine engine).fork host = ((engine.fork host).1.map eraseVm, (engine.fork host).2) := by
  unfold ForkEngine.fork
  cases host.outcome host.attempts <;> rfl

theorem forkBatch_erased (engine : ForkEngine σ) (count : Nat) (host : Host) :
    (eraseEngine engine).forkBatch count host =
      ((engine.forkBatch count host).1.map (List.map eraseVm), (engine.forkBatch count host).2) := by
  induction count generalizing host with
  | zero => rfl
  | succ count ih =>
    simp only [ForkEngine.forkBatch, fork_erased]
    rcases engine.fork host with ⟨_ | vm, after⟩
    · rfl
    · simp only [Except.map, ih]
      rcases engine.forkBatch count after with ⟨_ | vms, final⟩ <;> rfl

theorem extendWith_erased (pool : ForkPool σ) (forked : Except ForkError (List (ForkedVm σ))) :
    (erasePool pool).extendWith (forked.map (List.map eraseVm)) =
      erasePool (pool.extendWith forked) := by
  cases forked <;> simp [ForkPool.extendWith, erasePool, Except.map]

theorem refill_erased (pool : ForkPool σ) (host : Host) :
    (erasePool pool).refill host = (erasePool (pool.refill host).1, (pool.refill host).2) := by
  have idle : (erasePool pool).pool.length = pool.pool.length := List.length_map ..
  unfold ForkPool.refill
  simp only [idle, show (erasePool pool).config = pool.config from rfl]
  split
  · rfl
  · simp only [show (erasePool pool).engine = eraseEngine pool.engine from rfl, forkBatch_erased,
      extendWith_erased]

theorem acquire_erased (pool : ForkPool σ) (host : Host) :
    (erasePool pool).acquire host = ((pool.acquire host).1.map eraseVm,
      erasePool (pool.acquire host).2.1, (pool.acquire host).2.2) := by
  obtain ⟨engine, idle, config⟩ := pool
  cases idle with
  | cons vm rest => exact congrArg (Prod.mk _) (refill_erased ⟨engine, rest, config⟩ host)
  | nil =>
    simp only [ForkPool.acquire, erasePool, List.map_nil, fork_erased]
    rcases engine.fork host with ⟨_ | vm, after⟩
    · rfl
    · exact congrArg (Prod.mk _) (refill_erased ⟨engine, [], config⟩ after)

theorem put_erased (manager : PoolManager σ) (variantId : String) (pool : ForkPool σ) :
    (eraseManager manager).put variantId (erasePool pool) =
      eraseManager (manager.put variantId pool) := by
  simp only [eraseManager, PoolManager.put, PoolManager.mk.injEq]
  funext other
  by_cases same : other = variantId
  · subst same; simp
  · simp [same]

theorem manager_acquire_erased (manager : PoolManager σ) (variantId : String) (host : Host) :
    (eraseManager manager).acquire variantId host =
      ((manager.acquire variantId host).1.map eraseVm,
        eraseManager (manager.acquire variantId host).2.1,
        (manager.acquire variantId host).2.2) := by
  unfold PoolManager.acquire
  rw [show (eraseManager manager).pools variantId = (manager.pools variantId).map erasePool from rfl]
  cases manager.pools variantId with
  | none => rfl
  | some pool => simp only [Option.map_some, acquire_erased, put_erased]

/-- A release only counts: what the VM became in between does not matter. -/
theorem manager_release_erased (manager : PoolManager σ) (variantId : String) (vm : ForkedVm σ) :
    ((eraseManager manager).release variantId (eraseVm vm)).2 =
      eraseManager (manager.release variantId vm).2 := by
  unfold PoolManager.release
  rw [show (eraseManager manager).pools variantId = (manager.pools variantId).map erasePool from rfl]
  cases manager.pools variantId with
  | none => rfl
  | some pool =>
    have released : (erasePool pool).release (eraseVm vm) = erasePool (pool.release vm) := by
      unfold ForkPool.release
      rw [show (erasePool pool).pool.length = pool.pool.length from List.length_map ..,
        show (erasePool pool).config = pool.config from rfl]
      split
      · rfl
      · simp [erasePool]
    simp only [Option.map_some, released, put_erased]

def eraseAcquisition (acquisition : Acquisition σ) : Acquisition Unit :=
  ⟨acquisition.variantId, acquisition.outcome.map eraseVm⟩

theorem acquireChunk_erased (manager : PoolManager σ) (host : Host) (chunk : List QueuedCode) :
    acquireChunk (eraseManager manager) host chunk =
      ((acquireChunk manager host chunk).1.map eraseAcquisition,
        eraseManager (acquireChunk manager host chunk).2.1,
        (acquireChunk manager host chunk).2.2) := by
  induction chunk generalizing manager host with
  | nil => rfl
  | cons item rest ih => simp only [acquireChunk, manager_acquire_erased, ih]; rfl

theorem releaseAll_erased (manager : PoolManager σ) (vms : List (String × ForkedVm σ)) :
    releaseAll (eraseManager manager) (vms.map fun (variantId, vm) => (variantId, eraseVm vm)) =
      eraseManager (releaseAll manager vms) := by
  induction vms generalizing manager with
  | nil => rfl
  | cons first rest ih =>
    simp only [releaseAll, List.map_cons, List.foldl_cons, manager_release_erased]
    exact ih _

theorem acquiredVms_erased (acquisitions : List (Acquisition σ)) :
    acquiredVms (acquisitions.map eraseAcquisition) =
      (acquiredVms acquisitions).map fun (variantId, vm) => (variantId, eraseVm vm) := by
  induction acquisitions with
  | nil => rfl
  | cons first rest ih =>
    obtain ⟨variantId, _ | vm⟩ := first
    · exact ih
    · exact congrArg (_ :: ·) ih

/-- Erased, a used VM is the VM that was acquired. -/
theorem usedVms_erased (run : RunCode σ) (acquired : List (String × ForkedVm σ))
    (chunk : List QueuedCode) (enough : acquired.length ≤ chunk.length) :
    (usedVms run acquired chunk).map (fun (variantId, vm) => (variantId, eraseVm vm)) =
      acquired.map fun (variantId, vm) => (variantId, eraseVm vm) := by
  induction acquired generalizing chunk with
  | nil => simp [usedVms]
  | cons first rest ih =>
    cases chunk with
    | nil => simp at enough
    | cons item chunk => exact congrArg (_ :: ·) (ih chunk (by simpa using enough))

end Erasure

/-! ## The pattern of acquisitions -/

/-- The acquisition returned a VM. -/
def succeeded (acquisition : Acquisition σ) : Bool := acquisition.outcome.toBool

/-- Which acquisitions of which chunk succeed, replayed on the pools alone:
a chunk acquires for all its items, then gives back what it got. -/
def acquisitionPattern : List (List QueuedCode) → PoolManager Unit → Host → List (List Bool)
  | [], _, _ => []
  | chunk :: rest, manager, host =>
    let (acquisitions, manager, host) := acquireChunk manager host chunk
    acquisitions.map succeeded ::
      acquisitionPattern rest (releaseAll manager (acquiredVms acquisitions)) host

/-- No acquisition succeeds behind one that failed. -/
def FailuresLast (flags : List Bool) : Prop := flags.Pairwise fun earlier later =>
  later = true → earlier = true

instance : DecidablePred FailuresLast := fun flags =>
  inferInstanceAs (Decidable (flags.Pairwise _))

/-! ## One chunk -/

section Chunk
variable {σ : Type u}

/-- The slot an item should end in: its own code on the VM acquired for it,
or the error of its own acquisition. -/
def ownSlot (item : QueuedCode) (acquisition : Acquisition σ) : Slot σ :=
  match acquisition.outcome with
  | .ok vm => .ran item.code acquisition.variantId vm
  | .error error => .acquireFailed acquisition.variantId error

def ownSlots (items : List QueuedCode) (acquisitions : List (Acquisition σ)) :
    List (Option (Slot σ)) :=
  List.zipWith (fun item acquisition => some (ownSlot item acquisition)) items acquisitions

/-- A chunk makes one acquisition per item, from the pool of its variant. -/
theorem acquireChunk_variants (manager : PoolManager σ) (host : Host) (chunk : List QueuedCode) :
    (acquireChunk manager host chunk).1.map Acquisition.variantId = chunk.map QueuedCode.variantId := by
  induction chunk generalizing manager host with
  | nil => rfl
  | cons item rest ih => simp only [acquireChunk, List.map_cons, ih]

theorem length_acquireChunk (manager : PoolManager σ) (host : Host) (chunk : List QueuedCode) :
    (acquireChunk manager host chunk).1.length = chunk.length := by
  simpa using congrArg List.length (acquireChunk_variants manager host chunk)

@[simp] theorem length_failureSlots (acquisitions : List (Acquisition σ)) :
    (failureSlots acquisitions).length = acquisitions.length := List.length_map ..

theorem length_acquiredVms_le (acquisitions : List (Acquisition σ)) :
    (acquiredVms acquisitions).length ≤ acquisitions.length := List.length_filterMap_le ..

theorem acquiredVms_eq_nil_iff (acquisitions : List (Acquisition σ)) :
    acquiredVms acquisitions = [] ↔ ∀ flag ∈ acquisitions.map succeeded, flag = false := by
  induction acquisitions with
  | nil => simp [acquiredVms]
  | cons first rest ih =>
    obtain ⟨variantId, _ | vm⟩ := first
    · simpa [acquiredVms, succeeded, Except.toBool] using ih
    · simp [acquiredVms, succeeded, Except.toBool]

/-- Where nothing was acquired, the failures are all there is to record. -/
private theorem failureSlots_own (items : List QueuedCode) (acquisitions : List (Acquisition σ))
    (paired : items.length = acquisitions.length) (none : acquiredVms acquisitions = []) :
    failureSlots acquisitions = ownSlots items acquisitions := by
  induction acquisitions generalizing items with
  | nil => simp [failureSlots, ownSlots]
  | cons first rest ih =>
    cases items with
    | nil => simp at paired
    | cons item items =>
      obtain ⟨variantId, error | vm⟩ := first
      · exact congrArg (_ :: ·) (ih items (by simpa using paired) none)
      · simp [acquiredVms] at none

/-- The slots of one chunk are its items' own ones exactly when the failures
come last: the first failure in front of a success is overwritten. -/
theorem chunk_slots_own_iff (items : List QueuedCode) (acquisitions : List (Acquisition σ))
    (paired : items.length = acquisitions.length) :
    overlay (runSlots (acquiredVms acquisitions) items) (failureSlots acquisitions) =
        ownSlots items acquisitions ↔
      FailuresLast (acquisitions.map succeeded) := by
  induction acquisitions generalizing items with
  | nil => simp [acquiredVms, runSlots, overlay, failureSlots, ownSlots, FailuresLast]
  | cons first rest ih =>
    cases items with
    | nil => simp at paired
    | cons item items =>
      have tail := ih items (by simpa using paired)
      obtain ⟨variantId, error | vm⟩ := first
      · have flags : FailuresLast (((⟨variantId, .error error⟩ : Acquisition σ) :: rest).map succeeded) ↔
            acquiredVms rest = [] := by
          rw [acquiredVms_eq_nil_iff]
          simp only [FailuresLast, List.map_cons, List.pairwise_cons]
          constructor
          · rintro ⟨behind, -⟩ flag member
            simpa [succeeded, Except.toBool] using behind flag member
          · intro none
            refine ⟨fun flag member succeeds => by simp [none flag member] at succeeds, ?_⟩
            exact List.pairwise_of_forall_mem_list fun _ _ flag member succeeds => by
              simp [none flag member] at succeeds
        refine Iff.trans ?_ flags.symm
        cases vms : acquiredVms rest with
        | nil =>
          have own := failureSlots_own (item :: items) (⟨variantId, .error error⟩ :: rest) paired
            (by simpa [acquiredVms] using vms)
          have all : acquiredVms (⟨variantId, .error error⟩ :: rest) = [] := vms
          simpa [all, runSlots, overlay] using own
        | cons vm vms' =>
          have all : acquiredVms (⟨variantId, .error error⟩ :: rest) = vm :: vms' := vms
          simp [all, runSlots, overlay, failureSlots, ownSlots, ownSlot]
      · have flags : FailuresLast (((⟨variantId, .ok vm⟩ : Acquisition σ) :: rest).map succeeded) ↔
            FailuresLast (rest.map succeeded) := by
          simp [FailuresLast, succeeded, Except.toBool]
        refine Iff.trans ?_ (tail.trans flags.symm)
        have all : acquiredVms (⟨variantId, .ok vm⟩ :: rest) = (variantId, vm) :: acquiredVms rest :=
          rfl
        simp [all, runSlots, overlay, failureSlots, ownSlots, ownSlot]

end Chunk

/-! ## All chunks -/

section Queue
variable {σ : Type u} (run : RunCode σ)

/-- What one pass does to a vector whose next slots are still empty. -/
theorem realizeChunk_next (done : List (Option (Slot σ))) (unfilled : Nat)
    (acquisitions : List (Acquisition σ)) (manager : PoolManager σ) (host : Host)
    (chunk : List QueuedCode) :
    let acquired := acquireChunk manager host chunk
    realizeChunk run
        ⟨done ++ List.replicate (chunk.length + unfilled) none, acquisitions, manager, host⟩
        (done.length, chunk) =
      ⟨done ++ overlay (runSlots (acquiredVms acquired.1) chunk) (failureSlots acquired.1) ++
          List.replicate unfilled none,
        acquisitions ++ acquired.1,
        releaseAll acquired.2.1 (usedVms run (acquiredVms acquired.1) chunk),
        acquired.2.2⟩ := by
  intro acquired
  have count : acquired.1.length = chunk.length := length_acquireChunk manager host chunk
  have fits : (runSlots (acquiredVms acquired.1) chunk).length ≤
      (failureSlots acquired.1).length := by
    have := length_acquiredVms_le acquired.1
    simp [runSlots, count]
  have failures : overwrite (done ++ List.replicate (chunk.length + unfilled) none) done.length
      (failureSlots acquired.1) =
        done ++ failureSlots acquired.1 ++ List.replicate unfilled none := by
    rw [← List.replicate_append_replicate, ← List.append_assoc, overwrite_append _ _ _ _ (by
      simp [count]), ← count, ← length_failureSlots acquired.1, overlay_replicate_none]
  simp only [realizeChunk, failures, overwrite_append _ _ _ _ fits, acquired]

/-- Erased, the pools after a chunk are those of the pattern's replay. -/
theorem releaseAll_used_erased (manager : PoolManager σ) (host : Host) (chunk : List QueuedCode) :
    let acquired := acquireChunk manager host chunk
    let replayed := acquireChunk (eraseManager manager) host chunk
    eraseManager (releaseAll acquired.2.1 (usedVms run (acquiredVms acquired.1) chunk)) =
      releaseAll replayed.2.1 (acquiredVms replayed.1) := by
  intro acquired replayed
  have enough : (acquiredVms acquired.1).length ≤ chunk.length :=
    Nat.le_trans (length_acquiredVms_le _) (Nat.le_of_eq (length_acquireChunk ..))
  rw [← releaseAll_erased, usedVms_erased run _ _ enough, ← acquiredVms_erased]
  simp only [replayed, acquired, acquireChunk_erased]

private theorem succeeded_erased (acquisitions : List (Acquisition σ)) :
    (acquisitions.map eraseAcquisition).map succeeded = acquisitions.map succeeded := by
  simp only [List.map_map]
  refine List.map_congr_left fun acquisition _ => ?_
  obtain ⟨variantId, _ | vm⟩ := acquisition <;> rfl

/-- The chunk loop from any point on: it appends one slot per item that is
left, and these are the items' own ones exactly when in every chunk the
failures come last. -/
theorem realizeChunks_own_iff (size : Nat) (positive : 0 < size) (fuel : Nat)
    (items : List QueuedCode) (enough : items.length ≤ fuel)
    (done : List (Option (Slot σ))) (before : List (Acquisition σ)) (manager : PoolManager σ)
    (host : Host) :
    ∃ slots acquisitions after final,
      (batchesFrom size fuel done.length items).foldl (realizeChunk run)
          ⟨done ++ List.replicate items.length none, before, manager, host⟩ =
        ⟨done ++ slots, before ++ acquisitions, after, final⟩ ∧
      slots.length = items.length ∧
      acquisitions.map Acquisition.variantId = items.map QueuedCode.variantId ∧
      (slots = ownSlots items acquisitions ↔
        ∀ flags ∈ acquisitionPattern ((batchesFrom size fuel done.length items).map Prod.snd)
          (eraseManager manager) host, FailuresLast flags) := by
  induction fuel generalizing items done before manager host with
  | zero =>
    obtain rfl : items = [] := List.length_eq_zero_iff.mp (by omega)
    exact ⟨[], [], manager, host, by simp, rfl, rfl, by simp [ownSlots, acquisitionPattern]⟩
  | succ fuel ih =>
    cases items with
    | nil => exact ⟨[], [], manager, host, by simp, rfl, rfl, by simp [ownSlots, acquisitionPattern]⟩
    | cons first others =>
      generalize same : first :: others = items at *
      have shorter : (items.drop size).length ≤ fuel := by
        rw [List.length_drop]; omega
      generalize cut : items.take size = chunk
      generalize left : items.drop size = rest at shorter
      have split : chunk ++ rest = items := by rw [← cut, ← left, List.take_append_drop]
      have count : items.length = chunk.length + rest.length := by
        rw [← split, List.length_append]
      let acquired := acquireChunk manager host chunk
      let slots := overlay (runSlots (acquiredVms acquired.1) chunk) (failureSlots acquired.1)
      have paired : chunk.length = acquired.1.length := (length_acquireChunk ..).symm
      have width : slots.length = chunk.length := by simp [slots, paired]
      have step := realizeChunk_next run done rest.length before manager host chunk
      obtain ⟨later, acquisitions, after, final, fold, long, variants, own⟩ :=
        ih rest shorter (done ++ slots) (before ++ acquired.1) _ acquired.2.2
      have base : done.length + size = (done ++ slots).length ∨ rest = [] := by
        by_cases whole : size ≤ items.length
        · left
          rw [List.length_append, width, ← cut, List.length_take, Nat.min_eq_left whole]
        · exact .inr (by rw [← left]; exact List.drop_eq_nil_of_le (by omega))
      have next : batchesFrom size fuel (done.length + size) rest =
          batchesFrom size fuel (done ++ slots).length rest := by
        rcases base with same | empty
        · rw [same]
        · rw [empty, batchesFrom_nil, batchesFrom_nil]
      have unfolded : batchesFrom size (fuel + 1) done.length items =
          (done.length, chunk) :: batchesFrom size fuel (done ++ slots).length rest := by
        rw [← next, ← cut, ← left, ← same]; rfl
      refine ⟨slots ++ later, acquired.1 ++ acquisitions, after, final, ?_, ?_, ?_, ?_⟩
      · rw [unfolded, List.foldl_cons, count, step, fold]
        simp only [List.append_assoc]
      · rw [List.length_append, width, long, count]
      · rw [List.map_append, variants, acquireChunk_variants, ← List.map_append, split]
      · have front : slots = ownSlots chunk acquired.1 ↔
            FailuresLast (acquired.1.map succeeded) := chunk_slots_own_iff _ _ paired
        have cutOwn : ownSlots items (acquired.1 ++ acquisitions) =
            ownSlots chunk acquired.1 ++ ownSlots rest acquisitions := by
          rw [← split]; exact List.zipWith_append paired
        have ownWidth : slots.length = (ownSlots chunk acquired.1).length := by
          simp [ownSlots, width, paired]
        rw [cutOwn, unfolded, List.map_cons, acquisitionPattern, List.forall_mem_cons,
          acquireChunk_erased, succeeded_erased, ← front]
        rw [releaseAll_used_erased, acquireChunk_erased] at own
        exact ⟨fun both => (List.append_inj both ownWidth).imp_right own.mp,
          fun ⟨head, tail⟩ => by rw [head, own.mpr tail]⟩

/-- Every item gets its own outcome: acquisitions are made for the items in
queue order, and the returned vector holds, item by item, the run of the item's
code on the VM acquired for it, or the error of that acquisition. -/
def PairsOwnOutcomes (items : List QueuedCode) (returned : Option (Realized σ)) : Prop :=
  ∃ realized, returned = some realized ∧
    realized.acquisitions.map Acquisition.variantId = items.map QueuedCode.variantId ∧
    realized.slots = ownSlots items realized.acquisitions ∧
    realized.results run =
      List.zipWith (fun item acquisition => (ownSlot item acquisition).render run)
        items realized.acquisitions

/-- `chunks(size)` -/
def chunksOf (size : Nat) (items : List QueuedCode) : List (List QueuedCode) :=
  (batches size items).map Prod.snd

theorem results_of_own (items : List QueuedCode) (realized : Realized σ)
    (own : realized.slots = ownSlots items realized.acquisitions) :
    realized.results run =
      List.zipWith (fun item acquisition => (ownSlot item acquisition).render run)
        items realized.acquisitions := by
  simp only [Realized.results, own, ownSlots, List.map_zipWith]

/-- With a manager and a batch size, `realize` makes one acquisition and fills
one slot per item. -/
theorem realize_attached {mode : Overflow} {ram : String → UInt64} {lazy : LazyFork σ} {manager : PoolManager σ}
    {size : Nat} (queued : lazy.queue ≠ []) (attached : lazy.poolManager = some manager)
    (computed : effectiveBatchSize mode ram lazy.config lazy.queue = some size) (positive : 0 < size) (host : Host) :
    ∃ slots acquisitions after final,
      lazy.realize mode ram run host = some ⟨slots, acquisitions,
        { lazy with timerStart := none, queue := [], poolManager := some after }, final⟩ ∧
      slots.length = lazy.queue.length ∧
      acquisitions.map Acquisition.variantId = lazy.queue.map QueuedCode.variantId ∧
      (slots = ownSlots lazy.queue acquisitions ↔
        ∀ flags ∈ acquisitionPattern (chunksOf size lazy.queue) (eraseManager manager) host, FailuresLast flags) := by
  obtain ⟨slots, acquisitions, after, final, fold, filled, variants, own⟩ :=
    realizeChunks_own_iff run size positive lazy.queue.length lazy.queue (Nat.le_refl _) [] [] manager host
  have unrolled : (batches size lazy.queue).foldl (realizeChunk run)
      ⟨List.replicate lazy.queue.length none, [], manager, host⟩ = ⟨slots, acquisitions, after, final⟩ := fold
  have busy : lazy.queue.isEmpty = false := List.isEmpty_eq_false_iff.mpr queued
  refine ⟨slots, acquisitions, after, final, ?_, filled, variants, own⟩
  simp only [LazyFork.realize, busy, Bool.false_eq_true, if_false, computed, attached,
    Nat.ne_of_gt positive, unrolled]

/-- Without a batch size, or with the size zero, a queue that is not empty is
drained in a panic. -/
theorem realize_panics {mode : Overflow} {ram : String → UInt64} {lazy : LazyFork σ} (queued : lazy.queue ≠ [])
    (panics : effectiveBatchSize mode ram lazy.config lazy.queue = none ∨
      effectiveBatchSize mode ram lazy.config lazy.queue = some 0 ∧ lazy.poolManager ≠ none) (host : Host) :
    lazy.realize mode ram run host = none := by
  have busy : lazy.queue.isEmpty = false := List.isEmpty_eq_false_iff.mpr queued
  rcases panics with overflow | ⟨zero, attached⟩
  · simp [LazyFork.realize, busy, overflow]
  · obtain ⟨manager, attached⟩ := Option.ne_none_iff_exists'.mp attached
    simp [LazyFork.realize, busy, zero, attached]

/-- Without a manager the queue is drained all the same. -/
theorem realize_detached {mode : Overflow} {ram : String → UInt64} {lazy : LazyFork σ} {size : Nat}
    (detached : lazy.poolManager = none)
    (computed : effectiveBatchSize mode ram lazy.config lazy.queue = some size) (host : Host) :
    lazy.realize mode ram run host = some ⟨[], [], { lazy with timerStart := none, queue := [] }, host⟩ := by
  unfold LazyFork.realize
  dsimp only
  split
  · rfl
  · rw [computed, detached]

/-- `realize` pairs every item with its own outcome exactly when there is
nothing to do, or a pool manager is attached, the batch size is computed and
positive, and in no chunk an acquisition succeeds behind a failed one. -/
theorem realize_pairs_own_outcomes_iff (mode : Overflow) (ram : String → UInt64)
    (lazy : LazyFork σ) (host : Host) :
    PairsOwnOutcomes run lazy.queue (lazy.realize mode ram run host) ↔
      lazy.queue = [] ∨ ∃ manager size, lazy.poolManager = some manager ∧
        effectiveBatchSize mode ram lazy.config lazy.queue = some size ∧ 0 < size ∧
        ∀ flags ∈ acquisitionPattern (chunksOf size lazy.queue) (eraseManager manager) host,
          FailuresLast flags := by
  by_cases queued : lazy.queue = []
  · refine iff_of_true ?_ (.inl queued)
    simp [LazyFork.realize, queued, PairsOwnOutcomes, ownSlots, Realized.results]
  · simp only [queued, false_or]
    cases computed : effectiveBatchSize mode ram lazy.config lazy.queue with
    | none => simp [PairsOwnOutcomes, realize_panics run queued (.inl computed)]
    | some size =>
      cases attached : lazy.poolManager with
      | none =>
        rw [realize_detached run attached computed]
        refine iff_of_false ?_ (by simp)
        rintro ⟨_, same, variants, -⟩
        cases same
        exact queued (List.map_eq_nil_iff.mp variants.symm)
      | some manager =>
        rcases Nat.eq_zero_or_pos size with rfl | positive
        · simp [PairsOwnOutcomes, realize_panics run queued (.inr ⟨computed, by simp [attached]⟩)]
        · obtain ⟨slots, acquisitions, after, final, realized, -, variants, own⟩ :=
            realize_attached run queued attached computed positive host
          rw [realized]
          constructor
          · rintro ⟨_, same, -, paired, -⟩
            cases same
            exact ⟨manager, size, rfl, rfl, positive, own.mp paired⟩
          · rintro ⟨_, _, sameManager, sameSize, -, last⟩
            cases sameManager
            cases sameSize
            exact ⟨_, rfl, variants, own.mpr last, results_of_own run lazy.queue _ (own.mpr last)⟩

end Queue

/-- A VM that answers with the code it was given. -/
private def echo : RunCode Unit := fun _ code => (some (.ok code), ())

private def reachable : Host := ⟨0, fun _ => none⟩

/-- Two queued items, of which the first names a variant without a pool. -/
private def halfRegistered : LazyFork Unit where
  queue := [⟨"first", "unknown"⟩, ⟨"second", "python"⟩]
  poolManager := some ⟨fun variantId =>
    if variantId = "python" then some ⟨⟨()⟩, [], ⟨0, 4, 30, none⟩⟩ else none⟩
  config := ⟨8, false⟩
  timerStart := some 0

/-- The second item's VM runs the first item's code over the first item's
error, and the second item is left without a result. -/
theorem failed_acquisition_shifts_code :
    (halfRegistered.realize .wrapping (fun _ => 0) echo reachable).map (Realized.results echo) =
        some [.ok "first", .error "internal: uninitialized result slot"] ∧
      ¬ PairsOwnOutcomes echo halfRegistered.queue
        (halfRegistered.realize .wrapping (fun _ => 0) echo reachable) := by
  constructor
  · rfl
  · rintro ⟨_, same, -, -, rendered⟩
    cases same
    nomatch rendered

end TinyMachine.LazyPairing
