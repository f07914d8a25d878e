import TinyMachine.LazyPairing
import TinyMachine.Lib.Ledger
import TinyMachine.Lib.Runs

/-! What becomes of the code that is pushed into a lazy batch scheduler. Every
item is to wait in the queue, to have been discarded by `clear`, or to have had
its own outcome returned. -/
namespace TinyMachine
open Lib LazyPairing

/-! ## Filling and emptying the queue -/

namespace LazyFork
variable {σ : Type u}

def new (config : LazyConfig) : LazyFork σ := ⟨[], none, config, none⟩

def setPoolManager (lazy : LazyFork σ) (manager : PoolManager σ) : LazyFork σ :=
  { lazy with poolManager := some manager }

def clear (lazy : LazyFork σ) : LazyFork σ := { lazy with queue := [], timerStart := none }

/-- The first item starts the timer. -/
def enqueue (lazy : LazyFork σ) (item : QueuedCode) (now : Nat) : LazyFork σ :=
  { lazy with queue := lazy.queue ++ [item], timerStart := some (lazy.timerStart.getD now) }

/-- A queue that is full is realized, and what that returns is dropped; `none`
is its panic. -/
def push (mode : Overflow) (ram : String → UInt64) (run : RunCode σ) (lazy : LazyFork σ) (code variantId : String)
    (now : Nat) (host : Host) : Option (LazyFork σ) :=
  let lazy := lazy.enqueue ⟨code, variantId⟩ now
  if lazy.config.maxBatch.toNat ≤ lazy.queue.length then (lazy.realize mode ram run host).map Realized.lazy
  else some lazy

/-- `realize` empties the queue before it can panic. -/
def afterPanic (lazy : LazyFork σ) : LazyFork σ := { lazy with timerStart := none, queue := [] }

end LazyFork

namespace LazyConservation
variable {σ : Type u}

/-! ## Runs -/

/-- What became of an item that left the queue. -/
inductive Fate (σ : Type u) where
  | discarded (item : QueuedCode)
  /-- It has a slot in what `realize` returned, next to its acquisition. -/
  | returned (item : QueuedCode) (acquisition : Acquisition σ) (slot : Option (Slot σ))

def Fate.item : Fate σ → QueuedCode
  | .discarded item => item
  | .returned item _ _ => item

/-- The slot is the item's own. -/
def Fate.Own : Fate σ → Prop
  | .discarded _ => True
  | .returned item acquisition slot =>
    acquisition.variantId = item.variantId ∧ slot = some (ownSlot item acquisition)

/-- One slot per item, as far as slots were returned. -/
def fates (items : List QueuedCode) (acquisitions : List (Acquisition σ)) (slots : List (Option (Slot σ))) :
    List (Fate σ) :=
  List.zipWith3 Fate.returned items acquisitions slots

structure LazyRun (σ : Type u) where
  lazy : LazyFork σ
  pushed : List QueuedCode
  fates : List (Fate σ)

inductive LazyCall (σ : Type u) where
  | push (code variantId : String) (now : Nat) (host : Host)
  | realize (host : Host)
  | setPoolManager (manager : PoolManager σ)
  | clear

section Steps
variable (mode : Overflow) (ram : String → UInt64) (run : RunCode σ)

def LazyRun.after (state : LazyRun σ) : LazyCall σ → LazyRun σ
  | .push code variantId now host =>
    { lazy := (state.lazy.push mode ram run code variantId now host).getD
        (state.lazy.enqueue ⟨code, variantId⟩ now).afterPanic
      pushed := state.pushed ++ [⟨code, variantId⟩]
      fates := state.fates }
  | .realize host =>
    match state.lazy.realize mode ram run host with
    | some realized =>
      { state with
        lazy := realized.lazy
        fates := state.fates ++ LazyConservation.fates state.lazy.queue realized.acquisitions realized.slots }
    | none => { state with lazy := state.lazy.afterPanic }
  | .setPoolManager manager => { state with lazy := state.lazy.setPoolManager manager }
  | .clear =>
    { state with lazy := state.lazy.clear, fates := state.fates ++ state.lazy.queue.map .discarded }

def system (config : LazyConfig) : System (LazyRun σ) (LazyCall σ) where
  start := fun state => state = ⟨.new config, [], []⟩
  step := fun state call next => next = state.after mode ram run call

/-- No item is lost, none is doubled, and what was returned for one is its own
outcome. -/
structure LazyRun.Conserved (state : LazyRun σ) : Prop where
  waits : Ledger.Waits ⟨state.pushed, state.fates.map Fate.item⟩ state.lazy.queue
  own : ∀ fate ∈ state.fates, fate.Own

/-- Nothing is pushed that fills the queue, and nothing is realized without a
manager, without a batch size or where an acquisition succeeds behind a failed
one. -/
def LazyRun.Keeps (state : LazyRun σ) : LazyCall σ → Prop
  | .push _ _ _ _ => state.lazy.queue.length + 1 < state.lazy.config.maxBatch.toNat
  | .realize host => state.lazy.queue = [] ∨ ∃ manager size, state.lazy.poolManager = some manager ∧
      effectiveBatchSize mode ram state.lazy.config state.lazy.queue = some size ∧ 0 < size ∧
      ∀ flags ∈ acquisitionPattern (chunksOf size state.lazy.queue) (eraseManager manager) host, FailuresLast flags
  | .setPoolManager _ => True
  | .clear => True

end Steps

/-! ## The slots of one call -/

theorem items_fates {items : List QueuedCode} {acquisitions : List (Acquisition σ)} {slots : List (Option (Slot σ))}
    (paired : acquisitions.length = items.length) (filled : slots.length = items.length) :
    (fates items acquisitions slots).map Fate.item = items := by
  induction items generalizing acquisitions slots with
  | nil => rfl
  | cons item items ih =>
    match acquisitions, slots, paired, filled with
    | acquisition :: acquisitions, slot :: slots, paired, filled =>
      have rest := ih (Nat.succ.inj paired) (Nat.succ.inj filled)
      exact congrArg (item :: ·) rest

theorem own_fates_iff {items : List QueuedCode} {acquisitions : List (Acquisition σ)} {slots : List (Option (Slot σ))}
    (variants : acquisitions.map Acquisition.variantId = items.map QueuedCode.variantId)
    (filled : slots.length = items.length) :
    (∀ fate ∈ fates items acquisitions slots, fate.Own) ↔ slots = ownSlots items acquisitions := by
  induction items generalizing acquisitions slots with
  | nil =>
    have none : slots = [] := List.length_eq_zero_iff.mp filled
    have nothing : fates ([] : List QueuedCode) acquisitions slots = [] := rfl
    rw [nothing, none]
    simp [ownSlots]
  | cons item items ih =>
    cases acquisitions with
    | nil => exact absurd variants.symm (List.cons_ne_nil _ _)
    | cons acquisition acquisitions =>
      obtain ⟨slot, slots, rfl⟩ := List.exists_cons_of_length_eq_add_one filled
      obtain ⟨first, others⟩ := List.cons.inj variants
      have rest := ih others (Nat.succ.inj filled)
      have step : fates (item :: items) (acquisition :: acquisitions) (slot :: slots) =
          .returned item acquisition slot :: fates items acquisitions slots := rfl
      have next : ownSlots (item :: items) (acquisition :: acquisitions) =
          some (ownSlot item acquisition) :: ownSlots items acquisitions := rfl
      rw [step, next, List.forall_mem_cons, rest, List.cons.injEq, Fate.Own]
      simp only [first, true_and]

/-! ## One call -/

section Calls
variable {mode : Overflow} {ram : String → UInt64} {run : RunCode σ} {state : LazyRun σ}

theorem queue_realize {lazy : LazyFork σ} {host : Host} {realized : Realized σ}
    (returns : lazy.realize mode ram run host = some realized) : realized.lazy.queue = [] := by
  unfold LazyFork.realize at returns
  dsimp only at returns
  split at returns
  · cases returns
    rfl
  · split at returns
    · cases returns
    · cases returns
      rfl
    · split at returns
      · cases returns
      · cases returns
        rfl

/-- A push that does not fill the queue only adds the item to it. -/
theorem queue_after_push {code variantId : String} {now : Nat} {host : Host} :
    (state.after mode ram run (.push code variantId now host)).lazy.queue =
      if state.lazy.queue.length + 1 < state.lazy.config.maxBatch.toNat then
        state.lazy.queue ++ [⟨code, variantId⟩] else [] := by
  have length : (state.lazy.enqueue ⟨code, variantId⟩ now).queue.length = state.lazy.queue.length + 1 :=
    List.length_append
  have settings : (state.lazy.enqueue ⟨code, variantId⟩ now).config = state.lazy.config := rfl
  rw [LazyRun.after, LazyFork.push]
  dsimp only
  rw [length, settings]
  by_cases room : state.lazy.queue.length + 1 < state.lazy.config.maxBatch.toNat
  · rw [if_pos room, if_neg (Nat.not_le.mpr room)]
    rfl
  · rw [if_neg room, if_pos (Nat.not_lt.mp room)]
    cases returns : (state.lazy.enqueue ⟨code, variantId⟩ now).realize mode ram run host with
    | none => rfl
    | some realized => exact queue_realize returns

theorem conserved_push_iff {code variantId : String} {now : Nat} {host : Host} (conserved : state.Conserved) :
    (state.after mode ram run (.push code variantId now host)).Conserved ↔
      state.lazy.queue.length + 1 < state.lazy.config.maxBatch.toNat := by
  have waits : state.pushed = state.fates.map Fate.item ++ state.lazy.queue := conserved.waits
  have queue : (state.after mode ram run (.push code variantId now host)).lazy.queue =
      if state.lazy.queue.length + 1 < state.lazy.config.maxBatch.toNat then
        state.lazy.queue ++ [⟨code, variantId⟩] else [] := queue_after_push
  constructor
  · intro after
    by_contra full
    have lost : state.pushed ++ [⟨code, variantId⟩] = state.fates.map Fate.item ++
        (state.after mode ram run (.push code variantId now host)).lazy.queue := after.waits
    rw [queue, if_neg full] at lost
    have lengths := congrArg List.length lost
    rw [waits] at lengths
    simp only [List.length_append, List.length_singleton, List.length_nil] at lengths
    omega
  · intro room
    rw [if_pos room] at queue
    refine ⟨?_, conserved.own⟩
    have more : state.pushed ++ [⟨code, variantId⟩] =
        state.fates.map Fate.item ++ (state.lazy.queue ++ [⟨code, variantId⟩]) := by
      rw [waits, List.append_assoc]
    rw [← queue] at more
    exact more

/-- What is drained without being returned is lost. -/
theorem empty_of_unreturned {next : LazyRun σ} (conserved : state.Conserved) (after : next.Conserved)
    (pushed : next.pushed = state.pushed) (fates : next.fates = state.fates) (drained : next.lazy.queue = []) :
    state.lazy.queue = [] := by
  have waits : state.pushed = state.fates.map Fate.item ++ state.lazy.queue := conserved.waits
  have now : next.pushed = next.fates.map Fate.item ++ next.lazy.queue := after.waits
  rw [pushed, fates, drained, waits] at now
  exact List.append_cancel_left now

theorem conserved_realize_iff {host : Host} (conserved : state.Conserved) :
    (state.after mode ram run (.realize host)).Conserved ↔ state.Keeps mode ram (.realize host) := by
  have waits : state.pushed = state.fates.map Fate.item ++ state.lazy.queue := conserved.waits
  by_cases queued : state.lazy.queue = []
  · refine iff_of_true ?_ (.inl queued)
    have nothing : state.lazy.realize mode ram run host =
        some ⟨[], [], { state.lazy with timerStart := none, queue := [] }, host⟩ := by
      simp [LazyFork.realize, queued]
    have unchanged : LazyConservation.fates state.lazy.queue ([] : List (Acquisition σ)) [] = [] := by
      rw [queued]
      rfl
    rw [LazyRun.after, nothing]
    dsimp only
    rw [unchanged, List.append_nil]
    rw [queued] at waits
    exact ⟨waits, conserved.own⟩
  · unfold LazyRun.Keeps
    simp only [queued, false_or]
    cases computed : effectiveBatchSize mode ram state.lazy.config state.lazy.queue with
    | none =>
      refine iff_of_false (fun after => queued ?_) (by simp)
      rw [LazyRun.after, realize_panics run queued (.inl computed)] at after
      exact empty_of_unreturned conserved after rfl rfl rfl
    | some size =>
      cases attached : state.lazy.poolManager with
      | none =>
        refine iff_of_false (fun after => queued ?_) (by simp)
        rw [LazyRun.after, realize_detached run attached computed] at after
        apply empty_of_unreturned conserved after rfl
        · exact (congrArg (state.fates ++ ·) (by cases state.lazy.queue <;> rfl)).trans (List.append_nil _)
        · rfl
      | some manager =>
        rcases Nat.eq_zero_or_pos size with rfl | positive
        · refine iff_of_false (fun after => queued ?_) (by simp)
          have panics := realize_panics run queued (.inr ⟨computed, by simp [attached]⟩) host
          rw [LazyRun.after, panics] at after
          exact empty_of_unreturned conserved after rfl rfl rfl
        · obtain ⟨slots, acquisitions, manager', final, returns, filled, variants, own⟩ :=
            realize_attached run queued attached computed positive host
          have paired : acquisitions.length = state.lazy.queue.length := by
            simpa using congrArg List.length variants
          have items := items_fates paired filled
          have owned := own_fates_iff variants filled
          rw [LazyRun.after, returns]
          constructor
          · intro after
            refine ⟨manager, size, rfl, rfl, positive, own.mp (owned.mp ?_)⟩
            intro fate member
            exact after.own fate (List.mem_append_right _ member)
          · rintro ⟨_, _, sameManager, sameSize, -, last⟩
            cases sameManager
            cases sameSize
            refine ⟨?_, ?_⟩
            · rw [Ledger.Waits]
              dsimp only
              rw [List.map_append, items, List.append_nil, waits]
            · intro fate member
              rcases List.mem_append.mp member with old | new
              · exact conserved.own fate old
              · exact owned.mpr (own.mpr last) fate new

theorem conserved_clear (conserved : state.Conserved) : (state.after mode ram run .clear).Conserved := by
  have waits : state.pushed = state.fates.map Fate.item ++ state.lazy.queue := conserved.waits
  refine ⟨?_, ?_⟩
  · have items : (state.lazy.queue.map (Fate.discarded (σ := σ))).map Fate.item = state.lazy.queue := by
      rw [List.map_map]
      exact List.map_id _
    rw [Ledger.Waits, LazyRun.after, LazyFork.clear]
    dsimp only
    rw [List.map_append, items, List.append_nil, waits]
  · intro fate member
    rcases List.mem_append.mp member with old | new
    · exact conserved.own fate old
    · obtain ⟨item, -, rfl⟩ := List.mem_map.mp new
      trivial

/-- The condition on a call is exact. -/
theorem conserved_after_iff {call : LazyCall σ} (conserved : state.Conserved) :
    (state.after mode ram run call).Conserved ↔ state.Keeps mode ram call := by
  cases call with
  | push code variantId now host => exact conserved_push_iff conserved
  | realize host => exact conserved_realize_iff conserved
  | setPoolManager manager => exact iff_of_true ⟨conserved.waits, conserved.own⟩ trivial
  | clear => exact iff_of_true (conserved_clear conserved) trivial

end Calls

/-! ## All runs -/

/-- A run conserves its items up to the first call that does not meet the
condition, and that call loses some. -/
theorem conserved_iff (mode : Overflow) (ram : String → UInt64) (run : RunCode σ) (config : LazyConfig)
    (state : LazyRun σ) (reached : (system mode ram run config).Reached (LazyRun.Keeps mode ram) state) :
    state.Conserved ∧ ∀ call, (state.after mode ram run call).Conserved ↔ state.Keeps mode ram call := by
  have conserved : state.Conserved := by
    apply reached.invariant
    · rintro _ rfl
      exact ⟨rfl, fun fate member => by cases member⟩
    · rintro before call _ conserved keeps rfl
      exact (conserved_after_iff conserved).mpr keeps
  exact ⟨conserved, fun _ => conserved_after_iff conserved⟩

/-! ### Two pushes -/

def oneManager : PoolManager Unit := ⟨fun variantId =>
  if variantId = "python" then some ⟨⟨()⟩, [], ⟨0, 4, 30, none⟩⟩ else none⟩

def allForks : Host := ⟨0, fun _ => none⟩

def answering : RunCode Unit := fun _ code => (some (.ok code), ())

def afterCall : LazyRun Unit → LazyCall Unit → LazyRun Unit := LazyRun.after .wrapping (fun _ => 0) answering

theorem reached_afterCall {admitted : LazyRun Unit → LazyCall Unit → Prop} {config : LazyConfig} {state : LazyRun Unit}
    (reached : (system .wrapping (fun _ => 0) answering config).Reached admitted state) (call : LazyCall Unit)
    (admits : admitted state call) :
    (system .wrapping (fun _ => 0) answering config).Reached admitted (afterCall state call) :=
  .next reached admits rfl

/-- The manager is attached, then an item is pushed. -/
def pushedOnce (maxBatch : UInt64) : LazyRun Unit :=
  afterCall (afterCall ⟨.new ⟨maxBatch, false⟩, [], []⟩ (.setPoolManager oneManager))
    (.push "print(1)" "python" 0 allForks)

/-- With room for eight the item waits, and it may be realized. -/
theorem one_push_waits : (pushedOnce 8).Conserved ∧
    ∀ call, (afterCall (pushedOnce 8) call).Conserved ↔ (pushedOnce 8).Keeps .wrapping (fun _ => 0) call := by
  have room : (afterCall ⟨.new ⟨8, false⟩, [], []⟩ (.setPoolManager oneManager)).Keeps .wrapping (fun _ => 0)
      (.push "print(1)" "python" 0 allForks) := Nat.le_of_ble_eq_true rfl
  have attached : LazyRun.Keeps .wrapping (fun _ => 0) ⟨.new ⟨8, false⟩, [], []⟩ (.setPoolManager oneManager) := trivial
  have reached := reached_afterCall (.start rfl) _ attached
  exact conserved_iff .wrapping (fun _ => 0) answering ⟨8, false⟩ _ (reached_afterCall reached _ room)

/-- With room for two, the second push runs both items and nobody is given
their results. -/
theorem two_pushes_are_lost : ∃ state,
    (system .wrapping (fun _ => 0) answering ⟨2, false⟩).Reached (fun _ _ => True) state ∧
      state.pushed.length = 2 ∧ state.lazy.queue = [] ∧ state.fates = [] ∧ ¬ state.Conserved := by
  refine ⟨afterCall (pushedOnce 2) (.push "print(2)" "python" 0 allForks), ?_, rfl, rfl, rfl, ?_⟩
  · apply reached_afterCall _ _ trivial
    apply reached_afterCall _ _ trivial
    apply reached_afterCall _ _ trivial
    exact .start rfl
  · intro conserved
    have lengths := congrArg List.length conserved.waits
    cases lengths

end LazyConservation
end TinyMachine
