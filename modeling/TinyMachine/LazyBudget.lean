import Mathlib.Algebra.Order.BigOperators.Group.List
import TinyMachine.Lazy

/-! When the size of a batch is one that the items can be cut into, and when
what runs together stays within half of the free RAM. -/
namespace TinyMachine.LazyBudget
open Lib

/-- The RAM predicted for these items. -/
def estimate (ram : String → UInt64) (items : List QueuedCode) : Nat :=
  (items.map fun item => (ram item.code).toNat).sum

def budget : Nat := freeRam.toNat / 2

/-- The batch size is found without overflow and is at least one; with the
profiler every chunk has one item or stays within the budget; and nothing
panics. -/
structure WithinBudget (ram : String → UInt64) (lazy : LazyFork σ) (size : Nat) : Prop where
  found : ∀ mode, effectiveBatchSize mode ram lazy.config lazy.queue = some size
  positive : 1 ≤ size
  realizes : ∀ mode run host, (lazy.realize mode ram run host).isSome
  chunks : lazy.config.profilerEnabled → ∀ chunk ∈ batches size lazy.queue,
    chunk.2.length = 1 ∨ estimate ram chunk.2 ≤ budget

/-- The items between two multiples of a number: one at most, or few enough. -/
def Grouped (ram : String → UInt64) (items : List QueuedCode) (k : Nat) : Prop :=
  ∀ i, ((items.drop (i * k)).take k).length ≤ 1 ∨ estimate ram ((items.drop (i * k)).take k) ≤ budget

/-- With the profiler, the estimates can be added up, and either they are within
the budget together, or scaling does not overflow and the items that come to
stand together, as many as the scale allows, are within the budget. -/
def Fits (ram : String → UInt64) (config : LazyConfig) (items : List QueuedCode) : Prop :=
  if config.profilerEnabled then
    estimate ram items < 2 ^ 64 ∧
      if estimate ram items ≤ budget then 0 < config.maxBatch
      else config.maxBatch.toNat * budget < 2 ^ 64 ∧
        ∀ k, 2 ≤ k → k * estimate ram items ≤ config.maxBatch.toNat * budget →
          config.maxBatch.toNat * budget < (k + 1) * estimate ram items → Grouped ram items k
  else 0 < config.maxBatch

section Sizes
variable {σ : Type u} {ram : String → UInt64} {config : LazyConfig} {items : List QueuedCode} {mode : Overflow}
  {size : Nat} {lazy : LazyFork σ}

theorem totalRam_eq (fits : estimate ram items < 2 ^ 64) (mode : Overflow) :
    ∃ total, totalRam mode ram items = some total ∧ total.toNat = estimate ram items := by
  have start : (0 : UInt64).toNat + (items.map fun item => (ram item.code).toNat).sum < 2 ^ 64 := by simpa [estimate] using fits
  obtain ⟨total, summed, value⟩ := Overflow.foldlM_add64 mode start
  exact ⟨total, summed, by simpa [estimate] using value⟩

theorem fits_of_totalRam {total : UInt64} (summed : totalRam .checked ram items = some total) :
    estimate ram items < 2 ^ 64 := by
  have fits := Overflow.fits_of_foldlM_add64 summed
  simpa [estimate] using fits

theorem effectiveBatchSize_plain (off : config.profilerEnabled = false) :
    effectiveBatchSize mode ram config items = some config.maxBatch.toNat := by
  simp [effectiveBatchSize, off]

private theorem more_iff {total : UInt64} : total > freeRam / 2 ↔ budget < total.toNat := UInt64.lt_iff_toNat_lt

theorem effectiveBatchSize_small (on : config.profilerEnabled = true) (fits : estimate ram items < 2 ^ 64)
    (small : estimate ram items ≤ budget) :
    effectiveBatchSize mode ram config items = some config.maxBatch.toNat := by
  obtain ⟨total, summed, value⟩ := totalRam_eq fits mode
  have within : ¬ total > freeRam / 2 := by
    rw [more_iff, value]
    omega
  simp only [effectiveBatchSize, on, summed]
  by_cases none : total = 0 <;> simp [none, within]

theorem effectiveBatchSize_large (on : config.profilerEnabled = true) (fits : estimate ram items < 2 ^ 64)
    (large : budget < estimate ram items) (product : config.maxBatch.toNat * budget < 2 ^ 64) :
    effectiveBatchSize mode ram config items =
      some (max (config.maxBatch.toNat * budget / estimate ram items) 1) := by
  obtain ⟨total, summed, value⟩ := totalRam_eq fits mode
  have more : total > freeRam / 2 := more_iff.mpr (value ▸ large)
  have some : total ≠ 0 := fun none => by
    rw [none] at value
    exact absurd value (by rw [UInt64.toNat_zero]; omega)
  have scaled : mode.mul64 config.maxBatch (freeRam / 2) = .some (config.maxBatch * (freeRam / 2)) :=
    Overflow.fit_of_fits product
  have exact : (config.maxBatch * (freeRam / 2)).toNat = config.maxBatch.toNat * budget := by
    rw [UInt64.toNat_mul]
    exact Nat.mod_eq_of_lt product
  simp [effectiveBatchSize, on, summed, some, more, scaled, exact, value]

/-- Where overflow is checked, a size is found only without any. -/
theorem fits_of_effectiveBatchSize (on : config.profilerEnabled = true)
    (found : effectiveBatchSize .checked ram config items = some size) :
    estimate ram items < 2 ^ 64 ∧ (budget < estimate ram items → config.maxBatch.toNat * budget < 2 ^ 64) := by
  cases summed : totalRam .checked ram items with
  | none => simp [effectiveBatchSize, on, summed] at found
  | some total =>
    have fits := fits_of_totalRam summed
    refine ⟨fits, fun large => ?_⟩
    obtain ⟨same, again, value⟩ := totalRam_eq fits .checked
    cases summed.symm.trans again
    have more : total > freeRam / 2 := more_iff.mpr (value ▸ large)
    have some : total ≠ 0 := fun none => by
      rw [none] at value
      exact absurd value (by rw [UInt64.toNat_zero]; omega)
    by_contra overflow
    have refused : Overflow.checked.mul64 config.maxBatch (freeRam / 2) = none := by
      rw [Overflow.mul64, Overflow.fit, if_neg]
      rintro (fit | wrapping)
      · exact overflow fit
      · cases wrapping
    simp [effectiveBatchSize, on, summed, some, more, refused] at found

/-- A size of at least one is one to cut the queue by. -/
theorem realize_isSome (found : ∀ mode, effectiveBatchSize mode ram lazy.config lazy.queue = some size)
    (positive : 1 ≤ size) (mode : Overflow) (run : RunCode σ) (host : Host) :
    (lazy.realize mode ram run host).isSome := by
  unfold LazyFork.realize
  dsimp only
  rw [found mode]
  split
  · rfl
  · cases lazy.poolManager with
    | none => rfl
    | some manager =>
      dsimp only
      rw [if_neg (by omega)]
      rfl

/-- Pieces of a list that is within the budget are within it. -/
theorem estimate_piece (n k : Nat) : estimate ram ((items.drop n).take k) ≤ estimate ram items := by
  have piece : List.Sublist ((items.drop n).take k) items := (List.take_sublist k _).trans (List.drop_sublist n _)
  exact (piece.map _).sum_le_sum fun _ _ => Nat.zero_le _

/-- The chunks of a size of two or more are what stands between its multiples. -/
theorem chunks_iff (positive : 0 < size) :
    (∀ chunk ∈ batches size items, chunk.2.length = 1 ∨ estimate ram chunk.2 ≤ budget) ↔ Grouped ram items size := by
  simp only [mem_batches positive]
  constructor
  · intro chunks i
    by_cases inside : i * size < items.length
    · rcases chunks _ ⟨i, inside, rfl⟩ with single | small
      · exact .inl (Nat.le_of_eq single)
      · exact .inr small
    · have past : items.drop (i * size) = [] := List.drop_eq_nil_iff.mpr (Nat.le_of_not_lt inside)
      exact .inl (by simp [past])
  · rintro grouped _ ⟨i, inside, rfl⟩
    refine (grouped i).imp_left fun few => Nat.le_antisymm few ?_
    simp only [List.length_take, List.length_drop]
    omega

theorem grouped_one : Grouped ram items 1 := fun _ => .inl (List.length_take_le 1 _)

end Sizes

section Queues
variable {σ : Type u} {ram : String → UInt64} {lazy : LazyFork σ} {size : Nat}

theorem withinBudget_of_found (found : ∀ mode, effectiveBatchSize mode ram lazy.config lazy.queue = some size)
    (positive : 1 ≤ size) (grouped : lazy.config.profilerEnabled → Grouped ram lazy.queue size) :
    WithinBudget ram lazy size where
  found := found
  positive := positive
  realizes := realize_isSome found positive
  chunks := fun on => (chunks_iff positive).mpr (grouped on)

theorem fits_of_withinBudget (within : WithinBudget ram lazy size) : Fits ram lazy.config lazy.queue := by
  have positive := within.positive
  have found := within.found .checked
  have counted : 0 < lazy.config.maxBatch.toNat → 0 < lazy.config.maxBatch := fun more =>
    UInt64.lt_iff_toNat_lt.mpr more
  by_cases on : lazy.config.profilerEnabled = true
  · obtain ⟨fits, product⟩ := fits_of_effectiveBatchSize on found
    rw [Fits, if_pos on]
    refine ⟨fits, ?_⟩
    by_cases small : estimate ram lazy.queue ≤ budget
    · rw [effectiveBatchSize_small on fits small] at found
      rw [if_pos small]
      exact counted (Option.some.inj found ▸ positive)
    · have large : budget < estimate ram lazy.queue := Nat.lt_of_not_le small
      rw [effectiveBatchSize_large on fits large (product large)] at found
      rw [if_neg small]
      refine ⟨product large, fun k two low high => ?_⟩
      have scale : lazy.config.maxBatch.toNat * budget / estimate ram lazy.queue = k := Nat.div_eq_of_lt_le low high
      have same : k = size := by
        rw [scale] at found
        have chosen := Option.some.inj found
        omega
      exact same ▸ (chunks_iff positive).mp (within.chunks on)
  · rw [effectiveBatchSize_plain (by simpa using on)] at found
    rw [Fits, if_neg on]
    exact counted (Option.some.inj found ▸ positive)

theorem withinBudget_of_fits (fits : Fits ram lazy.config lazy.queue) : ∃ size, WithinBudget ram lazy size := by
  have counted : 0 < lazy.config.maxBatch → 1 ≤ lazy.config.maxBatch.toNat := UInt64.lt_iff_toNat_lt.mp
  by_cases on : lazy.config.profilerEnabled = true
  · rw [Fits, if_pos on] at fits
    obtain ⟨added, rest⟩ := fits
    by_cases small : estimate ram lazy.queue ≤ budget
    · rw [if_pos small] at rest
      exact ⟨_, withinBudget_of_found (fun mode => effectiveBatchSize_small on added small) (counted rest)
        fun _ i => .inr ((estimate_piece _ _).trans small)⟩
    · rw [if_neg small] at rest
      obtain ⟨product, groups⟩ := rest
      have large : budget < estimate ram lazy.queue := Nat.lt_of_not_le small
      refine ⟨_, withinBudget_of_found (fun mode => effectiveBatchSize_large on added large product)
        (Nat.le_max_right ..) fun _ => ?_⟩
      by_cases one : lazy.config.maxBatch.toNat * budget / estimate ram lazy.queue ≤ 1
      · rw [Nat.max_eq_right one]
        exact grouped_one
      · have two : 2 ≤ lazy.config.maxBatch.toNat * budget / estimate ram lazy.queue := Nat.lt_of_not_le one
        rw [Nat.max_eq_left (Nat.le_of_lt two)]
        have total : 0 < estimate ram lazy.queue := Nat.lt_of_le_of_lt (Nat.zero_le _) large
        refine groups _ two (Nat.div_mul_le_self ..) ?_
        rw [Nat.mul_comm (_ + 1)]
        exact Nat.lt_mul_div_succ _ total
  · rw [Fits, if_neg on] at fits
    exact ⟨_, withinBudget_of_found (fun mode => effectiveBatchSize_plain (by simpa using on)) (counted fits)
      fun there => absurd there on⟩

end Queues

/-- For every configuration and every queue, the batches are as they should be
exactly when the configuration and the estimates fit together. -/
theorem withinBudget_iff {σ : Type u} (ram : String → UInt64) (lazy : LazyFork σ) :
    (∃ size, WithinBudget ram lazy size) ↔ Fits ram lazy.config lazy.queue :=
  ⟨fun ⟨_, within⟩ => fits_of_withinBudget within, withinBudget_of_fits⟩

/-- Five snippets that import torch, each predicted to take 1029 MB, in a batch of
up to 32. -/
def fiveImports : LazyFork Unit :=
  ⟨List.replicate 5 ⟨"import torch", "python:pytorch"⟩, none, ⟨32, true⟩, none⟩

def importRam : String → UInt64 := fun _ => 1029 * 1024 * 1024

/-- All five run at once, in more than the budget. -/
theorem five_imports_exceed : ¬ ∃ size, WithinBudget importRam fiveImports size := by
  rintro ⟨size, within⟩
  have fits := fits_of_withinBudget within
  have total : estimate importRam fiveImports.queue = 5 * (1029 * 1024 * 1024) := by decide
  have limit : budget = 4096 * (1024 * 1024) := by decide
  have on : fiveImports.config.profilerEnabled = true := rfl
  rw [Fits, if_pos on, total, limit, if_neg (by decide)] at fits
  obtain ⟨-, -, groups⟩ := fits
  rcases groups 25 (by decide) (by decide) (by decide) 0 with few | small
  · exact absurd few (by decide)
  · exact absurd small (by decide)

end TinyMachine.LazyBudget
