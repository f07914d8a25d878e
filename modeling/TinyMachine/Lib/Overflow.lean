import Mathlib.Algebra.GroupWithZero.Nat
import Mathlib.Algebra.Order.BigOperators.Group.List
import Mathlib.Algebra.Group.Nat.Defs

/-! Fixed-width arithmetic as a compiler with two build profiles gives it: a
result that does not fit aborts the computation when overflow is checked and
keeps its low bits when it is not. -/
namespace TinyMachine.Lib

/-- What an arithmetic result outside its type does. -/
inductive Overflow where
  | checked
  | wrapping
  deriving DecidableEq, Repr

namespace Overflow

/-- The value of an operation whose mathematical result may not fit. -/
def fit (mode : Overflow) (fits : Prop) [Decidable fits] (value : α) : Option α :=
  if fits ∨ mode = .wrapping then some value else none

@[simp] theorem fit_wrapping (fits : Prop) [Decidable fits] (value : α) :
    wrapping.fit fits value = some value := by simp [fit]

@[simp] theorem fit_of_fits {mode : Overflow} {fits : Prop} [Decidable fits] {value : α}
    (inside : fits) : mode.fit fits value = some value := by simp [fit, inside]

theorem fit_eq_some {mode : Overflow} {fits : Prop} [Decidable fits] {value result : α} :
    mode.fit fits value = some result ↔ (fits ∨ mode = .wrapping) ∧ value = result := by
  unfold fit
  split <;> simp_all

theorem fit_congr {mode : Overflow} {fits fits' : Prop} [Decidable fits] [Decidable fits'] {value value' : α}
    (same : fits ↔ fits') (values : value = value') : mode.fit fits value = mode.fit fits' value' := by
  simp only [fit, same, values]

/-- One operation after another fits when both do. -/
theorem fit_bind {mode : Overflow} {fits : Prop} [Decidable fits] {value : α} {fits' : α → Prop}
    [∀ a, Decidable (fits' a)] {value' : α → β} :
    ((mode.fit fits value).bind fun a => mode.fit (fits' a) (value' a)) =
      mode.fit (fits ∧ fits' value) (value' value) := by
  cases mode with
  | checked => by_cases first : fits <;> simp [fit, first]
  | wrapping => simp

def add16 (mode : Overflow) (a b : UInt16) : Option UInt16 :=
  mode.fit (a.toNat + b.toNat < 2 ^ 16) (a + b)

def sub16 (mode : Overflow) (a b : UInt16) : Option UInt16 :=
  mode.fit (b.toNat ≤ a.toNat) (a - b)

def add32 (mode : Overflow) (a b : UInt32) : Option UInt32 :=
  mode.fit (a.toNat + b.toNat < 2 ^ 32) (a + b)

def add64 (mode : Overflow) (a b : UInt64) : Option UInt64 :=
  mode.fit (a.toNat + b.toNat < 2 ^ 64) (a + b)

theorem add64_of_fits {mode : Overflow} {a b : UInt64} (fits : a.toNat + b.toNat < 2 ^ 64) :
    mode.add64 a b = some (a + b) := fit_of_fits fits

theorem fits_of_add64 {a b sum : UInt64} (added : checked.add64 a b = some sum) : a.toNat + b.toNat < 2 ^ 64 :=
  (fit_eq_some.mp added).1.resolve_right (by decide)

@[simp] theorem add64_zero (mode : Overflow) (a : UInt64) : mode.add64 a 0 = some a := by
  have fits : a.toNat + (0 : UInt64).toNat < 2 ^ 64 := a.toNat_lt
  rw [add64, fit_of_fits fits, UInt64.add_zero]

def sub64 (mode : Overflow) (a b : UInt64) : Option UInt64 :=
  mode.fit (b.toNat ≤ a.toNat) (a - b)

def mul64 (mode : Overflow) (a b : UInt64) : Option UInt64 :=
  mode.fit (a.toNat * b.toNat < 2 ^ 64) (a * b)

theorem mul64_of_fits {mode : Overflow} {a b : UInt64} (fits : a.toNat * b.toNat < 2 ^ 64) :
    mode.mul64 a b = some (a * b) := fit_of_fits fits

theorem fits_of_mul64 {a b product : UInt64} (multiplied : checked.mul64 a b = some product) :
    a.toNat * b.toNat < 2 ^ 64 := (fit_eq_some.mp multiplied).1.resolve_right (by decide)

def neg32 (mode : Overflow) (a : Int32) : Option Int32 :=
  mode.fit (a ≠ Int32.minValue) (-a)

/-! ## Sums -/

section Sums
variable {α : Type} {f : α → UInt64} {items : List α} {acc total : UInt64}

/-- A sum that fits is computed, and is the sum. -/
theorem foldlM_add64 (mode : Overflow) (fits : acc.toNat + (items.map fun a => (f a).toNat).sum < 2 ^ 64) :
    ∃ total, items.foldlM (fun total a => mode.add64 total (f a)) acc = some total ∧
      total.toNat = acc.toNat + (items.map fun a => (f a).toNat).sum := by
  induction items generalizing acc with
  | nil => exact ⟨acc, rfl, rfl⟩
  | cons a items ih =>
    rw [List.map_cons, List.sum_cons, ← Nat.add_assoc] at fits
    have first : acc.toNat + (f a).toNat < 2 ^ 64 := by omega
    have next : (acc + f a).toNat = acc.toNat + (f a).toNat := by
      rw [UInt64.toNat_add, Nat.mod_eq_of_lt first]
    obtain ⟨total, summed, value⟩ := ih (next ▸ fits)
    refine ⟨total, ?_, ?_⟩
    · rw [List.foldlM_cons, add64_of_fits first]
      exact summed
    · rw [value, next, List.map_cons, List.sum_cons, Nat.add_assoc]

/-- Where overflow is checked, only a sum that fits is computed. -/
theorem fits_of_foldlM_add64 (summed : items.foldlM (fun total a => checked.add64 total (f a)) acc = some total) :
    acc.toNat + (items.map fun a => (f a).toNat).sum < 2 ^ 64 := by
  induction items generalizing acc with
  | nil => exact acc.toNat_lt
  | cons a items ih =>
    rw [List.foldlM_cons] at summed
    obtain ⟨next, added, rest⟩ := Option.bind_eq_some_iff.mp summed
    have first := fits_of_add64 added
    cases (add64_of_fits first).symm.trans added
    have later := ih rest
    rw [UInt64.toNat_add, Nat.mod_eq_of_lt first] at later
    rw [List.map_cons, List.sum_cons, ← Nat.add_assoc]
    exact later

end Sums

/-! ## Products -/

section Products
variable {items : List UInt64} {acc total : UInt64}

/-- No product of the first of these numbers is too large, started from a factor. -/
def ProductFits (factor : Nat) (numbers : List Nat) : Prop :=
  ∀ part, part <+: numbers → factor * part.prod < 2 ^ 64

theorem productFits_nil {factor : Nat} : ProductFits factor [] ↔ factor < 2 ^ 64 := by
  simp [ProductFits]

theorem productFits_cons {factor number : Nat} {numbers : List Nat} :
    ProductFits factor (number :: numbers) ↔ factor < 2 ^ 64 ∧ ProductFits (factor * number) numbers := by
  constructor
  · intro fits
    refine ⟨by simpa using fits [] (List.nil_prefix), fun part first => ?_⟩
    have longer := fits (number :: part) (List.cons_prefix_cons.mpr ⟨rfl, first⟩)
    rwa [List.prod_cons, ← Nat.mul_assoc] at longer
  · rintro ⟨start, fits⟩ part first
    cases part with
    | nil => simpa using start
    | cons other part =>
      obtain ⟨rfl, inner⟩ := List.cons_prefix_cons.mp first
      rw [List.prod_cons, ← Nat.mul_assoc]
      exact fits part inner

/-- A product that fits all along is computed, and is the product. -/
theorem foldlM_mul64 (fits : ProductFits acc.toNat (items.map UInt64.toNat)) :
    ∃ total, (∀ mode : Overflow, items.foldlM mode.mul64 acc = some total) ∧
      total.toNat = acc.toNat * (items.map UInt64.toNat).prod := by
  induction items generalizing acc with
  | nil => exact ⟨acc, fun _ => rfl, by simp⟩
  | cons a items ih =>
    obtain ⟨start, rest⟩ := productFits_cons.mp fits
    have first : acc.toNat * a.toNat < 2 ^ 64 := by simpa using rest [] (List.nil_prefix)
    have next : (acc * a).toNat = acc.toNat * a.toNat := by rw [UInt64.toNat_mul, Nat.mod_eq_of_lt first]
    obtain ⟨total, multiplied, value⟩ := ih (next ▸ rest)
    refine ⟨total, fun mode => ?_, ?_⟩
    · rw [List.foldlM_cons, mul64_of_fits first]
      exact multiplied mode
    · rw [value, next, List.map_cons, List.prod_cons, Nat.mul_assoc]

/-- Where overflow is checked, only a product that fits all along is computed. -/
theorem fits_of_foldlM_mul64 (multiplied : items.foldlM checked.mul64 acc = some total) :
    ProductFits acc.toNat (items.map UInt64.toNat) := by
  induction items generalizing acc with
  | nil => exact productFits_nil.mpr acc.toNat_lt
  | cons a items ih =>
    rw [List.foldlM_cons] at multiplied
    obtain ⟨next, one, rest⟩ := Option.bind_eq_some_iff.mp multiplied
    have first := fits_of_mul64 one
    cases (mul64_of_fits first).symm.trans one
    have later := ih rest
    rw [UInt64.toNat_mul, Nat.mod_eq_of_lt first] at later
    exact productFits_cons.mpr ⟨acc.toNat_lt, later⟩

end Products

end Overflow
end TinyMachine.Lib
