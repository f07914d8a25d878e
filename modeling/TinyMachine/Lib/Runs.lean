import Mathlib.Data.List.Induction

/-! Runs of a labelled transition system in which only some steps are
admitted, and the induction rule every safety argument over them uses. -/
namespace TinyMachine.Lib

/-- A system is given by its starting states and its labelled steps. -/
structure System (σ : Type u) (ℓ : Type v) where
  start : σ → Prop
  step : σ → ℓ → σ → Prop

namespace System
variable {σ : Type u} {ℓ : Type v} {system : System σ ℓ} {admitted : σ → ℓ → Prop}

/-- The states reached by runs all of whose steps are admitted. -/
inductive Reached (system : System σ ℓ) (admitted : σ → ℓ → Prop) : σ → Prop where
  | start {s : σ} : system.start s → Reached system admitted s
  | next {s t : σ} {label : ℓ} : Reached system admitted s → admitted s label →
      system.step s label t → Reached system admitted t

/-- What holds at the start and survives every admitted step holds wherever a
run leads. -/
theorem Reached.invariant {holds : σ → Prop} {s : σ} (reached : system.Reached admitted s)
    (initial : ∀ s, system.start s → holds s)
    (preserved : ∀ s label t, holds s → admitted s label → system.step s label t → holds t) :
    holds s := by
  induction reached with
  | start begins => exact initial _ begins
  | next _ allowed step ih => exact preserved _ _ _ ih allowed step

/-- Admitting fewer steps reaches no more states. -/
theorem Reached.mono {weaker : σ → ℓ → Prop} {s : σ} (reached : system.Reached admitted s)
    (implied : ∀ s label, admitted s label → weaker s label) : system.Reached weaker s := by
  induction reached with
  | start begins => exact .start begins
  | next _ allowed step ih => exact .next ih (implied _ _ allowed) step

end System

/-- Where what has been done so far decides whether the next step is a good
one, all goes well throughout exactly when every step is a good one. -/
theorem forall_prefix_iff {ℓ : Type v} {good : List ℓ → Prop} {admits : List ℓ → ℓ → Prop} (start : good [])
    (next : ∀ past op, good past → (good (past ++ [op]) ↔ admits past op)) (ops : List ℓ) :
    (∀ past, past <+: ops → good past) ↔ ∀ past op, past ++ [op] <+: ops → admits past op := by
  constructor
  · intro throughout past op within
    have before : past <+: ops := (List.prefix_append past [op]).trans within
    exact (next past op (throughout past before)).mp (throughout _ within)
  · intro allowed past within
    induction past using List.reverseRecOn with
    | nil => exact start
    | append_singleton past op ih =>
      have before : past <+: ops := (List.prefix_append past [op]).trans within
      exact (next past op (ih before)).mpr (allowed past op within)

end TinyMachine.Lib
