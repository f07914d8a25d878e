import Mathlib.Tactic.Basic

/-! Computations that may return, fail with an error, or panic. -/
namespace TinyMachine.Lib

instance decEqExcept {ε α : Type u} [DecidableEq ε] [DecidableEq α] : DecidableEq (Except ε α)
  | .ok a, .ok b => decidable_of_iff (a = b) (Except.ok.injEq a b).symm.to_iff
  | .error a, .error b => decidable_of_iff (a = b) (Except.error.injEq a b).symm.to_iff
  | .ok _, .error _ => .isFalse (by simp)
  | .error _, .ok _ => .isFalse (by simp)

abbrev Fallible (ε α : Type u) := ExceptT ε Option α

namespace Fallible
variable {ε α β : Type u}

instance [DecidableEq ε] [DecidableEq α] : DecidableEq (Fallible ε α) :=
  inferInstanceAs (DecidableEq (Option (Except ε α)))

def panic : Fallible ε α := (none : Option (Except ε α))

/-- A value whose absence is a panic. -/
def checked (value : Option α) : Fallible ε α := value.map Except.ok

/-- A value whose absence is an error. -/
def of (value : Except ε α) : Fallible ε α := (some value : Option (Except ε α))

/-- The computation comes to its end, with this value. -/
def Returns (x : Fallible ε α) (a : α) : Prop := x.run = some (.ok a)

def Panics (x : Fallible ε α) : Prop := x.run = none

/-- The computation ends with this error. -/
def Fails (x : Fallible ε α) (e : ε) : Prop := x.run = some (.error e)

@[simp] theorem pure_returns (a b : α) : (pure a : Fallible ε α).Returns b ↔ a = b := by
  simp [Returns]

@[simp] theorem throw_returns (e : ε) (a : α) : ¬ (throw e : Fallible ε α).Returns a := by
  simp [Returns]

@[simp] theorem panic_returns (a : α) : ¬ (panic : Fallible ε α).Returns a := by
  simp [Returns, panic, ExceptT.run]

@[simp] theorem checked_returns (value : Option α) (a : α) :
    (checked value : Fallible ε α).Returns a ↔ value = some a := by
  cases value <;> simp [Returns, checked, ExceptT.run]

@[simp] theorem of_returns (value : Except ε α) (a : α) :
    (of value).Returns a ↔ value = .ok a := by
  simp [Returns, of, ExceptT.run]

@[simp] theorem bind_returns (x : Fallible ε α) (f : α → Fallible ε β) (b : β) :
    (x >>= f).Returns b ↔ ∃ a, x.Returns a ∧ (f a).Returns b := by
  unfold Returns
  rw [ExceptT.run_bind]
  rcases same : x.run with _ | _ | a <;> simp

@[simp] theorem pure_panics (a : α) : ¬ (pure a : Fallible ε α).Panics := by simp [Panics]

@[simp] theorem throw_panics (e : ε) : ¬ (throw e : Fallible ε α).Panics := by simp [Panics]

@[simp] theorem checked_panics (value : Option α) : (checked value : Fallible ε α).Panics ↔ value = none := by
  cases value <;> simp [Panics, checked, ExceptT.run]

@[simp] theorem of_panics (value : Except ε α) : ¬ (of value).Panics := by simp [Panics, of, ExceptT.run]

@[simp] theorem bind_panics (x : Fallible ε α) (f : α → Fallible ε β) :
    (x >>= f).Panics ↔ x.Panics ∨ ∃ a, x.Returns a ∧ (f a).Panics := by
  unfold Panics Returns
  rw [ExceptT.run_bind]
  rcases x.run with _ | _ | a <;> simp

@[simp] theorem pure_fails (a : α) (e : ε) : ¬ (pure a : Fallible ε α).Fails e := by simp [Fails]

@[simp] theorem throw_fails (e f : ε) : (throw e : Fallible ε α).Fails f ↔ e = f := by simp [Fails]

@[simp] theorem checked_fails (value : Option α) (e : ε) : ¬ (checked value : Fallible ε α).Fails e := by
  cases value <;> simp [Fails, checked, ExceptT.run]

@[simp] theorem of_fails (value : Except ε α) (e : ε) : (of value).Fails e ↔ value = .error e := by
  simp [Fails, of, ExceptT.run]

@[simp] theorem bind_fails (x : Fallible ε α) (f : α → Fallible ε β) (e : ε) :
    (x >>= f).Fails e ↔ x.Fails e ∨ ∃ a, x.Returns a ∧ (f a).Fails e := by
  unfold Fails Returns
  rw [ExceptT.run_bind]
  rcases x.run with _ | _ | a <;> simp

theorem checked_some_bind (a : α) (f : α → Fallible ε β) : checked (some a) >>= f = f a := rfl

theorem of_ok_bind (a : α) (f : α → Fallible ε β) : of (.ok a) >>= f = f a := rfl

theorem of_error_bind (e : ε) (f : α → Fallible ε β) : of (.error e) >>= f = of (.error e) := rfl

/-- Every computation ends in one of the three ways. -/
theorem ends (x : Fallible ε α) : x.Panics ∨ (∃ e, x.Fails e) ∨ ∃ a, x.Returns a := by
  unfold Panics Fails Returns
  rcases x.run with _ | _ | a <;> simp

end Fallible

theorem bind_eq_ok {ε α β : Type u} {x : Except ε α} {f : α → Except ε β} {b : β} :
    (x >>= f) = .ok b ↔ ∃ a, x = .ok a ∧ f a = .ok b := by
  cases x <;> simp [bind, Except.bind]

theorem throw_eq_ok {ε α : Type u} {e : ε} {a : α} : (throw e : Except ε α) ≠ .ok a := by
  simp [throw, throwThe, MonadExceptOf.throw]

theorem pure_eq_ok {ε α : Type u} {a b : α} : (pure a : Except ε α) = .ok b ↔ a = b := by
  simp [pure, Except.pure]

theorem mapError_eq_ok {ε ε' α : Type u} {x : Except ε α} {f : ε → ε'} {a : α} :
    x.mapError f = .ok a ↔ x = .ok a := by
  cases x with
  | error e =>
    constructor <;> (intro same; cases same)
  | ok value =>
    constructor <;> (intro same; cases same; rfl)

end TinyMachine.Lib
