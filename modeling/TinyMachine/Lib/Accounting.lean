import Mathlib.Data.List.Perm.Basic

/-! Sums that may fail, and computations that do nothing but add to one. What
such a computation makes of a state is the state and what it makes of nothing,
so that neither the order of the computations nor where they start matters. -/
namespace TinyMachine.Lib

/-- Amounts with a sum that may fail, whatever the order it is taken in. -/
structure Accounting (M : Type u) where
  zero : M
  add : M → M → Option M
  comm : ∀ a b, add a b = add b a
  assoc : ∀ a b c, ((add a b).bind fun ab => add ab c) = (add b c).bind (add a)
  add_zero : ∀ a, add a zero = some a

namespace Accounting
variable {M : Type u} {α : Type v} (acc : Accounting M)

/-- The sum of two amounts, if both are there. -/
def both (a b : Option M) : Option M := a.bind fun a => b.bind (acc.add a)

def total (costs : List (Option M)) : Option M := costs.foldr acc.both (some acc.zero)

@[simp] theorem total_nil : acc.total [] = some acc.zero := rfl
@[simp] theorem total_cons (cost : Option M) (costs : List (Option M)) :
    acc.total (cost :: costs) = acc.both cost (acc.total costs) := rfl

@[simp] theorem both_zero (a : Option M) : acc.both a (some acc.zero) = a := by
  cases a with
  | none => rfl
  | some a => exact acc.add_zero a

theorem both_comm (a b : Option M) : acc.both a b = acc.both b a := by
  cases a with
  | none => cases b <;> rfl
  | some a =>
    cases b with
    | none => rfl
    | some b => exact acc.comm a b

@[simp] theorem zero_both (a : Option M) : acc.both (some acc.zero) a = a := by rw [both_comm, both_zero]

theorem both_assoc (a b c : Option M) : acc.both (acc.both a b) c = acc.both a (acc.both b c) := by
  cases a with
  | none => rfl
  | some a =>
    cases b with
    | none => rfl
    | some b =>
      cases c with
      | none => cases added : acc.add a b <;> simp [both, added]
      | some c => exact acc.assoc a b c

theorem total_append (costs more : List (Option M)) :
    acc.total (costs ++ more) = acc.both (acc.total costs) (acc.total more) := by
  induction costs with
  | nil => rw [List.nil_append, total_nil, zero_both]
  | cons cost costs ih => rw [List.cons_append, total_cons, ih, total_cons, both_assoc]

theorem total_perm {costs more : List (Option M)} (perm : costs.Perm more) : acc.total costs = acc.total more := by
  induction perm with
  | nil => rfl
  | cons cost _ ih => rw [total_cons, total_cons, ih]
  | swap one two rest =>
    simp only [total_cons]
    rw [← both_assoc, ← both_assoc, acc.both_comm one two]
  | trans _ _ first second => exact first.trans second

/-! ## Computations that add -/

/-- The computation adds to its state what it makes of nothing. -/
def Adds (f : M → Option M) : Prop := ∀ s, f s = acc.both (some s) (f acc.zero)

variable {acc} {f g : M → Option M}

theorem Adds.nothing : acc.Adds some := fun s => (acc.add_zero s).symm

theorem Adds.amount (c : M) (amounts : ∀ s, f s = acc.add s c) : acc.Adds f := by
  have start : acc.add acc.zero c = some c := by rw [acc.comm, acc.add_zero]
  intro s
  rw [amounts, amounts, start]
  rfl

theorem Adds.fails : acc.Adds fun _ => none := fun _ => rfl

theorem Adds.bind (one : acc.Adds f) (two : acc.Adds g) : acc.Adds fun s => (f s).bind g := by
  have second : ∀ a : Option M, a.bind g = acc.both a (g acc.zero) := by
    intro a
    cases a with
    | none => rfl
    | some a => exact two a
  intro s
  dsimp only
  rw [second, second, one s, both_assoc]

theorem Adds.ite {p : Prop} [Decidable p] (one : acc.Adds f) (two : acc.Adds g) :
    acc.Adds fun s => if p then f s else g s := by
  intro s
  split
  · exact one s
  · exact two s

/-- Computations that add, one after the other, add their amounts. -/
theorem foldl_adds {step : Option M → α → Option M} {act : α → M → Option M}
    (steps : ∀ s a, step s a = s.bind (act a)) (adds : ∀ a, acc.Adds (act a)) (s : Option M) (as : List α) :
    as.foldl step s = acc.both s (acc.total (as.map fun a => act a acc.zero)) := by
  induction as generalizing s with
  | nil => rw [List.foldl_nil, List.map_nil, total_nil, both_zero]
  | cons a as ih =>
    have first : step s a = acc.both s (act a acc.zero) := by
      rw [steps]
      cases s with
      | none => rfl
      | some s => exact adds a s
    rw [List.foldl_cons, ih, first, List.map_cons, total_cons, both_assoc]

end Accounting
end TinyMachine.Lib
