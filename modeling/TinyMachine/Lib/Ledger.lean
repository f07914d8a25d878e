import Mathlib.Data.List.Perm.Basic

/-! A ledger of what a component has taken charge of and what it has passed
on. Nothing is lost and nothing is doubled when the first list is the second
followed by what is still held. -/
namespace TinyMachine.Lib

structure Ledger (β : Type u) where
  taken : List β
  passed : List β
  deriving DecidableEq

namespace Ledger
variable {β : Type u} {ledger record : Ledger β} {held new queue : List β}

def empty : Ledger β := ⟨[], []⟩

/-- The ledger with a further record behind it. -/
def plus (ledger record : Ledger β) : Ledger β :=
  ⟨ledger.taken ++ record.taken, ledger.passed ++ record.passed⟩

/-- Everything taken was passed on, once and in this order, or waits in this
queue. -/
def Waits (ledger : Ledger β) (queue : List β) : Prop := ledger.taken = ledger.passed ++ queue

/-- What is held is what waits, in whatever order it is kept. -/
def Balanced (ledger : Ledger β) (held : List β) : Prop := ∃ queue, ledger.Waits queue ∧ queue.Perm held

@[simp] theorem plus_empty : ledger.plus empty = ledger := by simp [plus, empty]

theorem balanced_empty : (empty : Ledger β).Balanced [] := ⟨[], rfl, .refl _⟩

/-- Taking more adds to what is held. -/
theorem Balanced.takes {held' : List β} (balanced : ledger.Balanced held) (more : held'.Perm (held ++ new)) :
    (ledger.plus ⟨new, []⟩).Balanced held' := by
  obtain ⟨queue, waits, same⟩ := balanced
  refine ⟨queue ++ new, ?_, (same.append_right new).trans more.symm⟩
  rw [Waits, plus, waits, List.append_assoc, List.append_nil]

/-- Passing on what waits, and then what was taken meanwhile, leaves nothing. -/
theorem Waits.flushes (waits : ledger.Waits queue) : (ledger.plus ⟨new, queue ++ new⟩).Balanced [] := by
  refine ⟨[], ?_, .refl _⟩
  rw [Waits, plus, waits, List.append_assoc, List.append_assoc, List.append_nil]

end Ledger
end TinyMachine.Lib
