import Mathlib.Data.Nat.ModEq

/-! Ones' complement sums. A word is a number up to `top`, which is all ones,
and what is carried out of a word is added at its other end. -/
namespace TinyMachine.Lib.OnesComplement

/-- Addition with an end-around carry. -/
def add (top x y : Nat) : Nat := if x + y ≤ top then x + y else x + y - top

def sum (top : Nat) (words : List Nat) : Nat := words.foldr (add top) 0

/-- The word that the carries of a number fold into. Zero and `top` are the
same number, and only zero folds into zero. -/
structure Folds (top sum word : Nat) : Prop where
  bound : word ≤ top
  congruent : word ≡ sum [MOD top]
  zero : word = 0 ↔ sum = 0

theorem Folds.unique {top sum x y : Nat} (left : Folds top sum x) (right : Folds top sum y) : x = y := by
  have same : x % top = y % top := left.congruent.trans right.congruent.symm
  have lower := left.bound
  have upper := right.bound
  have together : x = 0 ↔ y = 0 := left.zero.trans right.zero.symm
  rcases Nat.lt_or_ge x top with small | full
  · rcases Nat.lt_or_ge y top with small' | full'
    · rw [Nat.mod_eq_of_lt small, Nat.mod_eq_of_lt small'] at same
      exact same
    · obtain rfl : y = top := by omega
      rw [Nat.mod_eq_of_lt small, Nat.mod_self] at same
      omega
  · obtain rfl : x = top := by omega
    rcases Nat.lt_or_ge y x with small' | full'
    · rw [Nat.mod_self, Nat.mod_eq_of_lt small'] at same
      omega
    · omega

theorem folds_small {top word : Nat} (small : word ≤ top) : Folds top word word :=
  ⟨small, Nat.ModEq.refl _, Iff.rfl⟩

theorem Folds.add {top word rest folded : Nat} (small : word ≤ top) (folds : Folds top rest folded) :
    Folds top (word + rest) (add top word folded) := by
  have bound := folds.bound
  have congruent : word + folded ≡ word + rest [MOD top] := folds.congruent.add_left word
  have zero := folds.zero
  unfold OnesComplement.add
  split
  · rename_i within
    exact ⟨within, congruent, by omega⟩
  · rename_i carried
    refine ⟨by omega, ?_, by omega⟩
    have around : word + folded - top ≡ word + folded [MOD top] := by
      have whole : word + folded = word + folded - top + top := by omega
      rw [Nat.ModEq, whole, Nat.add_sub_cancel, Nat.add_mod_right]
    exact around.trans congruent

/-- Adding words one by one folds their sum. -/
theorem folds_sum {top : Nat} {words : List Nat} (small : ∀ word ∈ words, word ≤ top) :
    Folds top words.sum (sum top words) := by
  induction words with
  | nil => exact folds_small (Nat.zero_le top)
  | cons word rest ih =>
    have later := ih fun other member => small other (List.mem_cons_of_mem word member)
    exact later.add (small word List.mem_cons_self)

/-- With the complement of what it folds into, a sum folds into all ones. -/
theorem Folds.completed {top sum word : Nat} (positive : 0 < top) (folds : Folds top sum word) :
    Folds top (sum + (top - word)) top := by
  have bound := folds.bound
  have zero := folds.zero
  refine ⟨Nat.le_refl top, ?_, by omega⟩
  have whole : word + (top - word) ≡ sum + (top - word) [MOD top] := folds.congruent.add_right _
  rwa [Nat.add_sub_cancel' bound] at whole

end TinyMachine.Lib.OnesComplement
