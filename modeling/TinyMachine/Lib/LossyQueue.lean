import Mathlib.Data.List.DropRight

/-! A bounded queue that drops its oldest element to make room for a new one,
and the line of everything it was given. -/
namespace TinyMachine.Lib
variable {α : Type}

/-- A queue of at most `cap` elements takes one more. -/
def pushDropping (cap : Nat) (queue : List α) (a : α) : List α :=
  (if cap ≤ queue.length then queue.tail else queue) ++ [a]

theorem length_rtake (line : List α) (n : Nat) : (line.rtake n).length = min n line.length := by
  simp only [List.rtake, List.length_drop]
  omega

/-- The queue stays the end of its line. -/
theorem pushDropping_rtake {cap : Nat} (room : 0 < cap) (line : List α) (a : α) :
    pushDropping cap (line.rtake cap) a = (line ++ [a]).rtake cap := by
  have within := length_rtake line cap
  by_cases full : cap ≤ line.length
  · have kept : line.length + 1 - cap ≤ line.length := by omega
    rw [pushDropping, if_pos (by omega), List.rtake, List.rtake, List.tail_drop, List.length_append,
      List.length_singleton, List.drop_append_of_le_length kept]
    congr 2
    omega
  · have fits : (line ++ [a]).length - cap = 0 := by
      rw [List.length_append, List.length_singleton]
      omega
    rw [pushDropping, if_neg (by omega), List.rtake, List.rtake, fits,
      show line.length - cap = 0 by omega, List.drop_zero, List.drop_zero]

theorem foldl_pushDropping_rtake {cap : Nat} (room : 0 < cap) (line added : List α) :
    added.foldl (pushDropping cap) (line.rtake cap) = (line ++ added).rtake cap := by
  induction added generalizing line with
  | nil => rw [List.foldl_nil, List.append_nil]
  | cons a rest ih => rw [List.foldl_cons, pushDropping_rtake room, ih, List.append_assoc, List.singleton_append]

theorem pushDropping_ne_nil (cap : Nat) (queue : List α) (a : α) : pushDropping cap queue a ≠ [] := by
  simp [pushDropping]

theorem foldl_pushDropping_ne_nil {cap : Nat} {queue added : List α} (some : queue ≠ [] ∨ added ≠ []) :
    added.foldl (pushDropping cap) queue ≠ [] := by
  induction added generalizing queue with
  | nil => exact some.resolve_right (fun more => more rfl)
  | cons a rest ih => exact ih (.inl (pushDropping_ne_nil cap queue a))

theorem rtake_eq_nil_iff {line : List α} {n : Nat} (room : 0 < n) : line.rtake n = [] ↔ line = [] := by
  rw [← List.length_eq_zero_iff, length_rtake, ← List.length_eq_zero_iff]
  omega

/-- The end of the end of a line, where its first element is gone. -/
theorem rtake_tail_rtake (line : List α) (n : Nat) : ((line.rtake n).tail).rtake n = (line.rtake n).tail := by
  have within : (line.rtake n).tail.length ≤ n := by
    rw [List.length_tail, length_rtake]
    omega
  rw [List.rtake, Nat.sub_eq_zero_of_le within, List.drop_zero]

end TinyMachine.Lib
