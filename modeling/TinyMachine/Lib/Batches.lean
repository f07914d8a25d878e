import Mathlib.Data.List.Basic

/-! Cutting a list into batches that know where they start, and writing the
results of a batch back into a shared vector of slots. -/
namespace TinyMachine.Lib

/-- The batches of `size` elements from position `base` on, each with its
position. The fuel bounds the number of batches. -/
def batchesFrom (size : Nat) : Nat → Nat → List α → List (Nat × List α)
  | _, _, [] => []
  | 0, _, _ => []
  | fuel + 1, base, items =>
    (base, items.take size) :: batchesFrom size fuel (base + size) (items.drop size)

/-- `items.chunks(size)` with the index of each chunk's first item. -/
def batches (size : Nat) (items : List α) : List (Nat × List α) :=
  batchesFrom size items.length 0 items

@[simp] theorem batchesFrom_nil (size fuel base : Nat) :
    batchesFrom size fuel base ([] : List α) = [] := by cases fuel <;> rfl

theorem mem_batchesFrom {size fuel base : Nat} {items : List α} {batch : Nat × List α} (positive : 0 < size)
    (enough : items.length ≤ fuel) :
    batch ∈ batchesFrom size fuel base items ↔
      ∃ i, i * size < items.length ∧ batch = (base + i * size, (items.drop (i * size)).take size) := by
  induction fuel generalizing base items with
  | zero =>
    rw [List.length_eq_zero_iff.mp (Nat.le_zero.mp enough), batchesFrom_nil]
    simp
  | succ fuel ih =>
    cases items with
    | nil => simp
    | cons a items =>
      have shorter : ((a :: items).drop size).length ≤ fuel := by
        rw [List.length_drop]
        omega
      rw [batchesFrom.eq_3 _ _ _ _ (List.cons_ne_nil a items), List.mem_cons, ih shorter]
      constructor
      · rintro (first | ⟨i, inside, rfl⟩)
        · exact ⟨0, by simp, by simpa using first⟩
        · rw [List.length_drop] at inside
          refine ⟨i + 1, by rw [Nat.succ_mul]; omega, ?_⟩
          rw [List.drop_drop, Nat.succ_mul, Nat.add_comm size, Nat.add_assoc, Nat.add_comm size]
      · rintro ⟨i, inside, rfl⟩
        cases i with
        | zero => exact .inl (by simp)
        | succ i =>
          rw [Nat.succ_mul] at inside
          refine .inr ⟨i, by rw [List.length_drop]; omega, ?_⟩
          rw [List.drop_drop, Nat.succ_mul, Nat.add_comm size, Nat.add_assoc, Nat.add_comm size]

/-- The batches are the pieces between the multiples of their size. -/
theorem mem_batches {size : Nat} {items : List α} {batch : Nat × List α} (positive : 0 < size) :
    batch ∈ batches size items ↔
      ∃ i, i * size < items.length ∧ batch = (i * size, (items.drop (i * size)).take size) := by
  rw [batches, mem_batchesFrom positive (Nat.le_refl _)]
  simp only [Nat.zero_add]

/-- Writes the entries that are present into consecutive slots. -/
def overwrite (slots : List (Option α)) (base : Nat) : List (Option α) → List (Option α)
  | [] => slots
  | none :: rest => overwrite slots (base + 1) rest
  | some entry :: rest => overwrite (slots.set base (some entry)) (base + 1) rest

/-- Entries over what was there before. -/
def overlay : List (Option α) → List (Option α) → List (Option α)
  | [], below => below
  | _, [] => []
  | top :: tops, below :: belows => (top <|> below) :: overlay tops belows

@[simp] theorem length_overlay (tops belows : List (Option α)) :
    (overlay tops belows).length = belows.length := by
  induction tops generalizing belows with
  | nil => rfl
  | cons top tops ih => cases belows <;> simp [overlay, ih]

/-- Over empty slots only the entries themselves remain. -/
theorem overlay_replicate_none (tops : List (Option α)) :
    overlay tops (List.replicate tops.length none) = tops := by
  induction tops with
  | nil => rfl
  | cons top tops ih => simp [overlay, List.replicate_succ, ih]

/-- A batch of writes touches its own part of the vector only. -/
theorem overwrite_append (done part rest entries : List (Option α))
    (fits : entries.length ≤ part.length) :
    overwrite (done ++ part ++ rest) done.length entries =
      done ++ overlay entries part ++ rest := by
  induction entries generalizing done part with
  | nil => rfl
  | cons entry entries ih =>
    cases part with
    | nil => simp at fits
    | cons slot part =>
      have next (slot : Option α) := ih (done ++ [slot]) part (by simpa using fits)
      simp only [List.append_assoc, List.length_append, List.length_singleton,
        List.cons_append, List.nil_append] at next
      cases entry with
      | none =>
        simp only [overwrite, overlay, List.append_assoc, List.cons_append, next]
        rfl
      | some entry =>
        have put : (done ++ slot :: (part ++ rest)).set done.length (some entry) =
            done ++ some entry :: (part ++ rest) := by
          rw [List.set_append_right _ _ (Nat.le_refl _)]
          simp
        simp only [overwrite, overlay, List.append_assoc, put, next, List.cons_append]
        rfl

end TinyMachine.Lib
