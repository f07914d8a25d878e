import Mathlib.Data.List.Induction
import Mathlib.Order.Basic

/-! Things laid one behind another from an address on, each at a multiple of its
alignment: when there is room for them below a limit, and that an allocator that
takes the least address each time finds the room there is. -/
namespace TinyMachine.Lib

/-- The least multiple of the alignment that is not before the address. -/
def alignUp (align addr : Nat) : Nat := (addr + align - 1) / align * align

section AlignUp
variable {align addr other : Nat}

theorem dvd_alignUp (align addr : Nat) : align ∣ alignUp align addr := Nat.dvd_mul_left ..

theorem le_alignUp (positive : 0 < align) : addr ≤ alignUp align addr := by
  have split := Nat.div_add_mod (addr + align - 1) align
  have rest := Nat.mod_lt (addr + align - 1) positive
  rw [alignUp, Nat.mul_comm]
  omega

theorem alignUp_lt (positive : 0 < align) : alignUp align addr < addr + align := by
  have below := Nat.div_mul_le_self (addr + align - 1) align
  rw [alignUp]
  omega

theorem alignUp_le (positive : 0 < align) (divides : align ∣ other) (behind : addr ≤ other) : alignUp align addr ≤ other := by
  obtain ⟨count, rfl⟩ := divides
  rw [alignUp, Nat.mul_comm align]
  refine Nat.mul_le_mul_right _ (Nat.le_of_lt_succ ?_)
  rw [Nat.div_lt_iff_lt_mul positive, Nat.succ_mul, Nat.mul_comm count]
  omega

theorem alignUp_mono (positive : 0 < align) (earlier : addr ≤ other) : alignUp align addr ≤ alignUp align other :=
  alignUp_le positive (dvd_alignUp ..) (Nat.le_trans earlier (le_alignUp positive))

/-- An aligned address before an aligned limit is followed by a whole alignment. -/
theorem alignUp_add_le (divides : align ∣ other) (before : alignUp align addr < other) : alignUp align addr + align ≤ other := by
  obtain ⟨count, rfl⟩ := divides
  obtain ⟨index, here⟩ := dvd_alignUp align addr
  rw [here] at before ⊢
  have earlier : index < count := Nat.lt_of_mul_lt_mul_left before
  calc align * index + align = align * (index + 1) := (Nat.mul_succ ..).symm
    _ ≤ align * count := Nat.mul_le_mul_left _ earlier

end AlignUp

/-- Something to be laid: its size, and what its address is a multiple of. -/
structure Piece where
  size : Nat
  align : Nat
  positive : 0 < align

/-- Addresses for the pieces that keep their order, below the limit. -/
def Laid (limit : Nat) : Nat → List Piece → List Nat → Prop
  | _, [], [] => True
  | start, piece :: pieces, position :: positions =>
    start ≤ position ∧ piece.align ∣ position ∧ position + piece.size ≤ limit ∧
      Laid limit (position + piece.size) pieces positions
  | _, _, _ => False

/-- There is room for the pieces between the address and the limit. -/
def Room (limit start : Nat) (pieces : List Piece) : Prop := ∃ positions, Laid limit start pieces positions

/-- The end of the pieces when each takes the least address behind those before it. -/
def bumped (start : Nat) (pieces : List Piece) : Nat :=
  pieces.foldl (fun next piece => alignUp piece.align next + piece.size) start

section Room
variable {limit start : Nat} {piece : Piece} {pieces : List Piece}

@[simp] theorem room_nil (limit start : Nat) : Room limit start [] := ⟨[], trivial⟩

theorem room_cons : Room limit start (piece :: pieces) ↔
    ∃ position, start ≤ position ∧ piece.align ∣ position ∧ position + piece.size ≤ limit ∧
      Room limit (position + piece.size) pieces := by
  constructor
  · rintro ⟨_ | ⟨position, positions⟩, laid⟩
    · exact laid.elim
    · exact ⟨position, laid.1, laid.2.1, laid.2.2.1, positions, laid.2.2.2⟩
  · rintro ⟨position, behind, aligned, inside, positions, laid⟩
    exact ⟨position :: positions, behind, aligned, inside, laid⟩

@[simp] theorem bumped_nil (start : Nat) : bumped start [] = start := rfl

@[simp] theorem bumped_append (start : Nat) (pieces : List Piece) (piece : Piece) :
    bumped start (pieces ++ [piece]) = alignUp piece.align (bumped start pieces) + piece.size := by
  rw [bumped, List.foldl_append]
  rfl

theorem bumped_mono {other : Nat} (earlier : start ≤ other) : bumped start pieces ≤ bumped other pieces := by
  induction pieces generalizing start other with
  | nil => exact earlier
  | cons piece pieces ih => exact ih (Nat.add_le_add_right (alignUp_mono piece.positive earlier) _)

theorem le_bumped (start : Nat) (pieces : List Piece) : start ≤ bumped start pieces := by
  induction pieces generalizing start with
  | nil => exact Nat.le_refl _
  | cons piece pieces ih =>
    have first : start ≤ alignUp piece.align start := le_alignUp piece.positive
    have rest : alignUp piece.align start + piece.size ≤ bumped start (piece :: pieces) := ih _
    omega

/-- Nothing but the least addresses has to be tried. -/
theorem room_iff : Room limit start pieces ↔ pieces = [] ∨ bumped start pieces ≤ limit := by
  induction pieces generalizing start with
  | nil => simp
  | cons piece pieces ih =>
    simp only [room_cons, ih, List.cons_ne_nil, false_or]
    constructor
    · rintro ⟨position, behind, aligned, inside, rest⟩
      have least : alignUp piece.align start + piece.size ≤ position + piece.size :=
        Nat.add_le_add_right (alignUp_le piece.positive aligned behind) _
      rcases rest with rfl | rest
      · exact Nat.le_trans least inside
      · have later : bumped (alignUp piece.align start + piece.size) pieces ≤ bumped (position + piece.size) pieces :=
          bumped_mono least
        exact Nat.le_trans later rest
    · intro inside
      have first := Nat.le_trans (le_bumped _ pieces) inside
      exact ⟨_, le_alignUp piece.positive, dvd_alignUp .., first, .inr inside⟩

theorem room_append : Room limit start (pieces ++ [piece]) ↔
    alignUp piece.align (bumped start pieces) + piece.size ≤ limit := by
  rw [room_iff, bumped_append]
  simp

theorem Room.of_append (room : Room limit start (pieces ++ [piece])) : Room limit start pieces := by
  have inside := room_append.mp room
  have behind : bumped start pieces ≤ alignUp piece.align (bumped start pieces) := le_alignUp piece.positive
  exact room_iff.mpr (.inr (by omega))

end Room

open Classical in
/-- The pieces that find room, each behind those before it that do. -/
noncomputable def admitted (limit start : Nat) (pieces : List Piece) : List Piece :=
  pieces.foldl (fun kept piece => if Room limit start (kept ++ [piece]) then kept ++ [piece] else kept) []

section Admitted
variable {limit start : Nat} {piece : Piece} {pieces : List Piece}

@[simp] theorem admitted_nil (limit start : Nat) : admitted limit start [] = [] := rfl

theorem admitted_append_room (found : alignUp piece.align (bumped start (admitted limit start pieces)) + piece.size ≤ limit) :
    admitted limit start (pieces ++ [piece]) = admitted limit start pieces ++ [piece] := by
  rw [admitted, List.foldl_append]
  exact if_pos (room_append.mpr found)

theorem admitted_append_full (full : limit < alignUp piece.align (bumped start (admitted limit start pieces)) + piece.size) :
    admitted limit start (pieces ++ [piece]) = admitted limit start pieces := by
  rw [admitted, List.foldl_append]
  exact if_neg fun room => absurd (room_append.mp room) (Nat.not_le.mpr full)

/-- What is admitted has room. -/
theorem room_admitted (limit start : Nat) (pieces : List Piece) : Room limit start (admitted limit start pieces) := by
  induction pieces using List.reverseRecOn with
  | nil => exact room_nil ..
  | append_singleton pieces piece ih =>
    by_cases found : alignUp piece.align (bumped start (admitted limit start pieces)) + piece.size ≤ limit
    · rw [admitted_append_room found]
      exact room_append.mpr found
    · rw [admitted_append_full (Nat.not_le.mp found)]
      exact ih

end Admitted

end TinyMachine.Lib
