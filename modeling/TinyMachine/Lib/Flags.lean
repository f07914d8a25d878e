import Mathlib.Logic.Basic

/-! Single flags in a register of eight bits, and single bits of a word of
thirty-two. -/
namespace TinyMachine.Lib

/-- Some bit of the mask is set. -/
def flagged (register mask : UInt8) : Prop := register &&& mask ≠ 0

variable (register : UInt8) {mask other : UInt8}

private theorem or_and_eq : (register ||| mask) &&& other = register &&& other ||| mask &&& other := by
  rw [← UInt8.toBitVec_inj]
  ext i
  simp [Bool.and_or_distrib_right]

private theorem clear_and_eq : (register &&& ~~~mask) &&& other = register &&& (other &&& ~~~mask) := by
  rw [UInt8.and_assoc, UInt8.and_comm other]

private theorem or_and_self : (register ||| mask) &&& mask = mask := by
  rw [← UInt8.toBitVec_inj]
  ext i
  simp [Bool.and_or_distrib_right]

theorem flagged_set (single : mask ≠ 0) : flagged (register ||| mask) mask := by
  rwa [flagged, or_and_self]

theorem flagged_set_other (apart : mask &&& other = 0) : flagged (register ||| mask) other ↔ flagged register other := by
  rw [flagged, flagged, or_and_eq, apart, UInt8.or_zero]

theorem not_flagged_clear : ¬ flagged (register &&& ~~~mask) mask := by
  simp [flagged, UInt8.and_assoc]

theorem flagged_clear_other (apart : other &&& ~~~mask = other) :
    flagged (register &&& ~~~mask) other ↔ flagged register other := by
  rw [flagged, flagged, clear_and_eq, apart]

/-! ## Bits by their number -/

def bit (k : Nat) : UInt32 := 1 <<< UInt32.ofNat k

def bitAt (word : UInt32) (k : Nat) : Bool := word.toBitVec.getLsbD k

section Words
variable {word : UInt32} {k j : Nat}

theorem bitAt_bit (small : k < 32) : bitAt (bit k) j = decide (j = k) := by
  have shift : (UInt32.ofNat k).toBitVec % 32 = BitVec.ofNat 32 k := by
    apply BitVec.eq_of_toNat_eq
    simp
    omega
  have distance : k % 4294967296 = k := by omega
  rw [bitAt, bit, UInt32.toBitVec_shiftLeft, shift]
  simp only [UInt32.toBitVec_one, BitVec.shiftLeft_eq', BitVec.toNat_ofNat, BitVec.getLsbD_shiftLeft,
    BitVec.getLsbD_one, Nat.reducePow, distance]
  by_cases same : j = k
  · simp [same, small]
  · simp [same]
    omega

@[simp] theorem bitAt_or (word other : UInt32) : bitAt (word ||| other) k = (bitAt word k || bitAt other k) := by
  simp [bitAt]

@[simp] theorem bitAt_and (word other : UInt32) : bitAt (word &&& other) k = (bitAt word k && bitAt other k) := by
  simp [bitAt]

@[simp] theorem bitAt_zero (k : Nat) : bitAt 0 k = false := by simp [bitAt]

theorem bitAt_clear (small : k < 32) (word mask : UInt32) :
    bitAt (word &&& ~~~mask) k = (bitAt word k && !bitAt mask k) := by
  simp [bitAt, small]

theorem bitAt_ext {other : UInt32} (same : ∀ k < 32, bitAt word k = bitAt other k) : word = other :=
  UInt32.toBitVec_inj.mp (BitVec.eq_of_getLsbD_eq same)

theorem and_bit_ne_zero (small : k < 32) : word &&& bit k ≠ 0 ↔ bitAt word k = true := by
  constructor
  · intro some
    refine (Bool.not_eq_false _).mp fun unset => some (bitAt_ext fun i _ => ?_)
    rw [bitAt_and, bitAt_bit small]
    by_cases same : i = k
    · simp [same, unset]
    · simp [same]
  · intro set zero
    have one : bitAt (word &&& bit k) k = true := by simp [set, bitAt_bit small]
    rw [zero, bitAt_zero] at one
    cases one

end Words
end TinyMachine.Lib
