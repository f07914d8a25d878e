import Mathlib.Data.Nat.Bitwise

/-! Masks on 64-bit words. -/
namespace TinyMachine.Lib

/-- The complement of the mask of the low `k` bits. -/
theorem toNat_complement_mask {mask : UInt64} {k : Nat} (small : k ≤ 64) (isMask : mask.toNat = 2 ^ k - 1) :
    (~~~ mask).toNat = (2 ^ (64 - k) - 1) * 2 ^ k := by
  have whole : 2 ^ (64 - k) * 2 ^ k = 2 ^ 64 := by rw [← Nat.pow_add, Nat.sub_add_cancel small]
  have positive : 0 < 2 ^ k := Nat.two_pow_pos k
  have complement : (~~~ mask).toNat = 2 ^ 64 - 1 - mask.toNat := UInt64.toNat_not ..
  rw [complement, isMask, Nat.sub_mul, whole, Nat.one_mul]
  omega

/-- A mask of all bits but the low `k` rounds down to a multiple of `2 ^ k`. -/
theorem and_upper {n k width : Nat} (fits : n < 2 ^ (width + k)) : n &&& ((2 ^ width - 1) * 2 ^ k) = n / 2 ^ k * 2 ^ k := by
  apply Nat.eq_of_testBit_eq
  intro i
  rw [Nat.testBit_and, Nat.testBit_mul_two_pow, Nat.testBit_mul_two_pow, Nat.testBit_two_pow_sub_one,
    Nat.testBit_div_two_pow]
  by_cases low : k ≤ i
  · by_cases high : i < width + k
    · simp [low, show i - k < width by omega]
    · have clear : n.testBit i = false :=
        Nat.testBit_lt_two_pow (Nat.lt_of_lt_of_le fits (Nat.pow_le_pow_right (by decide) (by omega)))
      simp [low, clear]
  · simp [low]

/-- Clearing the low `k` bits rounds down to a multiple of `2 ^ k`. -/
theorem toNat_clear_low {mask : UInt64} {k : Nat} (small : k ≤ 64) (isMask : mask.toNat = 2 ^ k - 1) (x : UInt64) :
    (x &&& ~~~ mask).toNat = x.toNat / 2 ^ k * 2 ^ k := by
  have bound : x.toNat < 2 ^ (64 - k + k) := by
    rw [Nat.sub_add_cancel small]
    exact x.toNat_lt
  rw [UInt64.toNat_and, toNat_complement_mask small isMask, and_upper bound]

end TinyMachine.Lib
