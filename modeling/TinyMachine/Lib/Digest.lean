import Mathlib.Data.List.Basic

/-! Digests that tell all texts apart, for examples in which the digest of one
text is the real one. -/
namespace TinyMachine.Lib

/-- The bytes as letters, behind one that no hex digest has. -/
def letters (bytes : List UInt8) : String := String.ofList ('x' :: bytes.map fun byte => Char.ofNat byte.toNat)

/-- This digest for one text, and for the others their letters. -/
def digestWith (known : List UInt8) (digest : String) (bytes : List UInt8) : String :=
  if bytes = known then digest else letters bytes

private theorem letter_injective : Function.Injective fun byte : UInt8 => Char.ofNat byte.toNat := by
  intro a b same
  have codes := congrArg Char.toNat same
  have valid : ∀ byte : UInt8, (Char.ofNat byte.toNat).toNat = byte.toNat := by
    intro byte
    have small := byte.toNat_lt
    have scalar : byte.toNat.isValidChar := .inl (by omega)
    rw [Char.ofNat, dif_pos scalar]
    rfl
  exact UInt8.toNat_inj.mp (((valid a).symm.trans codes).trans (valid b))

theorem digestWith_injective {known : List UInt8} {digest : String} (hex : digest.toList.head? ≠ some 'x') :
    Function.Injective (digestWith known digest) := by
  have apart : ∀ bytes, digest ≠ letters bytes := by
    rintro bytes rfl
    exact hex (by simp [letters])
  intro a b same
  unfold digestWith at same
  split at same
  · rename_i first
    split at same
    · rename_i second
      rw [first, second]
    · exact absurd same (apart b)
  · split at same
    · exact absurd same.symm (apart a)
    · exact letter_injective.list_map (List.cons.inj (String.ofList_injective same)).2

end TinyMachine.Lib
