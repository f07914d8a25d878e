import Mathlib.Algebra.Group.Nat.Defs
import Mathlib.Data.List.TakeWhile

/-! Networks of IPv4 addresses: who is in them, their masks, and addresses as
they are written. -/
namespace TinyMachine.Lib

/-- The addresses that have so many first bits in common with this one. -/
structure Cidr where
  addr : UInt32
  len : Nat
  fits : len ≤ 32
  deriving DecidableEq, Repr

namespace Ipv4

/-- The octet at a place, counted from the lowest. -/
def octet (a : UInt32) (place : Nat) : UInt8 := .ofNat (a.toNat / 256 ^ place)

def ofOctets (first second third fourth : UInt8) : UInt32 :=
  .ofNat (((first.toNat * 256 + second.toNat) * 256 + third.toNat) * 256 + fourth.toNat)

/-- Four decimal numbers with dots between them. -/
def dotted (a : UInt32) : List Char :=
  Nat.toDigits 10 (octet a 3).toNat ++ '.' :: (Nat.toDigits 10 (octet a 2).toNat ++
    '.' :: (Nat.toDigits 10 (octet a 1).toNat ++ '.' :: Nat.toDigits 10 (octet a 0).toNat))

/-- At most three digits, without zeros in front. -/
def readOctet (text : List Char) : Option (UInt8 × List Char) :=
  let digits := text.takeWhile Char.isDigit
  if digits = [] ∨ 3 < digits.length ∨ (digits.head? = some '0' ∧ 1 < digits.length) then none
  else if Nat.ofDigitChars 10 digits 0 < 256 then
    some (.ofNat (Nat.ofDigitChars 10 digits 0), text.dropWhile Char.isDigit)
  else none

def readDot : List Char → Option (List Char)
  | '.' :: rest => some rest
  | _ => none

/-- Four octets with dots between them, and nothing else. -/
def parse (text : List Char) : Option UInt32 := do
  let (first, rest) ← readOctet text
  let (second, rest) ← readOctet (← readDot rest)
  let (third, rest) ← readOctet (← readDot rest)
  let (fourth, rest) ← readOctet (← readDot rest)
  if rest = [] then some (ofOctets first second third fourth) else none

theorem ofOctets_octet (a : UInt32) : ofOctets (octet a 3) (octet a 2) (octet a 1) (octet a 0) = a := by
  have bound := a.toNat_lt
  apply UInt32.toNat_inj.mp
  simp only [ofOctets, octet, UInt32.toNat_ofNat', UInt8.toNat_ofNat']
  omega

/-- A number has no zero in front. -/
theorem head_toDigits {n : Nat} (positive : 0 < n) : (Nat.toDigits 10 n).head? ≠ some '0' := by
  induction n using Nat.strongRecOn with
  | ind n ih =>
    by_cases small : n < 10
    · rw [Nat.toDigits_of_lt_base small, List.head?_cons]
      intro zero
      have value := Nat.toNat_digitChar_of_lt_ten small
      rw [Option.some.inj zero] at value
      have char : '0'.toNat = 48 := rfl
      omega
    · have start := List.head?_eq_some_head (@Nat.toDigits_ne_nil (n / 10) 10)
      rw [Nat.toDigits_of_base_le (by decide) (Nat.not_lt.mp small), List.head?_append, start, Option.some_or, ← start]
      exact ih (n / 10) (by omega) (by omega)

theorem takeWhile_digits {digits rest : List Char} (all : ∀ c ∈ digits, c.isDigit = true)
    (stops : ∀ c ∈ rest.head?, c.isDigit = false) :
    (digits ++ rest).takeWhile Char.isDigit = digits ∧ (digits ++ rest).dropWhile Char.isDigit = rest := by
  rw [List.takeWhile_append_of_pos all, List.dropWhile_append_of_pos all]
  cases rest with
  | nil => exact ⟨List.append_nil _, rfl⟩
  | cons c rest =>
    have other := Bool.eq_false_iff.mp (stops c rfl)
    exact ⟨by rw [List.takeWhile_cons_of_neg other, List.append_nil], List.dropWhile_cons_of_neg other⟩

theorem readOctet_toDigits (value : UInt8) {rest : List Char} (stops : ∀ c ∈ rest.head?, c.isDigit = false) :
    readOctet (Nat.toDigits 10 value.toNat ++ rest) = some (value, rest) := by
  have bound : value.toNat < 256 := value.toNat_lt
  have digits : ∀ c ∈ Nat.toDigits 10 value.toNat, c.isDigit = true := fun c member =>
    Nat.isDigit_of_mem_toDigits (by decide) (by decide) member
  obtain ⟨taken, left⟩ := takeWhile_digits digits stops
  have short : (Nat.toDigits 10 value.toNat).length ≤ 3 :=
    (Nat.length_toDigits_le_iff (by decide) (by decide)).mpr (by omega)
  have plain : ¬ ((Nat.toDigits 10 value.toNat).head? = some '0' ∧ 1 < (Nat.toDigits 10 value.toNat).length) := by
    rintro ⟨zero, long⟩
    by_cases positive : 0 < value.toNat
    · exact head_toDigits positive zero
    · rw [Nat.eq_zero_of_not_pos positive] at long
      exact absurd long (by decide)
  simp only [readOctet, taken, left, Nat.ofDigitChars_ten_toDigits]
  rw [if_neg (by simpa [Nat.toDigits_ne_nil, Nat.not_lt.mpr short] using plain), if_pos bound, UInt8.ofNat_toNat]

theorem parse_dotted (a : UInt32) : parse (dotted a) = some a := by
  have dot (rest : List Char) : ∀ c ∈ ('.' :: rest).head?, c.isDigit = false := by
    rintro c ⟨⟩
    rfl
  have last := @readOctet_toDigits (octet a 0) [] (fun c member => nomatch member)
  rw [List.append_nil] at last
  simp only [parse, dotted, readOctet_toDigits _ (dot _), readDot, last, Option.bind_eq_bind, Option.bind_some,
    if_true, ofOctets_octet]

/-- There is no slash in an address. -/
theorem slash_notMem_dotted (a : UInt32) : '/' ∉ dotted a := by
  have digits (n : Nat) : '/' ∉ Nat.toDigits 10 n := fun member =>
    absurd (Nat.isDigit_of_mem_toDigits (by decide) (by decide) member) (by decide)
  simp [dotted, digits]

end Ipv4

namespace Cidr
variable {cidr : Cidr} {a b : UInt32}

/-- Membership, by the bits in front. -/
def Has (cidr : Cidr) (a : UInt32) : Prop :=
  a.toNat / 2 ^ (32 - cidr.len) = cidr.addr.toNat / 2 ^ (32 - cidr.len)

instance hasDecidable (cidr : Cidr) (a : UInt32) : Decidable (cidr.Has a) :=
  inferInstanceAs (Decidable (_ = _))

def text (cidr : Cidr) : List Char := Ipv4.dotted cidr.addr ++ '/' :: Nat.toDigits 10 cidr.len

/-- An address on its own. -/
def host (addr : UInt32) : Cidr := ⟨addr, 32, Nat.le_refl _⟩

theorem host_has : (host b).Has a ↔ a = b := by
  rw [Has, host, Nat.sub_self, Nat.pow_zero, Nat.div_one, Nat.div_one, UInt32.toNat_inj]

/-- A network of length zero has everyone. -/
theorem has_of_len_zero (all : cidr.len = 0) : cidr.Has a := by
  rw [Has, all, Nat.sub_zero, Nat.div_eq_of_lt a.toNat_lt, Nat.div_eq_of_lt cidr.addr.toNat_lt]

theorem and_ones_eq_iff {w : Nat} (x y : BitVec w) (k : Nat) :
    x &&& (BitVec.allOnes w <<< k) = y &&& (BitVec.allOnes w <<< k) ↔ x >>> k = y >>> k := by
  constructor
  · intro same
    ext i bound
    by_cases inside : k + i < w
    · have bit := congrArg (fun v : BitVec w => v.getLsbD (k + i)) same
      simpa [BitVec.getLsbD_and, BitVec.getLsbD_shiftLeft, BitVec.getLsbD_allOnes, inside, bound,
        Nat.not_lt.mpr (Nat.le_add_right k i)] using bit
    · simp [BitVec.getLsbD_of_ge _ _ (Nat.not_lt.mp inside)]
  · intro same
    ext i bound
    rw [BitVec.getElem_and, BitVec.getElem_and]
    by_cases high : k ≤ i
    · have bit := congrArg (fun v : BitVec w => v.getLsbD (i - k)) same
      simp only [BitVec.getLsbD_ushiftRight, Nat.add_sub_cancel' high, BitVec.getLsbD_eq_getElem bound] at bit
      rw [bit]
    · simp [Nat.lt_of_not_le high, BitVec.getElem_shiftLeft]

/-- Under a mask the bits in front of it are compared. -/
theorem and_mask_eq_iff {k : Nat} (inside : k < 32) :
    a &&& (~~~(0 : UInt32)) <<< UInt32.ofNat k = b &&& (~~~(0 : UInt32)) <<< UInt32.ofNat k ↔ a.toNat / 2 ^ k = b.toNat / 2 ^ k := by
  have mask : ((~~~(0 : UInt32)) <<< UInt32.ofNat k).toBitVec = BitVec.allOnes 32 <<< k := by
    have small : (BitVec.ofNat 32 k % 32).toNat = k := by
      rw [BitVec.toNat_umod, BitVec.toNat_ofNat, Nat.mod_eq_of_lt (Nat.lt_trans inside (by decide))]
      exact Nat.mod_eq_of_lt inside
    rw [UInt32.toBitVec_shiftLeft, BitVec.shiftLeft_eq', UInt32.toBitVec_ofNat', small]
    rfl
  rw [← UInt32.toBitVec_inj, UInt32.toBitVec_and, UInt32.toBitVec_and, mask, and_ones_eq_iff, ← BitVec.toNat_inj,
    BitVec.toNat_ushiftRight, BitVec.toNat_ushiftRight, Nat.shiftRight_eq_div_pow, Nat.shiftRight_eq_div_pow]
  rfl

end Cidr
end TinyMachine.Lib
