import TinyMachine.Lib.ByteMemory
import TinyMachine.Lib.Flags

/-! The register page of an in-kernel local APIC, and what the vCPU's interrupt
calls make of it between `KVM_GET_LAPIC` and `KVM_SET_LAPIC`. -/
namespace TinyMachine.Lapic
open Lib

/-- 1024 bytes of registers. -/
abbrev Page := Memory

def reg (page : Page) (offset : Nat) : UInt32 := .ofNat (page.readLE offset 4)

def setReg (page : Page) (offset : Nat) (value : UInt32) : Page := page.storeLE offset 4 value.toNat

/-- A bank of vectors, 32 to a register. -/
def bankReg (bank : Nat) (vector : UInt8) : Nat := bank + vector.toNat / 32 * 0x10

def isr : Nat := 0x100

def irr : Nat := 0x200

def vectorBit (vector : UInt8) : UInt32 := bit (vector.toNat % 32)

/-- `Vcpu::clear_lapic_isr`: the page to write back, if the vector is in
service. -/
def clearIsr (vector : UInt8) (page : Page) : Option Page :=
  let value := reg page (bankReg isr vector)
  if value &&& vectorBit vector = 0 then none
  else some (setReg page (bankReg isr vector) (value &&& ~~~vectorBit vector))

/-- `Vcpu::inject_lapic_irq`: the page to write back. A vector that is requested
already is left as it was found, in service or not. -/
def injectIrq (vector : UInt8) (page : Page) : Option Page :=
  let page := (clearIsr vector page).getD page
  let value := reg page (bankReg irr vector)
  if value &&& vectorBit vector = 0 then some (setReg page (bankReg irr vector) (value ||| vectorBit vector))
  else none

def svr : Nat := 0xF0

def lint0 : Nat := 0x330

/-- The end of `Vcpu::enable_apic`: the software enable bit, and the first local
interrupt unmasked and taken from the PIC. -/
def enabled (page : Page) : Page :=
  let page := setReg page svr (reg page svr ||| bit 8)
  setReg page lint0 ((reg page lint0 &&& ~~~0x10700) ||| 0x700)

/-! ## What the registers tell -/

/-- The bit of a vector in a bank. -/
def Marked (bank : Nat) (page : Page) (vector : UInt8) : Bool := bitAt (reg page (bankReg bank vector)) (vector.toNat % 32)

/-- The vector is to be delivered. -/
abbrev Requested : Page → UInt8 → Bool := Marked irr

/-- The vector was delivered and not acknowledged. -/
abbrev InService : Page → UInt8 → Bool := Marked isr

section Registers
variable {page page' : Page} {value : UInt32} {bank offset other : Nat} {vector w : UInt8}

@[simp] theorem reg_setReg_self (page : Page) (offset : Nat) (value : UInt32) :
    reg (setReg page offset value) offset = value := by
  have small : value.toNat % 256 ^ 4 = value.toNat := Nat.mod_eq_of_lt value.toNat_lt
  rw [reg, setReg, Memory.readLE_storeLE_self, small, UInt32.ofNat_toNat]

theorem reg_setReg_apart (apart : offset + 4 ≤ other ∨ other + 4 ≤ offset) :
    reg (setReg page other value) offset = reg page offset := by
  rw [reg, setReg, Memory.readLE_storeLE_disjoint apart, reg]

theorem place_small (vector : UInt8) : vector.toNat % 32 < 32 := Nat.mod_lt _ (by decide)

/-- A vector is found by its register and its bit there. -/
theorem vector_eq (register : vector.toNat / 32 = w.toNat / 32) (place : vector.toNat % 32 = w.toNat % 32) :
    vector = w := by
  apply UInt8.toNat_inj.mp
  rw [← Nat.div_add_mod vector.toNat 32, ← Nat.div_add_mod w.toNat 32, register, place]

theorem and_vectorBit : reg page (bankReg bank vector) &&& vectorBit vector = 0 ↔ Marked bank page vector = false := by
  rw [Marked, ← Bool.not_eq_true, ← and_bit_ne_zero (place_small vector), not_not, vectorBit]

theorem marked_apart (apart : bank + 0x74 ≤ offset ∨ offset + 4 ≤ bank) :
    Marked bank (setReg page offset value) w = Marked bank page w := by
  have bound := w.toNat_lt
  rw [Marked, reg_setReg_apart, Marked]
  unfold bankReg
  omega

/-- A register of the bank is written. -/
theorem marked_setReg : Marked bank (setReg page (bankReg bank vector) value) w =
    if w.toNat / 32 = vector.toNat / 32 then bitAt value (w.toNat % 32) else Marked bank page w := by
  by_cases same : w.toNat / 32 = vector.toNat / 32
  · have register : bankReg bank w = bankReg bank vector := by rw [bankReg, bankReg, same]
    rw [if_pos same, Marked, register, reg_setReg_self]
  · rw [if_neg same, Marked, reg_setReg_apart, Marked]
    unfold bankReg
    omega

/-- In its own register the bit of a vector is that of no other. -/
theorem bitAt_vectorBit (same : w.toNat / 32 = vector.toNat / 32) :
    bitAt (vectorBit vector) (w.toNat % 32) = decide (w = vector) := by
  rw [vectorBit, bitAt_bit (place_small vector)]
  exact decide_eq_decide.mpr ⟨fun place => vector_eq same place, fun one => by rw [one]⟩

theorem marked_set : Marked bank (setReg page (bankReg bank vector)
    (reg page (bankReg bank vector) ||| vectorBit vector)) w = (Marked bank page w || decide (w = vector)) := by
  rw [marked_setReg]
  by_cases same : w.toNat / 32 = vector.toNat / 32
  · rw [if_pos same, bitAt_or, bitAt_vectorBit same, Marked, bankReg, bankReg, same]
  · have distinct : w ≠ vector := fun one => same (by rw [one])
    simp [same, distinct]

theorem marked_clear : Marked bank (setReg page (bankReg bank vector)
    (reg page (bankReg bank vector) &&& ~~~vectorBit vector)) w = (Marked bank page w && decide (w ≠ vector)) := by
  rw [marked_setReg]
  by_cases same : w.toNat / 32 = vector.toNat / 32
  · rw [if_pos same, bitAt_clear (place_small w), bitAt_vectorBit same, Marked, bankReg, bankReg, same, decide_not]
  · have distinct : w ≠ vector := fun one => same (by rw [one])
    simp [same, distinct]

theorem clearIsr_none : clearIsr vector page = none ↔ InService page vector = false := by
  simp only [clearIsr, and_vectorBit]
  split <;> simp_all

/-- Clearing what is in service takes out that one vector and requests none. -/
theorem clearIsr_effect (cleared : clearIsr vector page = some page') (w : UInt8) :
    InService page' w = (InService page w && decide (w ≠ vector)) ∧ Requested page' w = Requested page w := by
  simp only [clearIsr, Option.ite_none_left_eq_some, Option.some.injEq] at cleared
  obtain ⟨-, rfl⟩ := cleared
  refine ⟨marked_clear, marked_apart (.inr ?_)⟩
  have bound := vector.toNat_lt
  unfold bankReg isr irr
  omega

/-- The page that an injection goes on with. -/
theorem cleared_effect (page : Page) (w : UInt8) :
    InService ((clearIsr vector page).getD page) w = (InService page w && decide (w ≠ vector)) ∧
      Requested ((clearIsr vector page).getD page) w = Requested page w := by
  rcases found : clearIsr vector page with _ | cleared
  · refine ⟨?_, rfl⟩
    by_cases one : w = vector
    · simp [one, clearIsr_none.mp found]
    · simp [one]
  · exact clearIsr_effect found w

theorem injectIrq_none : injectIrq vector page = none ↔ Requested page vector = true := by
  simp only [injectIrq, and_vectorBit, (cleared_effect page vector).2]
  split <;> simp_all

/-- An injection requests its vector, takes it out of service, and leaves the
other vectors as they were. -/
theorem injectIrq_effect (injected : injectIrq vector page = some page') (w : UInt8) :
    Requested page' w = (Requested page w || decide (w = vector)) ∧
      InService page' w = (InService page w && decide (w ≠ vector)) := by
  simp only [injectIrq, Option.ite_none_right_eq_some, Option.some.injEq] at injected
  obtain ⟨-, rfl⟩ := injected
  rw [← (cleared_effect page w).1, ← (cleared_effect page w).2]
  refine ⟨marked_set, marked_apart (.inl ?_)⟩
  unfold bankReg isr irr
  omega

/-- Whatever the registers held, the APIC is enabled and its first local
interrupt is unmasked and of the PIC's kind. -/
theorem enabled_effect (page : Page) : bitAt (reg (enabled page) svr) 8 = true ∧
    reg (enabled page) lint0 &&& 0x10700 = 0x700 := by
  constructor
  · rw [enabled, reg_setReg_apart (by decide), reg_setReg_self, bitAt_or, bitAt_bit (by decide)]
    simp
  · have within : ∀ k < 32, (bitAt 0x700 k && bitAt 0x10700 k) = bitAt 0x700 k := by decide
    rw [enabled, reg_setReg_self]
    refine bitAt_ext fun k small => ?_
    rw [bitAt_and, bitAt_or, bitAt_clear small, Bool.and_or_distrib_right, within k small, Bool.and_assoc,
      Bool.not_and_self, Bool.and_false, Bool.false_or]

end Registers
end TinyMachine.Lapic
