import Mathlib.Algebra.Group.Nat.Defs
import Mathlib.Data.List.Infix

/-! The synthetic PCIe root port at 00:01.0. Its configuration space is 256
bytes; a write is accepted or ignored by the offset it starts at, and an
accepted one stores up to four bytes from there on. -/
namespace TinyMachine.PciRootPort

def configSpaceSize : Nat := 256

/-- The bridge's cached bus numbers and its configuration bytes. -/
structure PcieRootPort where
  primaryBus : UInt8
  secondaryBus : UInt8
  subordinateBus : UInt8
  config : Vector UInt8 256
  deriving DecidableEq, Repr

def PcieRootPort.byteAt (port : PcieRootPort) (i : Fin 256) : UInt8 := port.config[i]

/-- What `init_config` stores outside the bus numbers, header first and then
the power management and PCI Express capabilities. -/
def template : List (Nat × UInt8) :=
  [(0x00, 0x36), (0x01, 0x1b), (0x02, 0x0c), (0x03, 0x00), (0x04, 0x07), (0x05, 0x00),
    (0x06, 0x10), (0x07, 0x00), (0x08, 0x00), (0x09, 0x04), (0x0a, 0x06), (0x0b, 0x00),
    (0x0c, 0x10), (0x0d, 0x00), (0x0e, 0x01), (0x0f, 0x00), (0x1b, 0x00), (0x1c, 0x00),
    (0x1d, 0xF0), (0x1e, 0x00), (0x1f, 0x00), (0x20, 0xE0), (0x21, 0x00), (0x22, 0xF0),
    (0x23, 0x00), (0x24, 0x01), (0x25, 0x00), (0x26, 0x00), (0x27, 0x00), (0x28, 0x10),
    (0x29, 0x00), (0x2a, 0x00), (0x2b, 0x00), (0x2c, 0x20), (0x2d, 0x00), (0x2e, 0x00),
    (0x2f, 0x00), (0x34, 0x40), (0x3c, 0x00), (0x3d, 0x00), (0x3e, 0x00), (0x3f, 0x00),
    -- Power management capability.
    (0x40, 0x01), (0x41, 0x48), (0x42, 0x02), (0x43, 0x00), (0x44, 0x00), (0x45, 0x00),
    (0x46, 0x00), (0x47, 0x00),
    -- PCI Express capability, root port type.
    (0x48, 0x10), (0x49, 0x00), (0x4a, 0x42), (0x4b, 0x00), (0x4c, 0x00), (0x4d, 0x80),
    (0x4e, 0x00), (0x4f, 0x00), (0x50, 0x00), (0x51, 0x00), (0x52, 0x10), (0x53, 0x00),
    (0x54, 0xc3), (0x55, 0xee), (0x56, 0x04), (0x57, 0x00), (0x58, 0x00), (0x59, 0x00),
    (0x5a, 0x03), (0x5b, 0x31), (0x5c, 0x40), (0x5d, 0x00), (0x5e, 0x00), (0x5f, 0x00),
    (0x60, 0x00), (0x61, 0x00), (0x62, 0x00), (0x63, 0x00), (0x64, 0x00), (0x65, 0x00),
    (0x66, 0x00), (0x67, 0x00), (0x68, 0x00), (0x69, 0x00), (0x6a, 0x00), (0x6b, 0x00),
    (0x6c, 0x20), (0x6d, 0x00), (0x6e, 0x1c), (0x6f, 0x00), (0x70, 0x00), (0x71, 0x00),
    (0x72, 0x00), (0x73, 0x00), (0x74, 0xc3), (0x75, 0xcf), (0x76, 0x07), (0x77, 0x00),
    (0x78, 0x03), (0x79, 0x00), (0x7a, 0x03), (0x7b, 0x00)]

/-- `init_config`: the template and the three bus numbers over the bytes given. -/
def initConfig (port : PcieRootPort) : PcieRootPort :=
  let stored := template.foldl (fun config entry => config.setIfInBounds entry.1 entry.2)
    port.config
  let primary := stored.setIfInBounds 0x18 port.primaryBus
  let secondary := primary.setIfInBounds 0x19 port.secondaryBus
  { port with config := secondary.setIfInBounds 0x1A port.subordinateBus }

/-- A port as `new` builds it: buses 0, 1 and 1. -/
def new : PcieRootPort :=
  initConfig { primaryBus := 0, secondaryBus := 1, subordinateBus := 1
               config := Vector.replicate 256 0 }

/-- `(val >> (k * 8)) & 0xFF`, the byte of `val` that belongs at distance `k`. -/
def byteOf (val : UInt32) (k : Nat) : UInt8 :=
  ((val >>> UInt32.ofNat (k * 8)) &&& 0xFF).toUInt8

theorem byteOf_toNat {val : UInt32} {k : Nat} (low : k < 4) : (byteOf val k).toNat = val.toNat / 2 ^ (8 * k) % 256 := by
  have shift : (UInt32.ofNat (k * 8)).toNat % 32 = 8 * k := by
    rw [UInt32.toNat_ofNat']
    omega
  have ones : (0xFF : UInt32).toNat = 2 ^ 8 - 1 := rfl
  rw [byteOf, UInt32.toNat_toUInt8, UInt32.toNat_and, UInt32.toNat_shiftRight, shift, ones,
    Nat.and_two_pow_sub_one_eq_mod, Nat.mod_mod, Nat.shiftRight_eq_div_pow]

theorem byteOf_zero {val : UInt32} : byteOf val 0 = val.toUInt8 := by
  refine UInt8.toNat_inj.mp ?_
  rw [byteOf_toNat (by decide), UInt32.toNat_toUInt8, Nat.mul_zero, Nat.pow_zero, Nat.div_one]

/-- The loop of `config_write`: the low `count` bytes of `val` from `offset` on. -/
def storeBytes (config : Vector UInt8 256) (offset : Nat) (val : UInt32) :
    Nat → Vector UInt8 256
  | 0 => config
  | count + 1 =>
    (storeBytes config offset val count).setIfInBounds (offset + count) (byteOf val count)

/-- The loop of `config_read`: `count` bytes from `offset` on, lowest first. -/
def loadBytes (config : Vector UInt8 256) (offset : Nat) : Nat → UInt32
  | 0 => 0
  | count + 1 =>
    loadBytes config offset count
      ||| ((config.getD (offset + count) 0).toUInt32 <<< UInt32.ofNat (count * 8))

/-- The end of an access: at most four bytes, and never past the space. -/
def accessEnd (offset size : Nat) : Nat :=
  min (offset + min size 4) configSpaceSize

def PcieRootPort.configRead (port : PcieRootPort) (regOffset : UInt16) (size : Nat) : UInt32 :=
  if configSpaceSize ≤ regOffset.toNat then
    0xFFFFFFFF
  else
    let offset := regOffset.toNat
    loadBytes port.config offset (accessEnd offset size - offset)

/-- The starting offsets the match of `config_write` answers with `true`,
the three bus numbers apart. -/
def rwRegisters : List Nat :=
  [0x04, 0x05, 0x0C, 0x1B, 0x1C, 0x1D, 0x1E, 0x1F, 0x20, 0x21, 0x22, 0x23, 0x24, 0x25, 0x26, 0x27,
    0x28, 0x29, 0x2A, 0x2B, 0x2C, 0x2D, 0x2E, 0x2F, 0x30, 0x31, 0x32, 0x33, 0x38, 0x39, 0x3A, 0x3B,
    0x3C, 0x3E, 0x3F, 0x44, 0x45, 0x50, 0x51, 0x58, 0x59, 0x60, 0x61, 0x64, 0x65, 0x70, 0x71,
    0x78, 0x79]

/-- Whether the write was accepted, and the port afterwards. A bus number takes
one byte whatever the size; every other accepted write takes `size` bytes. -/
def PcieRootPort.configWrite (port : PcieRootPort) (regOffset : UInt16) (size : Nat) (val : UInt32) :
    Bool × PcieRootPort :=
  let offset := regOffset.toNat
  if configSpaceSize ≤ offset ∨ size = 0 then
    (false, port)
  else if offset = 0x18 then
    (true, { port with
      primaryBus := val.toUInt8, config := port.config.setIfInBounds 0x18 val.toUInt8 })
  else if offset = 0x19 then
    (true, { port with
      secondaryBus := val.toUInt8, config := port.config.setIfInBounds 0x19 val.toUInt8 })
  else if offset = 0x1A then
    (true, { port with
      subordinateBus := val.toUInt8, config := port.config.setIfInBounds 0x1A val.toUInt8 })
  else if offset ∈ rwRegisters then
    (true, { port with
      config := storeBytes port.config offset val (accessEnd offset size - offset) })
  else
    (false, port)

/-- The arguments of one `config_write` call. -/
structure ConfigWrite where
  regOffset : UInt16
  size : Nat
  val : UInt32
  deriving DecidableEq, Repr

def apply (port : PcieRootPort) (write : ConfigWrite) : PcieRootPort :=
  (port.configWrite write.regOffset write.size write.val).2

def writeAll (port : PcieRootPort) (writes : List ConfigWrite) : PcieRootPort :=
  writes.foldl apply port

/-- The bytes the match does not name: "all other offsets are RO or reserved". -/
def ReadOnly (i : Fin 256) : Prop :=
  i.val ∉ rwRegisters ∧ i.val ∉ [0x18, 0x19, 0x1A]

instance (i : Fin 256) : Decidable (ReadOnly i) := by
  unfold ReadOnly; infer_instance

/-- Vendor and device, status, revision and class, header type, capability
pointer and the two capability headers are among them. -/
example : ∀ i ∈ [(0x00 : Fin 256), 0x01, 0x02, 0x03, 0x06, 0x07, 0x08, 0x09, 0x0A, 0x0B, 0x0E,
    0x34, 0x40, 0x41, 0x42, 0x43, 0x48, 0x49, 0x4A, 0x4B], ReadOnly i := by decide +kernel

/-- A write starts at a writable register and reaches byte `i`. -/
def Covers (write : ConfigWrite) (i : Fin 256) : Prop :=
  write.regOffset.toNat ∈ rwRegisters ∧ write.regOffset.toNat ≤ i.val ∧
    i.val < write.regOffset.toNat + min write.size 4

/-- Such a write brings another value than the one the byte starts with. -/
def Overwrites (write : ConfigWrite) (i : Fin 256) : Prop :=
  Covers write i ∧ byteOf write.val (i.val - write.regOffset.toNat) ≠ new.config[i]

instance (write : ConfigWrite) (i : Fin 256) : Decidable (Covers write i) := by
  unfold Covers; infer_instance

instance (write : ConfigWrite) (i : Fin 256) : Decidable (Overwrites write i) := by
  unfold Overwrites; infer_instance

theorem store_bytes_get (config : Vector UInt8 256) (offset : Nat) (val : UInt32) (count : Nat)
    (i : Fin 256) :
    (storeBytes config offset val count)[i] =
      if offset ≤ i.val ∧ i.val < offset + count then byteOf val (i.val - offset)
      else config[i] := by
  induction count with
  | zero =>
    have outside : ¬ (offset ≤ i.val ∧ i.val < offset + 0) := by omega
    rw [if_neg outside]
    rfl
  | succ count ih =>
    simp only [storeBytes, Fin.getElem_fin, Vector.getElem_setIfInBounds] at ih ⊢
    by_cases last : offset + count = i.val
    · have distance : i.val - offset = count := by omega
      rw [if_pos last, if_pos (by omega), distance]
    · rw [if_neg last, ih]
      by_cases inside : offset ≤ i.val ∧ i.val < offset + count
      · rw [if_pos inside, if_pos (by omega)]
      · rw [if_neg inside, if_neg (by omega)]

private theorem bus_register_is_not_rw {offset : Nat} (rw : offset ∈ rwRegisters) :
    offset ≠ 0x18 ∧ offset ≠ 0x19 ∧ offset ≠ 0x1A := by
  refine ⟨?_, ?_, ?_⟩
  all_goals
    rintro rfl
    revert rw
    decide

private theorem set_elsewhere (config : Vector UInt8 256) (at_ : Nat) (byte : UInt8) (i : Fin 256)
    (elsewhere : i.val ≠ at_) : (config.setIfInBounds at_ byte)[i] = config[i] := by
  simp only [Fin.getElem_fin]
  exact Vector.getElem_setIfInBounds_ne i.isLt (Ne.symm elsewhere)

/-- A write at a writable register stores its bytes and touches no bus number. -/
theorem apply_rw (port : PcieRootPort) (write : ConfigWrite)
    (rw : write.regOffset.toNat ∈ rwRegisters) (nonempty : write.size ≠ 0) :
    apply port write = { port with
      config := storeBytes port.config write.regOffset.toNat write.val
        (accessEnd write.regOffset.toNat write.size - write.regOffset.toNat) } := by
  obtain ⟨notPrimary, notSecondary, notSubordinate⟩ := bus_register_is_not_rw rw
  have bounded : write.regOffset.toNat < 256 := by
    revert rw
    generalize write.regOffset.toNat = offset
    exact fun rw => (by decide : ∀ offset ∈ rwRegisters, offset < 256) offset rw
  have inSpace : ¬ (configSpaceSize ≤ write.regOffset.toNat ∨ write.size = 0) := by
    rintro (beyond | empty)
    · exact absurd bounded (Nat.not_lt.mpr beyond)
    · exact nonempty empty
  simp only [apply, PcieRootPort.configWrite, inSpace, notPrimary, notSecondary, notSubordinate, rw, if_true,
    if_false]

/-- Any other write changes at most a bus-number byte. -/
theorem apply_elsewhere (port : PcieRootPort) (write : ConfigWrite) (i : Fin 256)
    (notBus : i.val ∉ [0x18, 0x19, 0x1A])
    (other : write.regOffset.toNat ∉ rwRegisters ∨ write.size = 0) :
    (apply port write).config[i] = port.config[i] := by
  simp only [List.mem_cons, List.not_mem_nil, or_false, not_or] at notBus
  obtain ⟨notPrimary, notSecondary, notSubordinate⟩ := notBus
  simp only [apply, PcieRootPort.configWrite]
  split
  · rfl
  · rename_i inSpace
    have unlisted : write.regOffset.toNat ∉ rwRegisters :=
      other.resolve_right fun empty => inSpace (Or.inr empty)
    split
    · exact set_elsewhere _ _ _ _ notPrimary
    · split
      · exact set_elsewhere _ _ _ _ notSecondary
      · split
        · exact set_elsewhere _ _ _ _ notSubordinate
        · rfl

/-- One write seen from a read-only byte: the byte takes what the write brings
to it when covered, and stays otherwise. -/
theorem apply_read_only (port : PcieRootPort) (write : ConfigWrite) (i : Fin 256)
    (readOnly : ReadOnly i) :
    (Covers write i → (apply port write).config[i] =
        byteOf write.val (i.val - write.regOffset.toNat)) ∧
      (¬ Covers write i → (apply port write).config[i] = port.config[i]) := by
  by_cases stores : write.regOffset.toNat ∈ rwRegisters ∧ write.size ≠ 0
  · obtain ⟨rw, nonempty⟩ := stores
    have bounded := i.isLt
    rw [apply_rw port write rw nonempty]
    simp only [store_bytes_get, Covers, accessEnd, configSpaceSize]
    constructor
    · rintro ⟨-, starts, reaches⟩
      rw [if_pos (by omega)]
    · intro outside
      rw [if_neg]
      intro inside
      exact outside ⟨rw, by omega, by omega⟩
  · have other : write.regOffset.toNat ∉ rwRegisters ∨ write.size = 0 := by
      by_cases rw : write.regOffset.toNat ∈ rwRegisters
      · exact Or.inr (by_contra fun nonempty => stores ⟨rw, nonempty⟩)
      · exact Or.inl rw
    constructor
    · rintro ⟨rw, starts, reaches⟩
      have empty : write.size = 0 := other.resolve_left fun unlisted => unlisted rw
      omega
    · intro _
      exact apply_elsewhere port write i readOnly.2 other

private theorem holds_from_iff (port : PcieRootPort) (writes : List ConfigWrite) (i : Fin 256)
    (readOnly : ReadOnly i) (start : port.config[i] = new.config[i]) :
    (∀ prior, prior <+: writes → (writeAll port prior).config[i] = new.config[i]) ↔
      ∀ write ∈ writes, ¬ Overwrites write i := by
  induction writes generalizing port with
  | nil =>
    constructor
    · intro _ write absent
      cases absent
    · intro _ prior isPrefix
      rw [List.prefix_nil.mp isPrefix]
      exact start
  | cons write rest ih =>
    obtain ⟨covered, spared⟩ := apply_read_only port write i readOnly
    by_cases changed : Overwrites write i
    · constructor
      · intro held
        have after := held [write] ⟨rest, rfl⟩
        exact absurd ((covered changed.1).symm.trans after) changed.2
      · intro harmless
        exact absurd changed (harmless write List.mem_cons_self)
    · have kept : (apply port write).config[i] = new.config[i] := by
        by_cases covers : Covers write i
        · rw [covered covers]
          exact by_contra fun differs => changed ⟨covers, differs⟩
        · rw [spared covers, start]
      have tail := ih (apply port write) kept
      constructor
      · intro held
        have restHarmless := tail.mp fun prior isPrefix =>
          held (write :: prior) (List.cons_prefix_cons.mpr ⟨rfl, isPrefix⟩)
        intro other member
        rcases List.mem_cons.mp member with rfl | member
        · exact changed
        · exact restHarmless other member
      · intro harmless prior isPrefix
        have restHeld := tail.mpr fun other member =>
          harmless other (List.mem_cons_of_mem _ member)
        cases prior with
        | nil => exact start
        | cons first others =>
          obtain ⟨same, shorter⟩ := List.cons_prefix_cons.mp isPrefix
          rw [same]
          exact restHeld others shorter

/-- A read-only byte keeps its initial value throughout a sequence of writes
exactly when no write starts at a writable register and reaches the byte with
another value: the code asks only whether the first byte is writable. -/
theorem read_only_byte_held_iff (writes : List ConfigWrite) (i : Fin 256) (readOnly : ReadOnly i) :
    (∀ prior, prior <+: writes → (writeAll new prior).config[i] = new.config[i]) ↔
      ∀ write ∈ writes, ¬ Overwrites write i :=
  holds_from_iff new writes i readOnly rfl

/-- Writing Command as a word keeps the vendor, whatever else was written. -/
theorem vendor_byte_held :
    (∀ prior, prior <+: [⟨0x04, 2, 0x0005⟩, ⟨0x00, 2, 0xffff⟩] →
      (writeAll new prior).config[(0 : Fin 256)] = new.config[(0 : Fin 256)]) ↔ True :=
  (read_only_byte_held_iff [⟨0x04, 2, 0x0005⟩, ⟨0x00, 2, 0xffff⟩] 0 (by decide)).trans
    (iff_true_intro (by decide))

/-- A dword written to Command also replaces Status. -/
theorem status_is_overwritten :
    ¬ ∀ (writes : List ConfigWrite) (i : Fin 256), ReadOnly i →
      ∀ prior, prior <+: writes → (writeAll new prior).config[i] = new.config[i] := by
  intro held
  have status := held [⟨0x04, 4, 0xFFFF0007⟩] 6 (by decide) _ (List.prefix_refl _)
  revert status
  decide +kernel

end TinyMachine.PciRootPort
