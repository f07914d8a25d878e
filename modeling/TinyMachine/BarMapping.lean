import Mathlib.Data.List.Perm.Subperm
import TinyMachine.BarAssignment

/-! The two ways in which the memory of a BAR comes into the guest: a loop over the
regions before the boot, and one BAR at a time when the guest first touches it. -/
namespace TinyMachine.Vfio
open Lib

/-- A device as it is reported, with what its file gives: every region is asked for
once, and a read gives four bytes or nothing. -/
structure Device where
  regions : List BarRegionInfo
  once : (regions.map BarRegionInfo.index).Nodup
  config : ConfigRegion
  pread : UInt64 → Option UInt32

/-- Whether `mmap` and the ioctl for a slot succeed. -/
structure Outcome where
  mmap : Bool
  ioctl : Bool

/-- A slot that the hypervisor has taken, for the memory of a BAR at an offset of the device file. -/
structure Slot where
  index : UInt32
  slot : UInt32
  guestPhys : UInt64
  size : UInt64
  offset : UInt64
  deriving DecidableEq

/-! ## Before the boot -/

def vfioBarSlotBase : UInt32 := 250
def vfioMaxBarSlots : UInt32 := 10

/-- `read_guest_bar_addr`. No sum overflows, as the index is at most 5. -/
def Device.readGuestBarAddr (device : Device) (barIndex : UInt32) : UInt64 :=
  let position := device.config.offset + (barReg barIndex).toUInt64
  match device.pread position with
  | none => 0
  | some rawVal =>
    if rawVal &&& 1 ≠ 0 then 0
    else
      let base := (rawVal &&& 0xFFFFFFF0).toUInt64
      if barType rawVal = 2 then
        match device.pread (position + 4) with
        | none => base
        | some upper => (upper.toUInt64 <<< 32) ||| base
      else base

/-- The loop of `map_guest_bar_slots` from a slot number on. -/
def mapBars (device : Device) (outcome : BarRegionInfo → Outcome) : UInt32 → List BarRegionInfo → List Slot
  | _, [] => []
  | slot, bar :: bars =>
    if bar.index > 5 ∨ ¬ bar.canMmap ∨ bar.size = 0 then mapBars device outcome slot bars
    else
      let guestPhys := device.readGuestBarAddr bar.index
      if guestPhys = 0 then mapBars device outcome slot bars
      else if ¬ (outcome bar).mmap then mapBars device outcome slot bars
      else if ¬ (outcome bar).ioctl then mapBars device outcome slot bars
      else
        ⟨bar.index, slot, guestPhys, bar.size, bar.offset⟩ ::
          if slot + 1 ≥ vfioBarSlotBase + vfioMaxBarSlots then [] else mapBars device outcome (slot + 1) bars

def mapGuestBarSlots (device : Device) (outcome : BarRegionInfo → Outcome) : List Slot :=
  mapBars device outcome vfioBarSlotBase device.regions

/-! ## At the first access -/

/-- The BARs that are handed to the handler of exits. -/
def Device.bars (device : Device) : List (UInt32 × UInt64) :=
  (device.regions.filter fun bar => bar.index ≤ 5 ∧ bar.canMmap ∧ bar.size > 0).map fun bar => (bar.index, bar.size)

/-- The BARs mapped, one bit each, the next slot, and the slots taken. -/
structure MmioInfo where
  mappedBars : UInt64
  nextSlot : UInt32
  slots : List Slot

def MmioInfo.start : MmioInfo := ⟨0, 100, []⟩

/-- `read_bar_addr`. No sum overflows, as the index is at most 5. -/
def Device.readBarAddr (device : Device) (barIndex : UInt32) : UInt64 :=
  let configOffset := device.config.offset + 0x10 + barIndex.toUInt64 * 4
  match device.pread configOffset with
  | none => 0
  | some low =>
    if barType low = 2 then
      match device.pread (configOffset + 4) with
      | none => (low &&& 0xFFFFFFF0).toUInt64
      | some high => (high.toUInt64 <<< 32) ||| (low &&& 0xFFFFFFF0).toUInt64
    else (low &&& 0xFFFFFFF0).toUInt64

def lazyMapBar (mode : Overflow) (device : Device) (info : MmioInfo) (barIndex : UInt32) (guestAddr : UInt64)
    (outcome : Outcome) : Option (Bool × MmioInfo) := do
  let bit ← mode.fit (barIndex < 64) ((1 : UInt64) <<< barIndex.toUInt64)
  if info.mappedBars &&& bit ≠ 0 then return (true, info)
  match device.bars.find? fun bar => bar.1 = barIndex with
  | none => return (false, info)
  | some (_, barSize) =>
    if barSize = 0 then return (false, info)
    let alignedAddr := guestAddr &&& ~~~ 0xFFF
    let stop ← mode.add64 guestAddr barSize
    let rounded ← mode.add64 stop 0xFFF
    let alignedSize ← mode.sub64 (rounded &&& ~~~ 0xFFF) alignedAddr
    let vfioBarOffset := barIndex.toUInt64 <<< 12
    if ¬ outcome.mmap then return (false, info)
    let slot := info.nextSlot
    let nextSlot ← mode.add32 slot 1
    if ¬ outcome.ioctl then return (false, { info with nextSlot })
    return (true, {
      mappedBars := info.mappedBars ||| bit
      nextSlot
      slots := info.slots ++ [⟨barIndex, slot, alignedAddr, alignedSize, vfioBarOffset⟩] })

/-! ## The same slots -/

def BarRegionInfo.Mappable (bar : BarRegionInfo) : Prop := bar.index ≤ 5 ∧ bar.canMmap ∧ bar.size > 0

/-- The first register of a BAR. -/
def Device.register (device : Device) (barIndex : UInt32) : Option UInt32 :=
  device.pread (device.config.offset + 0x10 + barIndex.toUInt64 * 4)

/-- The address that the registers of a BAR hold, 0 for none. -/
def Device.address (device : Device) (barIndex : UInt32) : Nat :=
  match device.register barIndex with
  | none => 0
  | some low =>
    low.toNat / 2 ^ 4 * 2 ^ 4 +
      if barType low = 2 then
        match device.pread (device.config.offset + 0x10 + barIndex.toUInt64 * 4 + 4) with
        | none => 0
        | some high => 2 ^ 32 * high.toNat
      else 0

def Device.IoBar (device : Device) (barIndex : UInt32) : Prop :=
  ∃ raw, device.register barIndex = some raw ∧ raw &&& 1 ≠ 0

/-- The slot without its number. -/
def Slot.mapping (slot : Slot) : UInt32 × UInt64 × UInt64 × UInt64 := (slot.index, slot.guestPhys, slot.size, slot.offset)

def Slot.span (slot : Slot) : Span := ⟨slot.guestPhys.toNat, slot.guestPhys.toNat + slot.size.toNat⟩

/-- An exit at an address inside a BAR that has one. -/
structure Exit (device : Device) where
  bar : BarRegionInfo
  listed : bar ∈ device.regions
  mappable : bar.Mappable
  assigned : device.address bar.index ≠ 0
  address : Nat
  inside : device.address bar.index ≤ address ∧ address < device.address bar.index + bar.size.toNat
  outcome : Outcome

/-- The handler hands on the address of the BAR, wherever in it the exit is. -/
def handle (mode : Overflow) (device : Device) (info : MmioInfo) (exit : Exit device) : Option MmioInfo :=
  (lazyMapBar mode device info exit.bar.index (device.readBarAddr exit.bar.index) exit.outcome).map Prod.snd

def lazyRun (mode : Overflow) (device : Device) (exits : List (Exit device)) : Option MmioInfo :=
  exits.foldlM (handle mode device) .start

/-- What the loop before the boot maps when nothing fails. -/
def Device.eager (device : Device) : List (UInt32 × UInt64 × UInt64 × UInt64) :=
  (mapGuestBarSlots device fun _ => ⟨true, true⟩).map Slot.mapping

/-- Both ways map the same BARs to the same place, and one BAR at a time leaves
disjoint slots, one for each BAR at most. -/
structure Agrees (mode : Overflow) (device : Device) : Prop where
  created : ∀ exit : Exit device, exit.outcome = ⟨true, true⟩ →
    ∃ info slot, handle mode device .start exit = some info ∧ info.slots = [slot] ∧
      slot.index = exit.bar.index ∧ slot.mapping ∈ device.eager
  mappable : ∀ mapping ∈ device.eager, ∃ exit : Exit device, exit.bar.index = mapping.1
  runs : ∀ exits info, lazyRun mode device exits = some info →
    info.slots.Pairwise (fun one other => one.span.Disjoint other.span) ∧ (info.slots.map Slot.index).Nodup ∧
      ∀ slot ∈ info.slots, slot.mapping ∈ device.eager

def barSpan (device : Device) (bar : BarRegionInfo) : Span :=
  ⟨device.address bar.index, device.address bar.index + bar.size.toNat⟩

/-- The BAR is memory that fills whole pages at an offset of one page for its index. -/
structure Whole (mode : Overflow) (device : Device) (bar : BarRegionInfo) : Prop where
  memory : ¬ device.IoBar bar.index
  address : 4096 ∣ device.address bar.index
  size : 4096 ∣ bar.size.toNat
  offset : bar.offset.toNat = 4096 * bar.index.toNat
  fits : mode = .wrapping ∨ device.address bar.index + bar.size.toNat + 4095 < 2 ^ 64

/-- The BARs that have an address are whole pages, and apart. -/
structure Plain (mode : Overflow) (device : Device) : Prop where
  each : ∀ bar ∈ device.regions, bar.Mappable → device.address bar.index ≠ 0 → Whole mode device bar
  apart : ∀ bar ∈ device.regions, ∀ other ∈ device.regions, bar.Mappable → other.Mappable →
    device.address bar.index ≠ 0 → device.address other.index ≠ 0 → bar.index ≠ other.index →
      (barSpan device bar).Disjoint (barSpan device other)

/-! ## The addresses -/

section Addresses
variable {device : Device} {barIndex : UInt32}

theorem toNat_low (low : UInt32) : (low &&& 0xFFFFFFF0).toUInt64.toNat = low.toNat / 2 ^ 4 * 2 ^ 4 := by
  rw [UInt32.toNat_toUInt64, UInt32.toNat_and, show (0xFFFFFFF0 : UInt32).toNat = (2 ^ 28 - 1) * 2 ^ 4 from rfl]
  exact and_upper low.toNat_lt

theorem toNat_wide (low high : UInt32) : ((high.toUInt64 <<< 32) ||| (low &&& 0xFFFFFFF0).toUInt64).toNat =
    low.toNat / 2 ^ 4 * 2 ^ 4 + 2 ^ 32 * high.toNat := by
  have lowFits : low.toNat / 2 ^ 4 * 2 ^ 4 < 2 ^ 32 := Nat.lt_of_le_of_lt (Nat.div_mul_le_self ..) low.toNat_lt
  have highFits : high.toNat < 2 ^ 32 := high.toNat_lt
  have shifted : (high.toUInt64 <<< 32).toNat = high.toNat <<< 32 := by
    rw [UInt64.toNat_shiftLeft, UInt32.toNat_toUInt64]
    simp only [UInt64.reduceToNat, Nat.reduceMod, Nat.shiftLeft_eq]
    omega
  rw [UInt64.toNat_or, shifted, toNat_low, ← Nat.shiftLeft_add_eq_or_of_lt lowFits, Nat.shiftLeft_eq,
    Nat.add_comm, Nat.mul_comm high.toNat]

theorem toNat_readBarAddr (device : Device) (barIndex : UInt32) :
    (device.readBarAddr barIndex).toNat = device.address barIndex := by
  rw [Device.readBarAddr, Device.address, Device.register]
  cases device.pread (device.config.offset + 0x10 + barIndex.toUInt64 * 4) with
  | none => rfl
  | some low =>
    dsimp only
    split
    · cases device.pread (device.config.offset + 0x10 + barIndex.toUInt64 * 4 + 4) with
      | none => exact toNat_low low
      | some high => exact toNat_wide low high
    · exact toNat_low low

/-- Both read the same registers; the I/O bit is looked at before the boot only. -/
theorem readGuestBarAddr_eq (device : Device) (low : barIndex ≤ 5) :
    (device.IoBar barIndex → device.readGuestBarAddr barIndex = 0) ∧
      (¬ device.IoBar barIndex → device.readGuestBarAddr barIndex = device.readBarAddr barIndex) := by
  have few : barIndex.toNat ≤ 5 := UInt32.le_iff_toNat_le.mp low
  have register : device.config.offset + (barReg barIndex).toUInt64 =
      device.config.offset + 0x10 + barIndex.toUInt64 * 4 := by
    rw [UInt64.add_assoc]
    congr 1
    apply UInt64.toNat_inj.mp
    rw [barReg, UInt32.toNat_toUInt64, UInt32.toNat_add, UInt32.toNat_mul, UInt64.toNat_add, UInt64.toNat_mul,
      UInt32.toNat_toUInt64]
    simp only [UInt32.reduceToNat, UInt64.reduceToNat]
    omega
  rw [Device.IoBar, Device.register, Device.readGuestBarAddr, Device.readBarAddr, register]
  cases device.pread (device.config.offset + 0x10 + barIndex.toUInt64 * 4) with
  | none => simp
  | some raw =>
    constructor
    · rintro ⟨_, ⟨⟩, io⟩
      exact if_pos io
    · intro memory
      exact if_neg fun io => memory ⟨raw, rfl, io⟩

end Addresses

/-! ## Before the boot -/

section Eager
variable {device : Device} {bar : BarRegionInfo} {bars : List BarRegionInfo}

instance (bar : BarRegionInfo) : Decidable bar.Mappable := inferInstanceAs (Decidable (_ ∧ _ ∧ _))

theorem mappable_iff (bar : BarRegionInfo) : bar.Mappable ↔ ¬ (bar.index > 5 ∨ ¬ bar.canMmap ∨ bar.size = 0) := by
  have order : bar.index ≤ 5 ↔ ¬ bar.index > 5 := UInt32.not_lt.symm
  have present : bar.size > 0 ↔ bar.size ≠ 0 := UInt64.pos_iff_ne_zero
  rw [BarRegionInfo.Mappable, order, present, not_or, not_or, not_not]

/-- At most six regions are BARs. -/
theorem mappable_length (device : Device) : (device.regions.filter fun bar => bar.Mappable).length ≤ 6 := by
  have distinct : ((device.regions.filter fun bar => bar.Mappable).map BarRegionInfo.index).Nodup :=
    device.once.sublist (List.filter_sublist.map _)
  have few : (device.regions.filter fun bar => bar.Mappable).map BarRegionInfo.index ⊆ [0, 1, 2, 3, 4, 5] := by
    intro index there
    obtain ⟨bar, listed, rfl⟩ := List.mem_map.mp there
    have mappable : bar.Mappable := of_decide_eq_true (List.mem_filter.mp listed).2
    have small : bar.index.toNat ≤ 5 := UInt32.le_iff_toNat_le.mp mappable.1
    have one : bar.index.toNat = 0 ∨ bar.index.toNat = 1 ∨ bar.index.toNat = 2 ∨ bar.index.toNat = 3 ∨
        bar.index.toNat = 4 ∨ bar.index.toNat = 5 := by omega
    rcases one with one | one | one | one | one | one <;> simp [← UInt32.toNat_inj, one]
  have short := (distinct.subperm few).length_le
  rwa [List.length_map] at short

/-- What the loop maps of one BAR. -/
def Device.mapped (device : Device) (bar : BarRegionInfo) : Option (UInt32 × UInt64 × UInt64 × UInt64) :=
  if bar.Mappable ∧ device.readGuestBarAddr bar.index ≠ 0 then
    some (bar.index, device.readGuestBarAddr bar.index, bar.size, bar.offset)
  else none

theorem mapBars_mapping {slot : UInt32} (bound : slot.toNat + (bars.filter fun bar => bar.Mappable).length < 260) :
    (mapBars device (fun _ => ⟨true, true⟩) slot bars).map Slot.mapping = bars.filterMap device.mapped := by
  induction bars generalizing slot with
  | nil => rfl
  | cons bar bars ih =>
    rw [mapBars, List.filterMap_cons]
    by_cases mappable : bar.Mappable
    · have counted : ((bar :: bars).filter fun bar => bar.Mappable).length =
          (bars.filter fun bar => bar.Mappable).length + 1 := by
        simp [mappable]
      rw [counted] at bound
      rw [if_neg ((mappable_iff bar).mp mappable)]
      by_cases unassigned : device.readGuestBarAddr bar.index = 0
      · have left : device.mapped bar = none := if_neg fun both => both.2 unassigned
        rw [left]
        dsimp only
        rw [if_pos unassigned]
        exact ih (by omega)
      · have one : (1 : UInt32).toNat = 1 := rfl
        have next : (slot + 1).toNat = slot.toNat + 1 := by
          rw [UInt32.toNat_add, one, Nat.mod_eq_of_lt (by omega)]
        have free : ¬ slot + 1 ≥ vfioBarSlotBase + vfioMaxBarSlots := by
          intro full
          have full : 260 ≤ (slot + 1).toNat := UInt32.le_iff_toNat_le.mp full
          omega
        have kept : device.mapped bar = some (bar.index, device.readGuestBarAddr bar.index, bar.size, bar.offset) :=
          if_pos ⟨mappable, unassigned⟩
        rw [kept]
        dsimp only
        rw [if_neg unassigned, if_neg (by decide), if_neg (by decide), if_neg free, List.map_cons, ih (by omega)]
        rfl
    · have counted : (bar :: bars).filter (fun bar => bar.Mappable) = bars.filter fun bar => bar.Mappable := by
        simp [mappable]
      rw [counted] at bound
      have left : device.mapped bar = none := if_neg fun both => mappable both.1
      rw [if_pos (not_not.mp (mt (mappable_iff bar).mpr mappable)), left]
      exact ih bound

theorem mem_eager {mapping : UInt32 × UInt64 × UInt64 × UInt64} : mapping ∈ device.eager ↔
    ∃ bar ∈ device.regions, bar.Mappable ∧ device.readGuestBarAddr bar.index ≠ 0 ∧
      mapping = (bar.index, device.readGuestBarAddr bar.index, bar.size, bar.offset) := by
  have base : vfioBarSlotBase.toNat = 250 := rfl
  have few := mappable_length device
  rw [Device.eager, mapGuestBarSlots, mapBars_mapping (by omega), List.mem_filterMap]
  refine exists_congr fun bar => and_congr_right fun _ => ?_
  rw [Device.mapped, Option.ite_none_right_eq_some, and_assoc, Option.some_inj]
  exact and_congr_right fun _ => and_congr_right fun _ => eq_comm

end Eager

/-! ## One BAR at a time -/

/-- The size of a slot: what lies between the page of the address and the page
behind the end of the BAR. -/
def roundedSize (mode : Overflow) (guestAddr barSize : UInt64) : Option UInt64 := do
  let stop ← mode.add64 guestAddr barSize
  let rounded ← mode.add64 stop 0xFFF
  mode.sub64 (rounded &&& ~~~ 0xFFF) (guestAddr &&& ~~~ 0xFFF)

section Pages
variable {mode : Overflow} {guestAddr barSize size : UInt64}

theorem toNat_clear_page (x : UInt64) : (x &&& ~~~ 0xFFF).toNat = x.toNat / 2 ^ 12 * 2 ^ 12 :=
  toNat_clear_low (by decide) rfl x

theorem clear_page_eq_self {x : UInt64} : x &&& ~~~ 0xFFF = x ↔ 4096 ∣ x.toNat := by
  rw [← UInt64.toNat_inj, toNat_clear_page]
  omega

/-- Where overflow is not checked, a slot has some size. -/
theorem roundedSize_wrapping (guestAddr barSize : UInt64) : roundedSize .wrapping guestAddr barSize =
    some ((guestAddr + barSize + 0xFFF &&& ~~~ 0xFFF) - (guestAddr &&& ~~~ 0xFFF)) := by
  simp [roundedSize, Overflow.add64, Overflow.sub64]

/-- Where overflow is checked, nothing is different but that it may end the run. -/
theorem roundedSize_checked (found : roundedSize .checked guestAddr barSize = some size) :
    guestAddr.toNat + barSize.toNat + 4095 < 2 ^ 64 ∧ roundedSize .wrapping guestAddr barSize = some size := by
  obtain ⟨stop, first, rest⟩ := Option.bind_eq_some_iff.mp found
  obtain ⟨rounded, second, last⟩ := Option.bind_eq_some_iff.mp rest
  have firstFits := Overflow.fits_of_add64 first
  obtain rfl := Option.some.inj ((Overflow.add64_of_fits firstFits).symm.trans first)
  have secondFits := Overflow.fits_of_add64 second
  obtain rfl := Option.some.inj ((Overflow.add64_of_fits secondFits).symm.trans second)
  rw [UInt64.toNat_add, Nat.mod_eq_of_lt firstFits] at secondFits
  refine ⟨secondFits, ?_⟩
  rw [roundedSize_wrapping]
  exact congrArg some (Overflow.fit_eq_some.mp last).2

theorem roundedSize_fits (fits : mode = .wrapping ∨ guestAddr.toNat + barSize.toNat + 4095 < 2 ^ 64) :
    roundedSize mode guestAddr barSize = roundedSize .wrapping guestAddr barSize := by
  rcases fits with rfl | fits
  · rfl
  · have all : (0xFFF : UInt64).toNat = 4095 := rfl
    have sum : (guestAddr + barSize).toNat = guestAddr.toNat + barSize.toNat := by
      rw [UInt64.toNat_add, Nat.mod_eq_of_lt (by omega)]
    have stop : (guestAddr + barSize + 0xFFF).toNat = guestAddr.toNat + barSize.toNat + 4095 := by
      rw [UInt64.toNat_add, sum, all, Nat.mod_eq_of_lt fits]
    have first : mode.add64 guestAddr barSize = some (guestAddr + barSize) := Overflow.add64_of_fits (by omega)
    have second : mode.add64 (guestAddr + barSize) 0xFFF = some (guestAddr + barSize + 0xFFF) :=
      Overflow.add64_of_fits (by omega)
    have ordered : (guestAddr &&& ~~~ 0xFFF).toNat ≤ (guestAddr + barSize + 0xFFF &&& ~~~ 0xFFF).toNat := by
      rw [toNat_clear_page, toNat_clear_page, stop]
      omega
    rw [roundedSize_wrapping, roundedSize, first, Option.bind_eq_bind, Option.bind_some, second, Option.bind_some]
    exact Overflow.fit_of_fits ordered

theorem toNat_roundedSize (aligned : 4096 ∣ guestAddr.toNat) (found : roundedSize .wrapping guestAddr barSize = some size) :
    size.toNat = (barSize.toNat + 4095) / 4096 * 4096 % 2 ^ 64 := by
  have all : (0xFFF : UInt64).toNat = 4095 := rfl
  rw [roundedSize_wrapping] at found
  cases found
  rw [UInt64.toNat_sub, toNat_clear_page, toNat_clear_page, UInt64.toNat_add, UInt64.toNat_add, all]
  have := guestAddr.toNat_lt
  have := barSize.toNat_lt
  omega

/-- A page-aligned BAR keeps its size where that is whole pages. -/
theorem roundedSize_eq_self (aligned : 4096 ∣ guestAddr.toNat) :
    roundedSize .wrapping guestAddr barSize = some barSize ↔ 4096 ∣ barSize.toNat := by
  have small := barSize.toNat_lt
  constructor
  · intro found
    have value := toNat_roundedSize aligned found
    omega
  · intro whole
    have found := roundedSize_wrapping guestAddr barSize
    rw [found]
    have value := toNat_roundedSize aligned found
    refine congrArg some (UInt64.toNat_inj.mp (value.trans ?_))
    omega

end Pages

section Marks
variable {mask : UInt64} {index other : UInt32}

theorem toNat_bit (few : index ≤ 5) : ((1 : UInt64) <<< index.toUInt64).toNat = 2 ^ index.toNat := by
  have small : index.toNat ≤ 5 := UInt32.le_iff_toNat_le.mp few
  rw [UInt64.toNat_shiftLeft, UInt32.toNat_toUInt64, Nat.mod_eq_of_lt (by omega : index.toNat < 64), Nat.shiftLeft_eq]
  have bound : 2 ^ index.toNat ≤ 2 ^ 5 := Nat.pow_le_pow_right (by decide) small
  have one : (1 : UInt64).toNat = 1 := rfl
  rw [one, Nat.one_mul, Nat.mod_eq_of_lt (by omega)]

theorem marked_iff (few : index ≤ 5) : mask &&& (1 : UInt64) <<< index.toUInt64 ≠ 0 ↔ mask.toNat.testBit index.toNat = true := by
  rw [← UInt64.toNat_inj.ne, UInt64.toNat_and, toNat_bit few, Nat.and_two_pow]
  cases mask.toNat.testBit index.toNat <;> simp

theorem mark_testBit (few : index ≤ 5) :
    (mask ||| (1 : UInt64) <<< index.toUInt64).toNat.testBit other.toNat = true ↔
      mask.toNat.testBit other.toNat = true ∨ index = other := by
  rw [UInt64.toNat_or, toNat_bit few, Nat.testBit_or, Nat.testBit_two_pow, Bool.or_eq_true, decide_eq_true_iff,
    UInt32.toNat_inj]

end Marks

section Lazy
variable {mode : Overflow} {device : Device} {info later : MmioInfo} {bar other : BarRegionInfo}

/-- No two regions are of one BAR. -/
theorem Device.same (listed : bar ∈ device.regions) (also : other ∈ device.regions) (same : bar.index = other.index) :
    bar = other := List.inj_on_of_nodup_map device.once listed also same

theorem find_bar (listed : bar ∈ device.regions) (mappable : bar.Mappable) :
    (device.bars.find? fun entry => entry.1 = bar.index) = some (bar.index, bar.size) := by
  have member : (bar.index, bar.size) ∈ device.bars :=
    List.mem_map.mpr ⟨bar, List.mem_filter.mpr ⟨listed, decide_eq_true mappable⟩, rfl⟩
  cases found : device.bars.find? fun entry => entry.1 = bar.index with
  | none => exact absurd (decide_eq_true rfl) (List.find?_eq_none.mp found _ member)
  | some entry =>
    obtain ⟨region, there, rfl⟩ := List.mem_map.mp (List.mem_of_find?_eq_some found)
    have index : region.index = bar.index := by simpa using List.find?_some found
    rw [device.same (List.mem_filter.mp there).1 listed index]

/-- What is done for a BAR of the list. -/
theorem lazyMapBar_eq (listed : bar ∈ device.regions) (mappable : bar.Mappable) (guestAddr : UInt64) (outcome : Outcome) :
    lazyMapBar mode device info bar.index guestAddr outcome =
      if info.mappedBars.toNat.testBit bar.index.toNat then some (true, info)
      else (roundedSize mode guestAddr bar.size).bind fun alignedSize =>
        if ¬ outcome.mmap then some (false, info)
        else (mode.add32 info.nextSlot 1).bind fun nextSlot =>
          if ¬ outcome.ioctl then some (false, { info with nextSlot })
          else some (true, {
            mappedBars := info.mappedBars ||| (1 : UInt64) <<< bar.index.toUInt64
            nextSlot
            slots := info.slots ++
              [⟨bar.index, info.nextSlot, guestAddr &&& ~~~ 0xFFF, alignedSize, bar.index.toUInt64 <<< 12⟩] }) := by
  have few : bar.index < 64 := UInt32.lt_of_le_of_lt mappable.1 (by decide)
  have present : bar.size ≠ 0 := UInt64.pos_iff_ne_zero.mp mappable.2.2
  rw [lazyMapBar, Overflow.fit_of_fits few, Option.bind_eq_bind, Option.bind_some]
  by_cases marked : info.mappedBars.toNat.testBit bar.index.toNat
  · rw [if_pos ((marked_iff mappable.1).mpr marked), if_pos marked]
    rfl
  · rw [if_neg (mt (marked_iff mappable.1).mp marked), if_neg marked, find_bar listed mappable]
    dsimp only
    rw [if_neg present, roundedSize]
    simp only [Option.bind_eq_bind, Option.bind_assoc]
    rfl

/-- The marks are those of the BARs that have a slot. -/
def Tracked (info : MmioInfo) : Prop := ∀ index : UInt32, index ≤ 5 →
  (info.mappedBars.toNat.testBit index.toNat = true ↔ ∃ slot ∈ info.slots, slot.index = index)

theorem tracked_start : Tracked .start := by
  intro index few
  simp [MmioInfo.start]

/-- An exit changes no slot, or it adds one for a BAR that had none. -/
theorem handle_cases (tracked : Tracked info) (exit : Exit device) (handled : handle mode device info exit = some later) :
    Tracked later ∧ (later.slots = info.slots ∨ ∃ slot : Slot, later.slots = info.slots ++ [slot] ∧
      (∀ earlier ∈ info.slots, earlier.index ≠ slot.index) ∧ slot.index = exit.bar.index ∧
      slot.guestPhys = device.readBarAddr exit.bar.index &&& ~~~ 0xFFF ∧
      roundedSize mode (device.readBarAddr exit.bar.index) exit.bar.size = some slot.size ∧
      slot.offset = exit.bar.index.toUInt64 <<< 12) := by
  obtain ⟨⟨answer, after⟩, mapped, rfl⟩ := Option.map_eq_some_iff.mp handled
  rw [lazyMapBar_eq exit.listed exit.mappable] at mapped
  split at mapped
  · cases mapped
    exact ⟨tracked, .inl rfl⟩
  next unmarked =>
    obtain ⟨size, rounded, mapped⟩ := Option.bind_eq_some_iff.mp mapped
    split at mapped
    · cases mapped
      exact ⟨tracked, .inl rfl⟩
    · obtain ⟨nextSlot, -, mapped⟩ := Option.bind_eq_some_iff.mp mapped
      split at mapped
      · cases mapped
        exact ⟨tracked, .inl rfl⟩
      · cases mapped
        refine ⟨fun index few => ?_, .inr ⟨_, rfl, fun earlier member same => ?_, rfl, rfl, rounded, rfl⟩⟩
        · rw [mark_testBit exit.mappable.1, tracked index few]
          simp [or_and_right, exists_or]
        · exact unmarked ((tracked _ exit.mappable.1).mpr ⟨earlier, member, same⟩)

/-- A BAR without a slot is given the next one, where nothing fails. -/
theorem handle_ok (tracked : Tracked info) (exit : Exit device) (ok : exit.outcome = ⟨true, true⟩)
    (fresh : ∀ earlier ∈ info.slots, earlier.index ≠ exit.bar.index) {size : UInt64}
    (rounded : roundedSize mode (device.readBarAddr exit.bar.index) exit.bar.size = some size) (free : info.nextSlot < 1000) :
    ∃ later, handle mode device info exit = some later ∧ later.nextSlot = info.nextSlot + 1 ∧
      later.slots = info.slots ++ [⟨exit.bar.index, info.nextSlot, device.readBarAddr exit.bar.index &&& ~~~ 0xFFF, size,
        exit.bar.index.toUInt64 <<< 12⟩] := by
  have unmarked : ¬ info.mappedBars.toNat.testBit exit.bar.index.toNat := by
    intro marked
    obtain ⟨slot, member, same⟩ := (tracked _ exit.mappable.1).mp marked
    exact fresh slot member same
  have small : info.nextSlot.toNat < 1000 := UInt32.lt_iff_toNat_lt.mp free
  have one : (1 : UInt32).toNat = 1 := rfl
  have next : mode.add32 info.nextSlot 1 = some (info.nextSlot + 1) := Overflow.fit_of_fits (by omega)
  refine ⟨⟨info.mappedBars ||| (1 : UInt64) <<< exit.bar.index.toUInt64, info.nextSlot + 1, info.slots ++
    [⟨exit.bar.index, info.nextSlot, device.readBarAddr exit.bar.index &&& ~~~ 0xFFF, size,
      exit.bar.index.toUInt64 <<< 12⟩]⟩, ?_, rfl, rfl⟩
  rw [handle, lazyMapBar_eq exit.listed exit.mappable, if_neg unmarked, rounded, Option.bind_some, ok,
    if_neg (by decide), next, Option.bind_some, if_neg (by decide)]
  rfl

end Lazy

/-! ## When they agree -/

section Agreement
variable {mode : Overflow} {device : Device} {bar : BarRegionInfo} {size : UInt64}

theorem toNat_barOffset (few : bar.index ≤ 5) : (bar.index.toUInt64 <<< 12).toNat = 4096 * bar.index.toNat := by
  have small : bar.index.toNat ≤ 5 := UInt32.le_iff_toNat_le.mp few
  have twelve : (12 : UInt64).toNat % 64 = 12 := rfl
  rw [UInt64.toNat_shiftLeft, UInt32.toNat_toUInt64, twelve, Nat.shiftLeft_eq]
  omega

theorem whole_of_mem (listed : bar ∈ device.regions)
    (rounded : roundedSize mode (device.readBarAddr bar.index) bar.size = some size)
    (member : (bar.index, device.readBarAddr bar.index &&& ~~~ 0xFFF, size, bar.index.toUInt64 <<< 12) ∈ device.eager) :
    Whole mode device bar := by
  obtain ⟨other, there, mappable, assigned, same⟩ := mem_eager.mp member
  obtain ⟨index, base, size, offset⟩ : bar.index = other.index ∧ _ ∧ _ ∧ _ := by simpa only [Prod.mk.injEq] using same
  obtain rfl := device.same listed there index
  subst size
  have memory : ¬ device.IoBar bar.index := fun io => assigned ((readGuestBarAddr_eq device mappable.1).1 io)
  rw [(readGuestBarAddr_eq device mappable.1).2 memory] at base
  have address := clear_page_eq_self.mp base
  have fits : mode = .wrapping ∨ (device.readBarAddr bar.index).toNat + bar.size.toNat + 4095 < 2 ^ 64 := by
    cases mode with
    | wrapping => exact .inl rfl
    | checked => exact .inr (roundedSize_checked rounded).1
  rw [roundedSize_fits fits, roundedSize_eq_self address] at rounded
  rw [toNat_readBarAddr] at address fits
  exact ⟨memory, address, rounded, by rw [← offset, toNat_barOffset mappable.1], fits⟩

theorem mem_of_whole (listed : bar ∈ device.regions) (mappable : bar.Mappable) (assigned : device.address bar.index ≠ 0)
    (whole : Whole mode device bar) : roundedSize mode (device.readBarAddr bar.index) bar.size = some bar.size ∧
      device.readBarAddr bar.index &&& ~~~ 0xFFF = device.readBarAddr bar.index ∧
      (bar.index, device.readBarAddr bar.index &&& ~~~ 0xFFF, bar.size, bar.index.toUInt64 <<< 12) ∈ device.eager := by
  obtain ⟨memory, address, size, offset, fits⟩ := whole
  rw [← toNat_readBarAddr] at address fits assigned
  have base : device.readBarAddr bar.index &&& ~~~ 0xFFF = device.readBarAddr bar.index := clear_page_eq_self.mpr address
  have same := (readGuestBarAddr_eq device mappable.1).2 memory
  refine ⟨?_, base, mem_eager.mpr ⟨bar, listed, mappable, ?_, ?_⟩⟩
  · rw [roundedSize_fits fits, roundedSize_eq_self address]
    exact size
  · rw [same]
    exact fun none => assigned (by rw [none]; rfl)
  · rw [base, same, ← UInt64.toNat_inj.mp ((toNat_barOffset mappable.1).trans offset.symm)]

/-- An exit at the first byte of a BAR. -/
def firstExit (listed : bar ∈ device.regions) (mappable : bar.Mappable) (assigned : device.address bar.index ≠ 0) :
    Exit device where
  bar := bar
  listed := listed
  mappable := mappable
  assigned := assigned
  address := device.address bar.index
  inside := ⟨Nat.le_refl _, Nat.lt_add_of_pos_right (UInt64.lt_iff_toNat_lt.mp mappable.2.2)⟩
  outcome := ⟨true, true⟩

theorem Agrees.whole (agrees : Agrees mode device) (listed : bar ∈ device.regions) (mappable : bar.Mappable)
    (assigned : device.address bar.index ≠ 0) : Whole mode device bar := by
  obtain ⟨info, slot, handled, only, -, member⟩ := agrees.created (firstExit listed mappable assigned) rfl
  obtain ⟨-, none | ⟨other, added, -, index, base, rounded, offset⟩⟩ := handle_cases tracked_start _ handled
  · rw [only] at none
    exact (List.cons_ne_nil _ _ none).elim
  · obtain rfl : slot = other := List.singleton_inj.mp (only.symm.trans added)
    rw [Slot.mapping, index, base, offset] at member
    exact whole_of_mem listed rounded member

/-- The slots of two BARs that are mapped one after the other are disjoint. -/
theorem Agrees.apart (agrees : Agrees mode device) {other : BarRegionInfo} (listed : bar ∈ device.regions)
    (there : other ∈ device.regions) (mappable : bar.Mappable) (also : other.Mappable)
    (assigned : device.address bar.index ≠ 0) (both : device.address other.index ≠ 0) (distinct : bar.index ≠ other.index) :
    (barSpan device bar).Disjoint (barSpan device other) := by
  obtain ⟨rounded, base, -⟩ := mem_of_whole listed mappable assigned (agrees.whole listed mappable assigned)
  obtain ⟨rounded', base', -⟩ := mem_of_whole there also both (agrees.whole there also both)
  obtain ⟨first, handled, next, slots⟩ := handle_ok tracked_start (firstExit listed mappable assigned) rfl
    (fun _ none => absurd none List.not_mem_nil) rounded (by decide)
  obtain ⟨tracked, -⟩ := handle_cases tracked_start _ handled
  obtain ⟨second, handled', -, slots'⟩ := handle_ok tracked (firstExit there also both) rfl
    (fun slot member => by
      rw [slots] at member
      rw [List.mem_singleton.mp member]
      exact distinct) rounded' (by rw [next]; decide)
  have ran : lazyRun mode device [firstExit listed mappable assigned, firstExit there also both] = some second := by
    simp only [lazyRun, List.foldlM_cons, List.foldlM_nil, handled, handled', Option.bind_eq_bind, Option.bind_some]
    rfl
  obtain ⟨disjoint, -⟩ := agrees.runs _ _ ran
  rw [slots', slots] at disjoint
  have apart := (List.pairwise_cons.mp disjoint).1 _ (.head _)
  rw [Slot.span, Slot.span] at apart
  dsimp only [firstExit] at apart
  rwa [base, base', toNat_readBarAddr, toNat_readBarAddr] at apart

/-- The slot is that of a BAR, as the loop before the boot maps it. -/
structure Faithful (device : Device) (slot : Slot) : Prop where
  mapping : slot.mapping ∈ device.eager
  bar : ∃ bar ∈ device.regions, bar.Mappable ∧ device.address bar.index ≠ 0 ∧ slot.index = bar.index ∧
    slot.span = barSpan device bar

theorem Plain.run (plain : Plain mode device) {exits : List (Exit device)} {info : MmioInfo}
    (ran : lazyRun mode device exits = some info) : Tracked info ∧ (∀ slot ∈ info.slots, Faithful device slot) ∧
      (info.slots.map Slot.index).Nodup ∧ info.slots.Pairwise fun one other => one.span.Disjoint other.span := by
  induction exits using List.reverseRecOn generalizing info with
  | nil =>
    cases ran
    exact ⟨tracked_start, fun _ none => absurd none List.not_mem_nil, List.nodup_nil, List.Pairwise.nil⟩
  | append_singleton exits exit ih =>
    rw [lazyRun, List.foldlM_append] at ran
    obtain ⟨before, first, last⟩ := Option.bind_eq_some_iff.mp ran
    simp only [List.foldlM_cons, List.foldlM_nil, Option.pure_def, Option.bind_eq_bind, Option.bind_fun_some] at last
    obtain ⟨tracked, faithful, distinct, disjoint⟩ := ih first
    obtain ⟨next, same | ⟨slot, added, fresh, index, base, rounded, offset⟩⟩ := handle_cases tracked exit last
    · exact ⟨next, same ▸ faithful, same ▸ distinct, same ▸ disjoint⟩
    have whole := plain.each _ exit.listed exit.mappable exit.assigned
    obtain ⟨size, page, member⟩ := mem_of_whole exit.listed exit.mappable exit.assigned whole
    have size : slot.size = exit.bar.size := Option.some.inj (rounded.symm.trans size)
    have span : slot.span = barSpan device exit.bar := by
      rw [Slot.span, base, page, size, toNat_readBarAddr, barSpan]
    have new : Faithful device slot := by
      refine ⟨?_, exit.bar, exit.listed, exit.mappable, exit.assigned, index, span⟩
      rw [Slot.mapping, index, base, size, offset]
      exact member
    rw [added]
    refine ⟨next, ?_, ?_, ?_⟩
    · intro other there
      rcases List.mem_append.mp there with earlier | last
      · exact faithful other earlier
      · exact List.mem_singleton.mp last ▸ new
    · rw [List.map_append, List.nodup_append]
      refine ⟨distinct, List.nodup_singleton _, fun one there other last => ?_⟩
      obtain ⟨earlier, member, rfl⟩ := List.mem_map.mp there
      rw [List.mem_singleton.mp last]
      exact fresh earlier member
    · refine List.pairwise_append.mpr ⟨disjoint, List.pairwise_singleton .., fun earlier there other last => ?_⟩
      rw [List.mem_singleton.mp last]
      obtain ⟨bar, listed, mappable, assigned, same, place⟩ := (faithful earlier there).bar
      rw [place, span]
      exact plain.apart bar listed exit.bar exit.listed mappable exit.mappable assigned exit.assigned
        (same ▸ index ▸ fresh earlier there)

/-- Mapping a BAR at its first access does what the loop before the boot does
exactly where the BARs are pages of memory at an offset of one page for each index,
and do not overlap. -/
theorem agrees_iff_plain (mode : Overflow) (device : Device) : Agrees mode device ↔ Plain mode device := by
  constructor
  · intro agrees
    refine ⟨fun bar listed mappable assigned => agrees.whole listed mappable assigned, ?_⟩
    intro bar listed other there mappable also assigned both distinct
    exact agrees.apart listed there mappable also assigned both distinct
  · intro plain
    refine ⟨fun exit ok => ?_, fun mapping member => ?_, fun exits info ran => ?_⟩
    · obtain ⟨rounded, base, member⟩ := mem_of_whole exit.listed exit.mappable exit.assigned
        (plain.each _ exit.listed exit.mappable exit.assigned)
      obtain ⟨info, handled, -, slots⟩ := handle_ok tracked_start exit ok (fun _ none => absurd none List.not_mem_nil) rounded (by decide)
      exact ⟨info, _, handled, slots, rfl, member⟩
    · obtain ⟨bar, listed, mappable, placed, rfl⟩ := mem_eager.mp member
      have memory : ¬ device.IoBar bar.index := fun io => placed ((readGuestBarAddr_eq device mappable.1).1 io)
      rw [(readGuestBarAddr_eq device mappable.1).2 memory] at placed
      have assigned : device.address bar.index ≠ 0 := by
        rw [← toNat_readBarAddr]
        exact fun none => placed (UInt64.toNat_inj.mp none)
      exact ⟨firstExit listed mappable assigned, rfl⟩
    · obtain ⟨-, faithful, distinct, disjoint⟩ := plain.run ran
      exact ⟨disjoint, distinct, fun slot member => (faithful slot member).mapping⟩

end Agreement

/-- One BAR of a page, which the device file has at 1 TiB. -/
def pageBar : BarRegionInfo := ⟨1, 0x1000, 0x10000000000, true⟩

def pageDevice : Device where
  regions := [pageBar]
  once := List.nodup_singleton _
  config := ⟨0x7000, by decide⟩
  pread position := if position = 0x7014 then some 0xE0000000 else none

/-- The slot of the first access is for another part of the device file. -/
theorem first_access_maps_elsewhere : pageDevice.eager = [(1, 0xE0000000, 0x1000, 0x10000000000)] ∧
    (lazyMapBar .checked pageDevice .start 1 (pageDevice.readBarAddr 1) ⟨true, true⟩).map (fun result =>
      result.2.slots.map Slot.mapping) = some [(1, 0xE0000000, 0x1000, 0x1000)] ∧
      ¬ ∀ mode device, Agrees mode device := by
  refine ⟨by decide +kernel, by decide +kernel, fun agrees => ?_⟩
  have assigned : pageDevice.address pageBar.index ≠ 0 := by decide +kernel
  have whole := (agrees .checked pageDevice).whole (.head _) ⟨by decide, rfl, by decide⟩ assigned
  exact absurd whole.offset (by decide)

end TinyMachine.Vfio
