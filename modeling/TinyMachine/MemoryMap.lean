import Mathlib.Data.List.Sort
import TinyMachine.BootConfig
import TinyMachine.Lib.ByteMemory
import TinyMachine.Lib.Overflow

/-! The two memory maps boot derives from the reserved regions, the E820 table
for the guest and the RAM slots for KVM, and the map a fork installs. -/
namespace TinyMachine
open Lib

/-- `sort_by_key(|r| r.start)`, which is stable. -/
def sortByStart (regions : List ReservedRegion) : List ReservedRegion :=
  regions.insertionSort fun a b => a.start ≤ b.start

/-! ## The E820 table -/

structure E820Entry where
  addr : Nat
  size : Nat
  ty : Nat
  deriving DecidableEq, Repr

/-- `write_entry`: an empty range is not recorded. -/
def writeEntry (addr size ty : Nat) : List E820Entry :=
  if size = 0 then [] else [⟨addr, size, ty⟩]

def mainRamStart : Nat := 0x100000

/-- The loop that splits main RAM around the sorted regions. The length of an
inverted region underflows. -/
def e820MainRam (mode : Overflow) (mainRamEnd : Nat) :
    Nat → List ReservedRegion → Option (List E820Entry)
  | current, [] =>
    some (if current < mainRamEnd then
      writeEntry current (mainRamEnd - current) e820TypeUsable else [])
  | current, region :: rest =>
    let rstart := max region.start mainRamStart
    let rend := min region.stop mainRamEnd
    if rstart ≥ mainRamEnd ∨ rend ≤ current then e820MainRam mode mainRamEnd current rest
    else if rstart ≤ current then e820MainRam mode mainRamEnd rend rest
    else do
      let usable := writeEntry current (rstart - current) e820TypeUsable
      let reservedSize ← mode.fit (rstart ≤ rend) ((rend + 2 ^ 64 - rstart) % 2 ^ 64)
      let tail ← e820MainRam mode mainRamEnd rend rest
      return usable ++ writeEntry rstart reservedSize e820TypeReserved ++ tail

/-- The regions the E820 loop goes through. -/
def e820Regions (memSize : Nat) (regions : List ReservedRegion) : List ReservedRegion :=
  (sortByStart regions).filter fun r => r.start < memSize ∧ r.stop > mainRamStart

/-- The entries `setup_boot_params` writes; `none` is an overflow panic. -/
def e820Entries (mode : Overflow) (memSize : Nat) (regions : List ReservedRegion) :
    Option (List E820Entry) := do
  let low := writeEntry 0 0x50000 e820TypeUsable ++ writeEntry 0x50000 0x30000 e820TypeReserved ++
    writeEntry 0x80000 0x1FC00 e820TypeUsable
  let main ← e820MainRam mode memSize mainRamStart (e820Regions memSize regions)
  return low ++ main

/-- The map as the guest is told of it: the number of entries is passed in one
byte. -/
def passedEntries (entries : List E820Entry) : List E820Entry :=
  entries.take (entries.length % 256)

/-! ## RAM slots -/

/-- One `KVM_SET_USER_MEMORY_REGION`; the host address is an offset into the
mapping. -/
structure MemorySlot where
  slot : Nat
  guestPhysAddr : Nat
  memorySize : Nat
  hostOffset : Nat
  deriving DecidableEq, Repr

/-- What KVM says to a slot when others are installed. -/
abbrev KvmSlots := List MemorySlot → MemorySlot → Except String Unit

/-- Installs slots until KVM refuses one. -/
def setMemoryRegions (kvm : KvmSlots) (installed : List MemorySlot) :
    List MemorySlot → Except String (List MemorySlot)
  | [] => .ok installed
  | slot :: rest => do
    kvm installed slot
    setMemoryRegions kvm (installed ++ [slot]) rest

/-- `holes`: the regions that overlap with RAM, clamped to it. -/
def ramHoles (memSize : Nat) (regions : List ReservedRegion) : List Span :=
  sortByStart ((regions.filter fun r => r.start < memSize ∧ r.stop > 0).map fun r =>
    ⟨max r.start 0, min r.stop memSize⟩)

/-- The sweep over the holes, as the slots it asks for. -/
def ramSlotsFrom (memSize : Nat) : Nat → Nat → List Span → List MemorySlot
  | ramSlot, currentStart, [] =>
    if currentStart < memSize then
      [⟨ramSlot, currentStart, memSize - currentStart, currentStart⟩] else []
  | ramSlot, currentStart, hole :: holes =>
    if currentStart < hole.start then
      ⟨ramSlot, currentStart, hole.start - currentStart, currentStart⟩ ::
        ramSlotsFrom memSize (ramSlot + 1) hole.stop holes
    else ramSlotsFrom memSize ramSlot hole.stop holes

/-- Step 4 of `boot_linux`: one slot for everything when the sweep finds none. -/
def bootRamSlots (memSize : Nat) (regions : List ReservedRegion) : List MemorySlot :=
  match ramSlotsFrom memSize 0 0 (ramHoles memSize regions) with
  | [] => [⟨0, 0, memSize, 0⟩]
  | slots => slots

/-! ## Boot, snapshot and fork -/

/-- A VM's RAM: its slots and the host memory behind them. -/
structure GuestRam where
  slots : List MemorySlot
  memory : Memory

/-- The byte the guest finds at a physical address, `none` where there is no
RAM. -/
def GuestRam.read (ram : GuestRam) (gpa : Nat) : Option UInt8 :=
  (ram.slots.find? fun slot =>
    slot.guestPhysAddr ≤ gpa && gpa < slot.guestPhysAddr + slot.memorySize).map fun slot =>
      ram.memory (slot.hostOffset + (gpa - slot.guestPhysAddr))

/-- The part of a `BootedVm` its snapshot is taken from. -/
structure BootedRam where
  ram : GuestRam
  memorySize : Nat
  loadAddr : Nat

/-- `boot_linux` as far as RAM goes, and whatever the mapping holds once the
guest has run. -/
def bootRam (kvm : KvmSlots) (config : BootConfig) (memory : Memory) : Except String BootedRam := do
  let slots ← setMemoryRegions kvm [] (bootRamSlots config.memorySize config.reservedRegions)
  return ⟨⟨slots, memory⟩, config.memorySize, config.loadAddr⟩

/-- The memory of a `Snapshot`. -/
structure SnapshotRam where
  memory : List UInt8
  memorySize : Nat
  loadAddr : Nat

/-- `BootedVm::capture_snapshot`: the whole mapping, flat. -/
def BootedRam.captureSnapshot (booted : BootedRam) : SnapshotRam :=
  let memory := booted.ram.memory.fetch 0 booted.memorySize
  ⟨memory, memory.length, booted.loadAddr⟩

/-- `ForkEngine::fork` of an engine without shared regions: a private copy of
the snapshot memory in one slot. -/
def SnapshotRam.fork (kvm : KvmSlots) (snapshot : SnapshotRam) : Except String GuestRam := do
  if snapshot.memory.isEmpty then
    throw "fork fallback: snapshot memory Vec is empty and no mem_fd"
  let slots ← setMemoryRegions kvm [] [⟨0, snapshot.loadAddr, snapshot.memorySize, 0⟩]
  return ⟨slots, Memory.zeroed.store 0 snapshot.memory⟩

end TinyMachine
