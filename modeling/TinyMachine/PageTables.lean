import TinyMachine.BootConfig
import TinyMachine.Lib.ByteMemory

/-! `setup_page_tables` and `setup_gdt` of `arch/x86_64/boot.rs`. -/
namespace TinyMachine
open Lib

def ptPresent : Nat := 1 <<< 0
def ptRw : Nat := 1 <<< 1
def ptPs : Nat := 1 <<< 7

def pdp1Addr : Nat := 0x73000

/-- `write_guest_u64` -/
def writeGuestU64 (mem : Memory) (guestPhys value : Nat) : Memory := mem.storeLE guestPhys 8 value

/-- `mem_size.div_ceil(PAGE_SIZE_2MB)` -/
def numPdEntries (memSize : Nat) : Nat := (memSize + pageSize2MB - 1) / pageSize2MB

def pdEntry (i : Nat) : Nat := i * pageSize2MB ||| ptPresent ||| ptRw ||| ptPs

/-- The loop over the first `count` page directory entries. -/
def writePdEntries (mem : Memory) : Nat → Memory
  | 0 => mem
  | i + 1 => writeGuestU64 (writePdEntries mem i) (pdAddr + i * 8) (pdEntry i)

/-- The writes of `setup_page_tables`. -/
def writePageTables (mem : Memory) (memSize : Nat) : Memory :=
  let mem := writeGuestU64 mem pml4Addr (pdpAddr ||| ptPresent ||| ptRw)
  let mem := writeGuestU64 mem (pml4Addr + 511 * 8) (pdp1Addr ||| ptPresent ||| ptRw)
  let mem := writeGuestU64 mem pdpAddr (pdAddr ||| ptPresent ||| ptRw)
  let mem := writeGuestU64 mem (pdp1Addr + 510 * 8) (pdAddr ||| ptPresent ||| ptRw)
  writePdEntries mem (numPdEntries memSize)

/-- `setup_page_tables` -/
def setupPageTables (mem : Memory) (memSize : Nat) : Except BootError Memory := do
  let pdEnd := pdAddr + numPdEntries memSize * 8
  if pdEnd > 0x76000 then
    throw (.config (s!"Memory too large: {memSize} bytes needs {numPdEntries memSize} PD entries " ++
      s!"(0x{hex pdEnd} > 0x76000)"))
  return writePageTables mem memSize

/-- `setup_gdt` -/
def setupGdt (mem : Memory) : Memory :=
  let mem := writeGuestU64 mem gdtAddr gdtNull
  let mem := writeGuestU64 mem (gdtAddr + 8) gdtCode
  writeGuestU64 mem (gdtAddr + 16) gdtData

end TinyMachine
