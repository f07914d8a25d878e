import TinyMachine.Lib.Fallible
import TinyMachine.MemoryMap
import TinyMachine.PageTables
import TinyMachine.Vm

/-! The boot image: what `boot_linux` places in guest memory before the vCPU
starts, step by step. Parsing the ELF container is left to a parameter, as the
source leaves it to a library. -/
namespace TinyMachine
open Lib

/-! ## The kernel -/

structure ProgramHeader where
  pType : UInt32
  pOffset : UInt64
  pPaddr : UInt64
  pFilesz : UInt64
  pMemsz : UInt64
  deriving DecidableEq, Repr

/-- What the ELF library finds in a file. -/
structure Elf where
  eMachine : UInt16
  entry : UInt64
  programHeaders : List ProgramHeader
  deriving DecidableEq, Repr

/-- `Elf::parse` -/
abbrev ElfParser := List UInt8 → Except String Elf

def emX8664 : UInt16 := 62
def ptLoad : UInt32 := 1

structure LoadSegment where
  fileOffset : UInt64
  fileSize : UInt64
  physAddr : UInt64
  memSize : UInt64
  deriving DecidableEq, Repr

/-- `parse_kernel_elf` -/
def parseKernelElf (parse : ElfParser) (data : List UInt8) :
    Except BootError (UInt64 × List LoadSegment) := do
  let elf ← (parse data).mapError fun e => .elf s!"Failed to parse ELF: {e}"
  if elf.eMachine ≠ emX8664 then
    throw (.elf s!"Not an x86_64 ELF: machine={elf.eMachine}")
  let segments := (elf.programHeaders.filter fun phdr => phdr.pType = ptLoad).map fun phdr =>
    ⟨phdr.pOffset, phdr.pFilesz, phdr.pPaddr, phdr.pMemsz⟩
  if segments.isEmpty then
    throw (.elf "No PT_LOAD segments found")
  return (elf.entry, segments)

/-- One round of `load_elf_segments`. Only the range of `mem_size` bytes is
validated; what is copied are the `file_size` bytes of the file. -/
def loadElfSegment (mode : Overflow) (elfData : List UInt8) (memSize : Nat) (seg : LoadSegment)
    (mem : Memory) : Fallible BootError Memory := do
  let start := seg.physAddr
  let stop ← Fallible.checked (mode.add64 start seg.memSize)
  Fallible.of (validateGuestRange memSize start.toNat stop.toNat)
  let fileStart := seg.fileOffset
  let fileEnd ← Fallible.checked (mode.add64 fileStart seg.fileSize)
  if fileEnd.toNat > elfData.length then
    throw (.elf (s!"Segment at physical 0x{hex seg.physAddr.toNat} exceeds ELF file: need " ++
      s!"{fileEnd} bytes, file has {elfData.length}"))
  -- Slicing panics when the end wrapped around.
  if fileEnd < fileStart then Fallible.panic
  let src := (elfData.drop fileStart.toNat).take (fileEnd.toNat - fileStart.toNat)
  return mem.store start.toNat src

/-- `load_elf_segments` -/
def loadElfSegments (mode : Overflow) (elfData : List UInt8) (memSize : Nat) :
    List LoadSegment → Memory → Fallible BootError Memory
  | [], mem => pure mem
  | seg :: rest, mem => do
    let mem ← loadElfSegment mode elfData memSize seg mem
    loadElfSegments mode elfData memSize rest mem

/-! ## The initrd -/

/-- The largest `phys_addr + mem_size`; the loaded segments do not overflow. -/
def kernelEnd (segments : List LoadSegment) : Nat :=
  (segments.map fun s => s.physAddr.toNat + s.memSize.toNat).foldl max 0

def alignUp2MB (n : Nat) : Nat := (n + pageSize2MB - 1) / pageSize2MB * pageSize2MB

/-- `load_initrd`, for the contents of the file. -/
def loadInitrd (initrdData : List UInt8) (memSize initrdAddr : Nat) (mem : Memory) :
    Except BootError Memory := do
  validateGuestRange memSize initrdAddr (initrdAddr + initrdData.length)
  return mem.store initrdAddr initrdData

/-! ## boot_params -/

def fallbackCmdline : List UInt8 :=
  codeBytes ("console=null acpi=off noapic nolapic lpj=10000000 iomem=relaxed random.trust_cpu=on " ++
    "idle=halt quiet loglevel=0") ++ [0]

/-- The setup header fields. -/
def writeSetupHeader (initrdInfo : Option (Nat × Nat)) (mem : Memory) : Memory :=
  let mem := mem.fill bootParamsAddr bootParamsSize 0
  let mem := mem.storeLE (bootParamsAddr + 0x1F1) 1 0
  let mem := mem.storeLE (bootParamsAddr + 0x1FE) 2 0xAA55
  let mem := mem.storeLE (bootParamsAddr + 0x202) 4 0x53726448
  let mem := mem.storeLE (bootParamsAddr + 0x206) 2 0x020C
  let mem := mem.storeLE (bootParamsAddr + 0x210) 1 0xFF
  let mem := mem.storeLE (bootParamsAddr + 0x211) 1 0x01
  match initrdInfo with
  | none => mem
  | some (initrdAddr, initrdSize) =>
    let mem := mem.storeLE (bootParamsAddr + 0x218) 4 initrdAddr
    let mem := mem.storeLE (bootParamsAddr + 0x21C) 4 initrdSize
    mem.storeLE (bootParamsAddr + 0x22C) 4 initrdAddrMax

/-- The pointer to the command line, and the fallback command line itself. -/
def writeFallbackCmdline (mem : Memory) : Memory :=
  let mem := mem.storeLE (bootParamsAddr + 0x228) 4 pvhCmdlineAddr
  mem.store pvhCmdlineAddr fallbackCmdline

/-- The E820 entries from an offset on, 20 bytes each. -/
def writeE820Entries : List E820Entry → Nat → Memory → Memory
  | [], _, mem => mem
  | entry :: rest, e820Off, mem =>
    let mem := mem.storeLE e820Off 8 entry.addr
    let mem := mem.storeLE (e820Off + 8) 8 entry.size
    let mem := mem.storeLE (e820Off + 16) 4 entry.ty
    writeE820Entries rest (e820Off + e820EntrySize) mem

/-- The table, and its number of entries in one byte. -/
def writeE820 (entries : List E820Entry) (mem : Memory) : Memory :=
  let mem := mem.storeLE (bootParamsAddr + 0x238) 4 0
  let mem := writeE820Entries entries (bootParamsAddr + e820TableOffset) mem
  mem.storeLE (bootParamsAddr + 0x1E8) 1 entries.length

/-- `setup_boot_params` -/
def setupBootParams (mode : Overflow) (memSize : Nat) (initrdInfo : Option (Nat × Nat))
    (reservedRegions : List ReservedRegion) (mem : Memory) : Fallible BootError Memory := do
  Fallible.of (validateGuestRange memSize bootParamsAddr (bootParamsAddr + bootParamsSize))
  let entries ← Fallible.checked (e820Entries mode memSize reservedRegions)
  return writeE820 entries (writeFallbackCmdline (writeSetupHeader initrdInfo mem))

/-! ## PVH -/

def pvhDefaultCmdline : List UInt8 :=
  codeBytes ("console=ttyS0,115200 earlyprintk=serial,0x3f8,115200 acpi=off lpj=10000000 loglevel=7 " ++
    "rodata=off rdinit=/init pci=off iomem=relaxed random.trust_cpu=on idle=halt") ++ [0]

/-- The command line with its terminator. -/
def pvhCmdline (cmdline : Option String) : List UInt8 :=
  let bytes := (cmdline.map codeBytes).getD pvhDefaultCmdline
  if bytes.getLast? = some 0 then bytes else bytes ++ [0]

/-- `hvm_start_info` and, with an initrd, its module list. -/
def writeStartInfo (initrdInfo : Option (Nat × Nat)) (mem : Memory) : Memory :=
  let mem := mem.storeLE pvhStartInfoAddr 4 hvmStartMagic
  let mem := mem.storeLE (pvhStartInfoAddr + 4) 4 1
  let mem := mem.storeLE (pvhStartInfoAddr + 8) 4 0
  match initrdInfo with
  | some (initrdAddr, initrdSize) =>
    let mem := mem.storeLE (pvhStartInfoAddr + 12) 4 1
    let mem := mem.storeLE (pvhStartInfoAddr + 16) 8 pvhModlistAddr
    let mem := mem.storeLE (pvhStartInfoAddr + 24) 8 pvhCmdlineAddr
    let mem := mem.storeLE pvhModlistAddr 8 initrdAddr
    let mem := mem.storeLE (pvhModlistAddr + 8) 8 initrdSize
    let mem := mem.storeLE (pvhModlistAddr + 16) 8 0
    mem.storeLE (pvhModlistAddr + 24) 8 0
  | none =>
    let mem := mem.storeLE (pvhStartInfoAddr + 12) 4 0
    let mem := mem.storeLE (pvhStartInfoAddr + 16) 8 0
    mem.storeLE (pvhStartInfoAddr + 24) 8 pvhCmdlineAddr

/-- At most 255 bytes of the command line, padded with zeros to 256. -/
def writePvhCmdline (cmdline : Option String) (mem : Memory) : Memory :=
  let terminated := pvhCmdline cmdline
  let cmdlineLen := min terminated.length 255
  let mem := mem.store pvhCmdlineAddr (terminated.take cmdlineLen)
  mem.fill (pvhCmdlineAddr + cmdlineLen) (256 - cmdlineLen) 0

/-- The PVH block of `boot_linux`. -/
def setupPvh (config : BootConfig) (initrdInfo : Option (Nat × Nat)) (mem : Memory) :
    Except BootError Memory :=
  if config.pvhBoot then do
    validateGuestRange config.memorySize pvhStartInfoAddr (pvhCmdlineAddr + 256)
    return writePvhCmdline config.cmdline (writeStartInfo initrdInfo mem)
  else .ok mem

/-! ## All steps -/

/-- The files boot reads. -/
structure HostFiles where
  fileExists : String → Bool
  read : String → Except String (List UInt8)

def readFile (files : HostFiles) (path : String) : Except BootError (List UInt8) :=
  (files.read path).mapError .io

/-- The optional initrd, above all kernel segments. -/
def placeInitrd (files : HostFiles) (config : BootConfig) (segments : List LoadSegment)
    (mem : Memory) : Except BootError (Memory × Option (Nat × Nat)) :=
  match config.initrdPath with
  | none => .ok (mem, none)
  | some path => do
    let initrdAddr := alignUp2MB (kernelEnd segments)
    let initrdData ← readFile files path
    let mem ← loadInitrd initrdData config.memorySize initrdAddr mem
    return (mem, some (initrdAddr, initrdData.length))

/-- `boot_linux` up to the moment the vCPU can start: the contents of guest
memory. The KVM calls after the RAM slots do not touch it. -/
def bootLinux (mode : Overflow) (parse : ElfParser) (files : HostFiles) (kvm : KvmSlots)
    (config : BootConfig) : Fallible BootError Memory := do
  Fallible.of (config.validate files.fileExists)
  let kernelData ← Fallible.of (readFile files config.kernelPath)
  let (_, segments) ← Fallible.of (parseKernelElf parse kernelData)
  let mem ← loadElfSegments mode kernelData config.memorySize segments Memory.zeroed
  let (mem, initrdInfo) ← Fallible.of (placeInitrd files config segments mem)
  let mem ← setupBootParams mode config.memorySize initrdInfo config.reservedRegions mem
  let mem ← Fallible.of (setupPvh config initrdInfo mem)
  let _ ← Fallible.of ((setMemoryRegions kvm []
    (bootRamSlots config.memorySize config.reservedRegions)).mapError .kvm)
  let mem ← Fallible.of (setupPageTables mem config.memorySize)
  return setupGdt mem

end TinyMachine
