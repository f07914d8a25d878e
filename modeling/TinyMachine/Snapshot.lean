import TinyMachine.KernelRegistry
import TinyMachine.Layout
import TinyMachine.VirtioNet
import TinyMachine.Lib.Files
import TinyMachine.Lib.Json

/-! Snapshots on disk: what `save` writes, and `load`, which leaves the memory
in its file until it is asked for. -/
namespace TinyMachine.Snapshots
open Lib Disk VirtioNet Kernels

/-! ## CPU state -/

structure Segment where
  base : UInt64
  limit : UInt32
  selector : UInt16
  type : UInt8
  present : UInt8
  dpl : UInt8
  db : UInt8
  s : UInt8
  l : UInt8
  g : UInt8
  avl : UInt8
  unusable : UInt8
  deriving DecidableEq

structure DescTable where
  base : UInt64
  limit : UInt16
  deriving DecidableEq

structure KvmRegs where
  rax : UInt64
  rbx : UInt64
  rcx : UInt64
  rdx : UInt64
  rsi : UInt64
  rdi : UInt64
  rsp : UInt64
  rbp : UInt64
  r8 : UInt64
  r9 : UInt64
  r10 : UInt64
  r11 : UInt64
  r12 : UInt64
  r13 : UInt64
  r14 : UInt64
  r15 : UInt64
  rip : UInt64
  rflags : UInt64
  deriving DecidableEq

structure KvmSregs where
  cs : Segment
  ds : Segment
  es : Segment
  fs : Segment
  gs : Segment
  ss : Segment
  tr : Segment
  ldt : Segment
  gdt : DescTable
  idt : DescTable
  cr0 : UInt64
  cr2 : UInt64
  cr3 : UInt64
  cr4 : UInt64
  cr8 : UInt64
  efer : UInt64
  apicBase : UInt64
  deriving DecidableEq

structure CpuState where
  regs : KvmRegs
  sregs : KvmSregs
  msrs : List (UInt32 × UInt64)
  xcrs : List (UInt32 × UInt64)
  deriving DecidableEq

/-! ## What is written of them -/

def fields (named : List (String × Json)) : Json := .object (named.map fun field => (field.1.toList, field.2))

def Segment.toJson (segment : Segment) : Json := fields [
  ("base", .number segment.base.toNat), ("limit", .number segment.limit.toNat),
  ("selector", .number segment.selector.toNat), ("type", .number segment.type.toNat),
  ("present", .number segment.present.toNat), ("dpl", .number segment.dpl.toNat),
  ("db", .number segment.db.toNat), ("s", .number segment.s.toNat), ("l", .number segment.l.toNat),
  ("g", .number segment.g.toNat), ("avl", .number segment.avl.toNat),
  ("unusable", .number segment.unusable.toNat)]

def DescTable.toJson (table : DescTable) : Json :=
  fields [("base", .number table.base.toNat), ("limit", .number table.limit.toNat)]

def KvmRegs.toJson (regs : KvmRegs) : Json := fields [
  ("rax", .number regs.rax.toNat), ("rbx", .number regs.rbx.toNat), ("rcx", .number regs.rcx.toNat),
  ("rdx", .number regs.rdx.toNat), ("rsi", .number regs.rsi.toNat), ("rdi", .number regs.rdi.toNat),
  ("rsp", .number regs.rsp.toNat), ("rbp", .number regs.rbp.toNat), ("r8", .number regs.r8.toNat),
  ("r9", .number regs.r9.toNat), ("r10", .number regs.r10.toNat), ("r11", .number regs.r11.toNat),
  ("r12", .number regs.r12.toNat), ("r13", .number regs.r13.toNat), ("r14", .number regs.r14.toNat),
  ("r15", .number regs.r15.toNat), ("rip", .number regs.rip.toNat), ("rflags", .number regs.rflags.toNat)]

def KvmSregs.toJson (sregs : KvmSregs) : Json := fields [
  ("cs", sregs.cs.toJson), ("ds", sregs.ds.toJson), ("es", sregs.es.toJson), ("fs", sregs.fs.toJson),
  ("gs", sregs.gs.toJson), ("ss", sregs.ss.toJson), ("tr", sregs.tr.toJson), ("ldt", sregs.ldt.toJson),
  ("gdt", sregs.gdt.toJson), ("idt", sregs.idt.toJson), ("cr0", .number sregs.cr0.toNat),
  ("cr2", .number sregs.cr2.toNat), ("cr3", .number sregs.cr3.toNat), ("cr4", .number sregs.cr4.toNat),
  ("cr8", .number sregs.cr8.toNat), ("efer", .number sregs.efer.toNat),
  ("apic_base", .number sregs.apicBase.toNat)]

def registers (pairs : List (UInt32 × UInt64)) : Json :=
  .array (pairs.map fun pair => .array [.number pair.1.toNat, .number pair.2.toNat])

def CpuState.toJson (cpu : CpuState) : Json := fields [
  ("regs", cpu.regs.toJson), ("sregs", cpu.sregs.toJson), ("msrs", registers cpu.msrs), ("xcrs", registers cpu.xcrs)]

def virtioNetJson (state : VirtioNetState) : Json := fields [
  ("selected_queue", .number state.selectedQueue.toNat),
  ("queue_pfns", .array (state.queuePfns.toList.map fun pfn => .number pfn.toNat)),
  ("queue_sizes", .array (state.queueSizes.toList.map fun size => .number size.toNat)),
  ("guest_features", .number state.guestFeatures.toNat), ("device_features", .number state.deviceFeatures.toNat),
  ("status", .number state.status.toNat), ("isr", .number state.isr.toNat),
  ("irq_line", .number state.irqLine.toNat), ("bar0_shadow", .number state.bar0Shadow.toNat),
  ("next_rx_idx", .number state.nextRxIdx.toNat), ("intr_pending", .bool state.intrPending)]

structure SnapMeta where
  version : UInt32
  loadAddr : UInt64
  memorySize : UInt64
  format : String
  hasXsave : Bool
  memChecksum : Option String
  kernelVersion : String
  kernelHash : String
  deriving DecidableEq

def optionJson (text : Option String) : Json := (text.map fun text => Json.string text.toList).getD .null

def SnapMeta.toJson (info : SnapMeta) : Json := fields [
  ("version", .number info.version.toNat), ("load_addr", .number info.loadAddr.toNat),
  ("memory_size", .number info.memorySize.toNat), ("format", .string info.format.toList),
  ("has_xsave", .bool info.hasXsave), ("mem_checksum", optionJson info.memChecksum),
  ("kernel_version", .string info.kernelVersion.toList), ("kernel_hash", .string info.kernelHash.toList)]

/-- `to_string_pretty`. -/
@[irreducible] def text (value : Json) : String := String.ofList (value.pretty 0)

def written (value : Json) : List UInt8 := (text value).toUTF8.data.toList

/-! ## Snapshots -/

/-- So many bytes. -/
abbrev Bytes (size : Nat) := { bytes : List UInt8 // bytes.length = size }

abbrev XsaveBuffer := Bytes xsaveSize

def chipSize : Nat := 512

structure IrqChipState where
  masterPic : Option (Bytes chipSize)
  slavePic : Option (Bytes chipSize)
  ioapic : Option (Bytes chipSize)

/-- The file handle is a number among the open files. -/
structure Snapshot where
  memory : List UInt8
  memorySize : UInt64
  cpu : CpuState
  loadAddr : UInt64
  xsave : Option XsaveBuffer
  irqchips : Option IrqChipState
  memFd : Option Nat
  virtioNetState : Option VirtioNetState
  kernelVersion : String
  kernelHash : String

inductive InvalidSnapshot where
  | tooLarge (size : Nat)
  | checksumMismatch (stored computed : String)
  | kernelChanged (cause : KernelRegistryError)
  | kernelMissing (version : String) (path : Path)
  | unaligned (loadAddr : UInt64)
  | overflows (loadAddr : UInt64) (size : Nat)
  | overlaps (loadAddr : UInt64) (size : Nat) (region : Nat × Nat)
  | xsaveSize (size : Nat)
  | chipSize (name : String) (size : Nat)
  | noMemorySource
  | noMemFd

inductive SnapshotError where
  | io (e : IoError)
  | serde
  | invalid (reason : InvalidSnapshot)

instance : FromIo SnapshotError := ⟨.io⟩

/-- The hashes, and the readers of what `to_string_pretty` writes. -/
structure Formats where
  blake3 : List UInt8 → String
  sha256 : List UInt8 → String
  parseCpu : String → Option CpuState
  parseMeta : String → Option SnapMeta
  parseVirtioNet : String → Option VirtioNetState

abbrev SnapshotAction (α : Type) := Attempt SnapshotError Disk α

def maxSnapshotMemorySize : Nat := 1073741824

namespace Snapshot
variable (formats : Formats) (snapshot : Snapshot) (dir : Path)

/-- `Clone`, which has no handle to give away. -/
def clone : Snapshot := { snapshot with memFd := none }

/-! ### Saving -/

def saveFile (path : Path) (bytes : List UInt8) : SnapshotAction Unit := do
  openTruncate path
  writeAll path bytes
  syncAll

/-- The memory is written from the vector, or else read from the start of the
file. -/
def saveMem : SnapshotAction Unit := do
  openTruncate (dir ++ ["mem"])
  if snapshot.memory ≠ [] then
    writeAll (dir ++ ["mem"]) snapshot.memory
  else
    match snapshot.memFd with
    | some fd => do
      let reader ← tryClone fd
      seekStart reader
      let buf ← readExact reader snapshot.memorySize.toNat
      writeAll (dir ++ ["mem"]) buf
    | none => Attempt.fail (.invalid .noMemorySource)
  syncAll

def memChecksum : SnapshotAction (Option String) :=
  if snapshot.memory ≠ [] then
    pure (some (formats.blake3 snapshot.memory))
  else
    match snapshot.memFd with
    | some fd => do
      let reader ← tryClone fd
      seekStart reader
      let bytes ← readRest reader
      return some (formats.blake3 bytes)
    | none => pure none

def snapMeta (checksum : Option String) : SnapMeta where
  version := 1
  loadAddr := snapshot.loadAddr
  memorySize := snapshot.memorySize
  format := "raw"
  hasXsave := snapshot.xsave.isSome
  memChecksum := checksum
  kernelVersion := snapshot.kernelVersion
  kernelHash := snapshot.kernelHash

/-- An optional file. -/
def saveOptional (name : String) : Option (List UInt8) → SnapshotAction Unit
  | some bytes => saveFile (dir ++ [name]) bytes
  | none => pure ()

def saveIrqchips : SnapshotAction Unit :=
  match snapshot.irqchips with
  | some chips => do
    saveOptional dir "irqchip0.bin" (chips.masterPic.map Subtype.val)
    saveOptional dir "irqchip1.bin" (chips.slavePic.map Subtype.val)
    saveOptional dir "irqchip2.bin" (chips.ioapic.map Subtype.val)
  | none => pure ()

def save : SnapshotAction Unit := do
  createDirAll dir
  snapshot.saveMem dir
  saveFile (dir ++ ["state.json"]) (written snapshot.cpu.toJson)
  let checksum ← snapshot.memChecksum formats
  saveFile (dir ++ ["meta.json"]) (written (snapshot.snapMeta checksum).toJson)
  saveOptional dir "xsave.bin" (snapshot.xsave.map Subtype.val)
  saveOptional dir "virtio_net.json" (snapshot.virtioNetState.map fun state => written (virtioNetJson state))
  snapshot.saveIrqchips dir

/-! ### Loading -/

def checkSize (size : Nat) : SnapshotAction Unit :=
  if maxSnapshotMemorySize < size then Attempt.fail (.invalid (.tooLarge size)) else pure ()

def readToString (path : Path) : SnapshotAction String := do
  let bytes ← readFile path
  match String.fromUTF8? ⟨bytes.toArray⟩ with
  | none => Attempt.fail (.io .invalidData)
  | some text => pure text

def readJson {α : Type} (parse : String → Option α) (path : Path) : SnapshotAction α := do
  let text ← readToString path
  match parse text with
  | none => Attempt.fail .serde
  | some value => pure value

def verifyChecksum (info : SnapMeta) : SnapshotAction Unit :=
  match info.memChecksum with
  | none => pure ()
  | some stored => do
    let verifyFile ← openRead (dir ++ ["mem"])
    let bytes ← readRest verifyFile
    if formats.blake3 bytes ≠ stored then
      Attempt.fail (.invalid (.checksumMismatch stored (formats.blake3 bytes)))

/-- `dir.parent().parent().parent().join("kernel")`. -/
def kernelRegistryPath : Option Path :=
  if 3 ≤ dir.length then some (dir.dropLast.dropLast.dropLast ++ ["kernel"]) else none

def verifyKernel (info : SnapMeta) : SnapshotAction Unit :=
  if info.kernelVersion ≠ "" ∧ info.kernelHash ≠ "" then
    match kernelRegistryPath dir with
    | none => pure ()
    | some kernelDir => do
      if ← pathExists kernelDir then
        let path := kernelFile kernelDir info.kernelVersion "base"
        if ← pathExists path then
          (verifyKernelHash formats.sha256 path info.kernelHash).adapt fun e => .invalid (.kernelChanged e)
        else
          Attempt.fail (.invalid (.kernelMissing info.kernelVersion path))
  else
    pure ()

def checkPlacement (loadAddr : UInt64) (size : Nat) : SnapshotAction Unit :=
  if loadAddr.toNat % 0x1000 ≠ 0 then
    Attempt.fail (.invalid (.unaligned loadAddr))
  else if 0x10000000000000000 ≤ loadAddr.toNat + size then
    Attempt.fail (.invalid (.overflows loadAddr size))
  else
    match reservedMmioRegions.find? fun region =>
      loadAddr.toNat < region.1 + region.2 ∧ region.1 < loadAddr.toNat + size with
    | some region => Attempt.fail (.invalid (.overlaps loadAddr size region))
    | none => pure ()

/-- A file that is read if it is there, and has this many bytes. -/
def loadBytes (path : Path) (size : Nat) (wrong : Nat → InvalidSnapshot) : SnapshotAction (Option (Bytes size)) := do
  if ← pathExists path then
    let bytes ← readFile path
    if fits : bytes.length = size then
      return some ⟨bytes, fits⟩
    else
      Attempt.fail (.invalid (wrong bytes.length))
  else
    return none

def loadIrqchips : SnapshotAction (Option IrqChipState) := do
  let master ← pathExists (dir ++ ["irqchip0.bin"])
  let slave ← pathExists (dir ++ ["irqchip1.bin"])
  let ioapic ← pathExists (dir ++ ["irqchip2.bin"])
  if ¬ master ∧ ¬ slave ∧ ¬ ioapic then
    return none
  else
    let masterPic ← loadBytes (dir ++ ["irqchip0.bin"]) chipSize (.chipSize "irqchip0.bin")
    let slavePic ← loadBytes (dir ++ ["irqchip1.bin"]) chipSize (.chipSize "irqchip1.bin")
    let ioapic ← loadBytes (dir ++ ["irqchip2.bin"]) chipSize (.chipSize "irqchip2.bin")
    return some ⟨masterPic, slavePic, ioapic⟩

/-- A device state that cannot be parsed is passed over. -/
def loadVirtioNet : SnapshotAction (Option VirtioNetState) := do
  if ← pathExists (dir ++ ["virtio_net.json"]) then
    let text ← readToString (dir ++ ["virtio_net.json"])
    return formats.parseVirtioNet text
  else
    return none

def load : SnapshotAction Snapshot := do
  let size ← metadataLen (dir ++ ["mem"])
  checkSize size
  let memFile ← openRead (dir ++ ["mem"])
  let cpu ← readJson formats.parseCpu (dir ++ ["state.json"])
  let info ← readJson formats.parseMeta (dir ++ ["meta.json"])
  verifyChecksum formats dir info
  verifyKernel formats dir info
  checkPlacement info.loadAddr size
  let xsave ← loadBytes (dir ++ ["xsave.bin"]) xsaveSize .xsaveSize
  let irqchips ← loadIrqchips dir
  let virtioNetState ← loadVirtioNet formats dir
  return {
    memory := []
    memorySize := .ofNat size
    cpu := cpu
    loadAddr := info.loadAddr
    xsave := xsave
    irqchips := irqchips
    memFd := some memFile
    virtioNetState := virtioNetState
    kernelVersion := info.kernelVersion
    kernelHash := info.kernelHash }

/-! ### Memory on demand -/

/-- The clone of the handle is read from where it stands. -/
def ensureMemoryLoaded : SnapshotAction Snapshot :=
  if snapshot.memory ≠ [] then
    pure snapshot
  else
    match snapshot.memFd with
    | some fd => do
      let reader ← tryClone fd
      let buf ← readExact reader snapshot.memorySize.toNat
      return { snapshot with memory := buf }
    | none => Attempt.fail (.invalid .noMemFd)

end Snapshot
end TinyMachine.Snapshots
