import TinyMachine.BootNoClobber
import TinyMachine.InterruptLine
import TinyMachine.KvmHost
import TinyMachine.PortIo

/-! A boot in two phases: the VBIOS of a GPU runs in real mode, in the memory
the kernel is already loaded into, and the vCPU is set up for the kernel
afterwards. -/
namespace TinyMachine.VbiosPost
open Lib Snapshots BootImage PortIo
open KvmHost (KvmError)
open InterruptLine (MmioExit)
open PciConfig (ConfigFd PciState VfioPciInfo Width bytesLE composeLE inlineExit)

/-- `BootError`, of the two phases. -/
inductive PostError where
  | boot (error : BootError)
  | kvm (error : KvmError)
  | guestExit (message : String)

/-! ## What is written for the VBIOS -/

def vbiosIvtAddr : Nat := 0
def vbiosIvtSize : Nat := 1024
def vbiosBdaAddr : Nat := 0x400
def vbiosBdaSize : Nat := 256
def vbiosStubAddr : Nat := 0x8000
def vbiosStubSeg : UInt16 := 0x0800
def vbiosStubEntryOffset : Nat := 0x10
def minVbiosSize : Nat := 512
def maxVbiosSize : Nat := 4 * 1024 * 1024

/-- Every interrupt goes to the `iret` of the stub. -/
def ivt : List UInt8 := (List.replicate 256 [0x00, 0x00, 0x00, 0x08]).flatten

def writeIvt (memSize : Nat) (mem : Memory) : Except BootError Memory := do
  validateGuestRange memSize vbiosIvtAddr vbiosIvtSize
  return mem.store vbiosIvtAddr ivt

/-- Zeros, but for the equipment word. -/
def writeBda (memSize : Nat) (mem : Memory) : Except BootError Memory := do
  validateGuestRange memSize vbiosBdaAddr (vbiosBdaAddr + vbiosBdaSize)
  return (mem.fill vbiosBdaAddr vbiosBdaSize 0).storeLE 0x410 2 0x0034

/-- What of the ROM fits below the kernel. -/
def romCopied (data : List UInt8) : List UInt8 := data.take (defaultLoadAddr - vbiosRomAddr)

def copyRom (memSize : Nat) (data : List UInt8) (mem : Memory) : Except BootError Memory := do
  validateGuestRange memSize vbiosRomAddr (vbiosRomAddr + (romCopied data).length)
  return mem.store vbiosRomAddr (romCopied data)

/-- `iret` and `hlt`, and at the entry `lcall 0xC000:0x0003` and `hlt`. -/
def writeStub (memSize : Nat) (mem : Memory) : Except BootError Memory := do
  validateGuestRange memSize vbiosStubAddr (vbiosStubAddr + 0x20)
  return (mem.store vbiosStubAddr [0xCF, 0xF4]).store (vbiosStubAddr + vbiosStubEntryOffset)
    [0x9A, 0x03, 0x00, 0x00, 0xC0, 0xF4, 0xF4]

/-- The four writes before the VBIOS runs. -/
def prepare (memSize : Nat) (data : List UInt8) (mem : Memory) : Except BootError Memory := do
  let mem ← writeIvt memSize mem
  let mem ← writeBda memSize mem
  let mem ← copyRom memSize data mem
  writeStub memSize mem

/-! ## The vCPU -/

def realModeSegment (segment : Segment) : Segment :=
  { segment with
    base := 0, selector := 0, type := 3, present := 1, dpl := 0, db := 0, s := 1, l := 0, g := 0
    limit := 0xFFFF }

/-- The task register, the LDT and the GDT are kept. -/
def realModeSregs (sregs : KvmSregs) : KvmSregs :=
  { sregs with
    cr0 := 0x10
    cr4 := 0
    efer := 0
    cr3 := 0
    cs := { sregs.cs with
      base := vbiosStubSeg.toUInt64 <<< 4, selector := vbiosStubSeg, type := 0xB, present := 1, dpl := 0
      db := 0, s := 1, l := 0, g := 0, limit := 0xFFFF }
    ds := realModeSegment sregs.ds
    es := realModeSegment sregs.es
    fs := realModeSegment sregs.fs
    gs := realModeSegment sregs.gs
    ss := realModeSegment sregs.ss
    idt := ⟨0, 1023⟩ }

def noRegs : KvmRegs := ⟨0, 0, 0, 0, 0, 0, 0, 0, 0, 0, 0, 0, 0, 0, 0, 0, 0, 0⟩

/-- The function to initialize is the GPU behind the root port. -/
def realModeRegs : KvmRegs :=
  { noRegs with rip := 0x10, rflags := 0x202, rsp := 0xE000, rax := 0x0100, rbx := 0xFFFF, rdx := 0xFFFF }

def longModeSegment (segment : Segment) : Segment :=
  { segment with
    base := 0, selector := 0x10, type := 3, present := 1, dpl := 0, db := 0, s := 1, l := 0, g := 1
    limit := 0xFFFFF }

/-- The task register, the LDT and the IDT are kept. -/
def longModeSregs (sregs : KvmSregs) : KvmSregs :=
  { sregs with
    gdt := ⟨.ofNat gdtAddr, 23⟩
    cs := { sregs.cs with
      base := 0, selector := 0x08, type := 0xB, present := 1, dpl := 0, db := 0, s := 1, l := 1, g := 1
      limit := 0xFFFFF }
    ds := longModeSegment sregs.ds
    es := longModeSegment sregs.es
    fs := longModeSegment sregs.fs
    gs := longModeSegment sregs.gs
    ss := longModeSegment sregs.ss
    cr3 := .ofNat pml4Addr
    cr4 := 0x20
    efer := 0x500
    cr0 := 0xE0050033 }

def longModeRegs (kernelEntry : UInt64) : KvmRegs :=
  { noRegs with rflags := 2, rip := kernelEntry, rsp := 0x80000, rsi := .ofNat bootParamsAddr }

/-- A vCPU and the memory it runs in. -/
structure Machine where
  mem : Memory
  sregs : KvmSregs
  regs : KvmRegs

/-- The last steps of `boot_linux`, on a vCPU as KVM creates it. -/
def bootVcpu (kernelEntry : UInt64) (fresh : KvmSregs) (mem : Memory) : Machine :=
  ⟨mem, longModeSregs fresh, longModeRegs kernelEntry⟩

/-- What the calls on the vCPU come to. -/
structure VcpuMet where
  getSregs : Except KvmError Unit
  setSregs : Except KvmError Unit
  setRegs : Except KvmError Unit

def kvm {α : Type} (call : Except KvmError α) : Except PostError α := call.mapError .kvm

def setVcpu (met : VcpuMet) (sregs : KvmSregs → KvmSregs) (regs : KvmRegs) (machine : Machine) :
    Except PostError Machine := do
  kvm met.getSregs
  kvm met.setSregs
  kvm met.setRegs
  return { machine with sregs := sregs machine.sregs, regs := regs }

/-- `reconfigure_long_mode` -/
def reconfigureLongMode (memSize : Nat) (kernelEntry : UInt64) (met : VcpuMet) (machine : Machine) :
    Except PostError Machine := do
  let mem ← (setupPageTables machine.mem memSize).mapError .boot
  setVcpu met longModeSregs (longModeRegs kernelEntry) { machine with mem := setupGdt mem }

/-! ## What the VBIOS asks for -/

section Exits
variable {δ : Type} (fd : ConfigFd δ)

/-- `vbios_handle_io_exit`: what is put into the exit's data area. -/
def handleIoExit (vfio : Option VfioPciInfo) (exit : IoExit) (pci : PciState δ) :
    List UInt8 × PciState δ :=
  match exit.direction with
  | .input =>
    if exit.port = pciConfigAddrPort then inlineExit fd vfio pci (.addressIn exit.size)
    else if IsPciData exit.port then inlineExit fd vfio pci (.dataIn (lane exit.port) exit.size)
    else
      let val : UInt32 :=
        if IsUart exit.port then 0xFF
        -- Both DMA controllers have finished, and memory is being refreshed.
        else if exit.port = 0x08 ∨ exit.port = 0xD0 then 0x0F
        else if exit.port = 0x61 then 0x10
        else if IsPic exit.port then 0xFFFF
        else 0
      (bytesLE exit.size.bytes val, pci)
  | .output =>
    let val := composeLE (exit.data.take exit.size.bytes)
    if exit.port = pciConfigAddrPort then inlineExit fd vfio pci (.addressOut exit.size val)
    else if IsPciData exit.port then inlineExit fd vfio pci (.dataOut (lane exit.port) exit.size val)
    else ([], pci)

/-- A BAR of the device, and its size as the region has it. -/
structure VfioMmioInfo where
  bars : List (UInt32 × UInt64)
  configRegionOffset : UInt64

/-- A register, if all four bytes come. -/
def preadWord (offset : UInt64) (device : δ) : Option UInt32 × δ :=
  match fd.readAt offset 4 device with
  | (some bytes, after) => (if (bytes.take 4).length = 4 then some (composeLE bytes) else none, after)
  | (none, after) => (none, after)

/-- Where configuration space says that a BAR is. -/
def barBase (mmio : VfioMmioInfo) (barIdx : UInt32) (device : δ) : Option UInt64 × δ :=
  let barReg := mmio.configRegionOffset + (0x10 + barIdx * 4).toUInt64
  match preadWord fd barReg device with
  | (none, after) => (none, after)
  | (some raw, after) =>
    let low := (raw &&& ~~~0xF).toUInt64
    if low = 0 then (none, after)
    else if (raw >>> 1) &&& 3 = 2 then
      match preadWord fd (barReg + 4) after with
      | (some upper, after) => (some (low ||| upper.toUInt64 <<< 32), after)
      | (none, after) => (none, after)
    else (some low, after)

/-- All eight bytes of the exit are moved, whatever the guest's access. -/
def moveMmio (access : MmioExit) (offset : UInt64) (device : δ) : Option (List UInt8) × δ :=
  if access.isWrite then
    match fd.writeAt offset access.data.toList device with
    | (some 8, after) => (some [], after)
    | (_, after) => (none, after)
  else
    match fd.readAt offset 8 device with
    | (some bytes, after) => (some (bytes.take 8 ++ List.replicate (8 - bytes.length) 0xFF), after)
    | (none, after) => (none, after)

/-- `vbios_try_forward_mmio` over the BARs. Sums wrap, as in a release build. -/
def tryForwardMmio (mmio : VfioMmioInfo) (access : MmioExit) :
    List (UInt32 × UInt64) → δ → Option (List UInt8) × δ
  | [], device => (none, device)
  | (barIdx, size) :: bars, device =>
    if barIdx > 5 then tryForwardMmio mmio access bars device
    else
      match barBase fd mmio barIdx device with
      | (none, after) => tryForwardMmio mmio access bars after
      | (some base, after) =>
        if base ≤ access.physAddr ∧ access.physAddr < base + size then
          match moveMmio fd access ((barIdx.toUInt64 <<< 12) + (access.physAddr - base)) after with
          | (some given, after) => (some given, after)
          | (none, after) => tryForwardMmio mmio access bars after
        else tryForwardMmio mmio access bars after

def handleMmioExit (mmio : Option VfioMmioInfo) (access : MmioExit) (pci : PciState δ) :
    List UInt8 × PciState δ :=
  let unanswered := if access.isWrite then [] else List.replicate 8 0xFF
  match mmio with
  | none => (unanswered, pci)
  | some mmio =>
    let (forwarded, device) := tryForwardMmio fd mmio access mmio.bars pci.device
    (forwarded.getD unanswered, { pci with device := device })

/-- Why the guest was left. -/
inductive PostExit where
  | hlt
  | failEntry (hwReason : Nat)
  | io (exit : IoExit)
  | mmio (access : MmioExit)
  | other (reason : Nat)

/-- The VBIOS has run: what it made of the machine and of the device, how
`KVM_RUN` returned (`none` is `EINTR`), and whether five seconds have passed. -/
structure Leg (δ : Type) where
  machine : Machine
  device : δ
  ret : Except KvmError (Option PostExit)
  late : Bool

/-- `answers`: what was put into the data areas so far. -/
structure Post (δ : Type) where
  machine : Machine
  pci : PciState δ
  answers : List (List UInt8)

def Post.answered (post : Post δ) (answer : List UInt8 × PciState δ) : Post δ :=
  { post with pci := answer.2, answers := post.answers ++ [answer.1] }

variable (vfio : Option VfioPciInfo) (mmio : Option VfioMmioInfo)

/-- The loop of `vbios_run_until_hlt`, which goes on while the VBIOS does. -/
def runUntilHlt : List (Leg δ) → Post δ → Option (Except PostError (Post δ))
  | [], _ => none
  | leg :: legs, post =>
    let post := { post with machine := leg.machine, pci := { post.pci with device := leg.device } }
    match leg.ret with
    | .error e => some (.error (.kvm e))
    | .ok none => runUntilHlt legs post
    | .ok (some reason) =>
      if leg.late then some (.ok post)
      else
        match reason with
        | .hlt => some (.ok post)
        | .failEntry hwReason =>
          some (.error (.guestExit s!"VBIOS POST FAIL_ENTRY: hw_reason=0x{hex hwReason}"))
        | .io exit => runUntilHlt legs (post.answered (handleIoExit fd vfio exit post.pci))
        | .mmio access => runUntilHlt legs (post.answered (handleMmioExit fd mmio access post.pci))
        | .other reason => some (.error (.guestExit s!"VBIOS POST unexpected exit: reason={reason}"))

/-- `run_vbios_post`. Data of an odd size is not run. -/
def runVbiosPost (memSize : Nat) (data : List UInt8) (met : VcpuMet) (legs : List (Leg δ)) (pci : PciState δ)
    (machine : Machine) : Option (Except PostError Machine) :=
  if data.length < minVbiosSize ∨ data.length > maxVbiosSize then some (.ok machine)
  else
    match (prepare memSize data machine.mem).mapError PostError.boot with
    | .error e => some (.error e)
    | .ok mem =>
      match setVcpu met realModeSregs realModeRegs { machine with mem := mem } with
      | .error e => some (.error e)
      | .ok machine =>
        (runUntilHlt fd vfio mmio legs ⟨machine, { pci with configAddr := 0 }, []⟩).map fun ran =>
          ran.map Post.machine

/-- From the end of `boot_linux` to the kernel's first instruction. -/
def secondPhase (memSize : Nat) (data : List UInt8) (kernelEntry : UInt64) (met again : VcpuMet)
    (legs : List (Leg δ)) (pci : PciState δ) (machine : Machine) : Option (Except PostError Machine) :=
  (runVbiosPost fd vfio mmio memSize data met legs pci machine).map fun ran =>
    ran.bind (reconfigureLongMode memSize kernelEntry again)

end Exits
end TinyMachine.VbiosPost
