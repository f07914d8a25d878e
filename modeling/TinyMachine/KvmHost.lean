import TinyMachine.Lapic
import TinyMachine.Lib.Spans
import TinyMachine.Lib.Triples
import TinyMachine.Snapshot

/-! The process that forks VMs and the kernel under it: the descriptors and
mappings it holds, the VMs and vCPUs behind them, and the wrapped calls of
`kvm.rs`. The kernel may refuse any call, at any time. -/
namespace TinyMachine.KvmHost
open Lib Lib.Attempt Snapshots

/-- `KvmError`, of calls after `/dev/kvm` is open. -/
inductive KvmError where
  | ioctl (context : String) (errno : Nat)
  | capability (cap : Nat)
  | mmap (message : String)
  deriving DecidableEq, Repr

def KvmError.display : KvmError → String
  | ioctl context errno => s!"KVM ioctl failed: {context} — errno {errno}"
  | capability cap => s!"KVM capability {cap} not supported"
  | mmap message => s!"mmap failed: {message}"

def ENXIO : Nat := 6
def EEXIST : Nat := 17
def EINVAL : Nat := 22

/-- `KvmCpuidEntry2Raw` -/
structure CpuidEntry where
  function : UInt32
  index : UInt32
  flags : UInt32
  eax : UInt32
  ebx : UInt32
  ecx : UInt32
  edx : UInt32
  deriving DecidableEq

/-! ## What the kernel holds -/

/-- A memory region of a VM, on a part of the process's memory. -/
structure KvmMemoryRegion where
  slot : Nat
  guestPhysAddr : Nat
  memorySize : Nat
  userspaceAddr : Nat
  readOnly : Bool
  deriving DecidableEq

def KvmMemoryRegion.span (slot : KvmMemoryRegion) : Span := ⟨slot.guestPhysAddr, slot.guestPhysAddr + slot.memorySize⟩

def KvmMemoryRegion.overlaps (slot other : KvmMemoryRegion) : Bool :=
  slot.guestPhysAddr < other.guestPhysAddr + other.memorySize ∧
    other.guestPhysAddr < slot.guestPhysAddr + slot.memorySize

/-- The fields of `KvmPitChannelState` that are not zero throughout. -/
structure PitChannel where
  count : Nat
  writeState : Nat
  rwMode : Nat
  mode : Nat
  gate : Nat
  deriving DecidableEq

structure Vm where
  slots : List KvmMemoryRegion
  /-- The in-kernel PICs and IOAPIC by their numbers. -/
  chips : Option (Nat → Memory)
  pit : Option (List PitChannel)
  vcpu : Option Nat

structure Vcpu where
  cpuid : List CpuidEntry
  sregs : KvmSregs
  regs : KvmRegs
  msrs : UInt32 → UInt64
  xcrs : List (UInt32 × UInt64)
  xsave : Memory
  lapic : Lapic.Page

/-- What the kernel decides. -/
structure Kernel where
  /-- The error with which it refuses a call, by the calls made before. -/
  refusal : Nat → Option Nat
  /-- Where it puts a mapping: where there is none. -/
  place : List Span → Nat → Nat
  place_pos : ∀ mapped size, 0 < place mapped size
  place_free : ∀ mapped size, ∀ other ∈ mapped, Span.Disjoint ⟨place mapped size, place mapped size + size⟩ other
  readonlyMem : Bool
  acceptsMsr : UInt32 → UInt64 → Bool
  freshVcpu : Vcpu
  freshChips : Nat → Memory
  freshPit : List PitChannel
  /-- What the APIC base register does to the APIC when it is written. -/
  setApicBase : UInt64 → Lapic.Page → Lapic.Page

/-- Descriptors are numbered by the calls that opened them. -/
structure HostState where
  asked : Nat
  fds : List Nat
  mappings : List Span
  memory : Memory
  files : Nat → List UInt8
  vms : Nat → Vm
  vcpus : Nat → Vcpu
  /-- How often something was given back that was not held. -/
  strays : Nat

namespace HostState
variable (host : HostState)

def setVm (fd : Nat) (vm : Vm) : HostState := { host with vms := Function.update host.vms fd vm }

def setVcpu (fd : Nat) (vcpu : Vcpu) : HostState := { host with vcpus := Function.update host.vcpus fd vcpu }

/-- `OwnedFd::drop` -/
def closeFd (fd : Nat) : HostState :=
  if fd ∈ host.fds then { host with fds := host.fds.erase fd } else { host with strays := host.strays + 1 }

def munmap (address size : Nat) : HostState :=
  if ⟨address, address + size⟩ ∈ host.mappings then
    { host with mappings := host.mappings.erase ⟨address, address + size⟩ }
  else { host with strays := host.strays + 1 }

/-- The bytes of a new mapping. -/
def mapped (address size : Nat) (content : Memory) : HostState :=
  { host with
    mappings := ⟨address, address + size⟩ :: host.mappings
    memory := fun a => if address ≤ a ∧ a < address + size then content (a - address) else host.memory a }

end HostState

abbrev KvmCall (α : Type) := Attempt KvmError HostState α

section Calls
variable (kernel : Kernel)

/-- A call into the kernel. -/
def ask (refused : Nat → KvmError) : KvmCall Unit := fun host =>
  match kernel.refusal host.asked with
  | some errno => (.error (refused errno), { host with asked := host.asked + 1 })
  | none => (.ok (), { host with asked := host.asked + 1 })

def ioctl (context : String) : KvmCall Unit := ask kernel (.ioctl context)

/-- A call that opens a descriptor. -/
def opening (context : String) : KvmCall Nat := do
  let fd := (← Attempt.get).asked
  ioctl kernel context
  modify fun host => { host with fds := fd :: host.fds }
  return fd

def mmap (message : String) (size : Nat) (content : Memory) : KvmCall Nat := do
  ask kernel fun _ => .mmap message
  if size = 0 then fail (.mmap message)
  else
    let address := kernel.place (← Attempt.get).mappings size
    modify fun host => host.mapped address size content
    return address

/-- Refusals with these two errors count as done. -/
def tolerating {α : Type} (value : α) (call : KvmCall α) : KvmCall α := fun host =>
  match call host with
  | (.error (.ioctl context errno), host') =>
    if errno = EINVAL ∨ errno = ENXIO then (.ok value, host') else (.error (.ioctl context errno), host')
  | other => other

/-! ## `Kvm` and `Vm` -/

def createVm : KvmCall Nat := do
  let fd ← opening kernel "KVM_CREATE_VM"
  modify fun host => host.setVm fd ⟨[], none, none, none⟩
  return fd

def setMemoryRegion (vm : Nat) (slot : KvmMemoryRegion) : KvmCall Unit := do
  ioctl kernel "KVM_SET_USER_MEMORY_REGION"
  let host ← Attempt.get
  let others := (host.vms vm).slots.filter fun other => other.slot ≠ slot.slot
  if others.any slot.overlaps then fail (.ioctl "KVM_SET_USER_MEMORY_REGION" EEXIST)
  else modify fun host => host.setVm vm { host.vms vm with slots := others ++ [slot] }

def hasReadonlyMem : KvmCall Bool := do
  ioctl kernel "KVM_CHECK_EXTENSION cap=81 (READONLY_MEM)"
  return kernel.readonlyMem

def createIrqchip (vm : Nat) : KvmCall Unit := do
  ioctl kernel "KVM_CREATE_IRQCHIP"
  let host ← Attempt.get
  if (host.vms vm).vcpu.isSome then fail (.ioctl "KVM_CREATE_IRQCHIP" EINVAL)
  else if (host.vms vm).chips.isSome then fail (.ioctl "KVM_CREATE_IRQCHIP" EEXIST)
  else modify fun host => host.setVm vm { host.vms vm with chips := some kernel.freshChips }

def createPit (vm : Nat) : KvmCall Unit := do
  ioctl kernel "KVM_CREATE_PIT2"
  modify fun host => host.setVm vm { host.vms vm with pit := some kernel.freshPit }

/-- About 100 interrupts a second on the first channel. -/
def setPit2 (vm : Nat) : KvmCall Unit := do
  ioctl kernel "KVM_SET_PIT2"
  modify fun host => host.setVm vm { host.vms vm with pit := some [⟨11932, 3, 3, 3, 1⟩, ⟨0, 3, 3, 3, 1⟩, ⟨0, 3, 3, 3, 1⟩] }

def getIrqchip (vm chip : Nat) : KvmCall Memory := do
  let context := s!"KVM_GET_IRQCHIP(chip_id={chip})"
  ioctl kernel context
  match ((← Attempt.get).vms vm).chips with
  | some chips => return chips chip
  | none => fail (.ioctl context ENXIO)

def setIrqchip (vm chip : Nat) (state : Memory) : KvmCall Unit := do
  let context := s!"KVM_SET_IRQCHIP(chip_id={chip})"
  ioctl kernel context
  match ((← Attempt.get).vms vm).chips with
  | some chips => modify fun host => host.setVm vm { host.vms vm with chips := some (Function.update chips chip state) }
  | none => fail (.ioctl context ENXIO)

def maxVcpus : Nat := 256

def createVcpu (vm id : Nat) : KvmCall Nat := do
  if id ≥ maxVcpus then
    fail (.ioctl s!"KVM_CREATE_VCPU id={id} exceeds MAX_VCPUS={maxVcpus}" EINVAL)
  else
    let fd ← opening kernel s!"KVM_CREATE_VCPU id={id}"
    modify fun host => (host.setVm vm { host.vms vm with vcpu := some fd }).setVcpu fd kernel.freshVcpu
    return fd

/-! ## `Vcpu` -/

def kvmRunPtr (size : Nat) : KvmCall Nat := mmap kernel "kvm_run mmap failed" size Memory.zeroed

/-- A call that changes the state of a vCPU. -/
def setting (context : String) (vcpu : Nat) (change : Vcpu → Vcpu) : KvmCall Unit := do
  ioctl kernel context
  modify fun host => host.setVcpu vcpu (change (host.vcpus vcpu))

def setCpuid2 (vcpu : Nat) (entries : List CpuidEntry) : KvmCall Unit :=
  setting kernel "KVM_SET_CPUID2" vcpu fun state => { state with cpuid := entries }

def setSregs (vcpu : Nat) (sregs : KvmSregs) : KvmCall Unit :=
  setting kernel "KVM_SET_SREGS" vcpu fun state => { state with sregs := sregs }

def setRegs (vcpu : Nat) (regs : KvmRegs) : KvmCall Unit :=
  setting kernel "KVM_SET_REGS" vcpu fun state => { state with regs := regs }

def apicBase : UInt32 := 0x1B

def Vcpu.writeMsr (state : Vcpu) (msr : UInt32 × UInt64) : Vcpu :=
  { state with
    msrs := Function.update state.msrs msr.1 msr.2
    lapic := if msr.1 = apicBase then kernel.setApicBase msr.2 state.lapic else state.lapic }

/-- The kernel writes them in turn up to the first it does not accept. -/
def restoreMsrs (vcpu : Nat) (msrs : List (UInt32 × UInt64)) : KvmCall Nat :=
  if msrs.isEmpty then pure 0
  else
    let accepted := msrs.takeWhile fun msr => kernel.acceptsMsr msr.1 msr.2
    tolerating 0 do
      setting kernel "KVM_SET_MSRS" vcpu fun state => accepted.foldl (Vcpu.writeMsr kernel) state
      return accepted.length

def maxXcrs : Nat := 16

def setXcrs (vcpu : Nat) (xcrs : List (UInt32 × UInt64)) : KvmCall Unit :=
  if xcrs.isEmpty then pure ()
  else tolerating () (setting kernel "KVM_SET_XCRS" vcpu fun state => { state with xcrs := xcrs.take maxXcrs })

def setXsave (vcpu : Nat) (xsave : Memory) : KvmCall Unit :=
  tolerating () (setting kernel "KVM_SET_XSAVE" vcpu fun state => { state with xsave := xsave })

def getApicBase (vcpu : Nat) : KvmCall UInt64 := do
  ioctl kernel "KVM_GET_MSRS(APIC_BASE)"
  return ((← Attempt.get).vcpus vcpu).msrs apicBase

/-- No write at all is an error here. -/
def setApicBase (vcpu : Nat) (value : UInt64) : KvmCall Unit := do
  let context := "KVM_SET_MSRS(APIC_BASE)"
  ioctl kernel context
  if kernel.acceptsMsr apicBase value then
    modify fun host => host.setVcpu vcpu ((host.vcpus vcpu).writeMsr kernel (apicBase, value))
  else fail (.ioctl context 0)

def getLapic (context : String) (vcpu : Nat) : KvmCall Lapic.Page := do
  ioctl kernel context
  return ((← Attempt.get).vcpus vcpu).lapic

def setLapic (context : String) (vcpu : Nat) (page : Lapic.Page) : KvmCall Unit :=
  setting kernel context vcpu fun state => { state with lapic := page }

/-- The APIC is switched off and on again, since only its base register makes
the kernel look at the software enable bit anew. -/
def enableApic (vcpu : Nat) : KvmCall Unit := do
  let current ← getApicBase kernel vcpu
  let enabled := current ||| 0x800
  setApicBase kernel vcpu enabled
  let _ ← (getApicBase kernel vcpu).attempt
  let _ ← (setApicBase kernel vcpu (enabled &&& ~~~0x800)).attempt
  let _ ← (setApicBase kernel vcpu enabled).attempt
  let page ← getLapic kernel "KVM_GET_LAPIC" vcpu
  setLapic kernel "KVM_SET_LAPIC" vcpu (Lapic.enabled page)
  let _ ← (getLapic kernel "KVM_GET_LAPIC" vcpu).attempt
  return ()

def injectLapicIrq (vcpu : Nat) (vector : UInt8) : KvmCall Unit := do
  let page ← getLapic kernel "KVM_GET_LAPIC (inject_lapic_irq)" vcpu
  match Lapic.injectIrq vector page with
  | some page => setLapic kernel "KVM_SET_LAPIC (inject_lapic_irq)" vcpu page
  | none => return ()

/-- Its refusals go unnoticed. -/
def clearLapicIsr (vcpu : Nat) (vector : UInt8) : KvmCall Unit := do
  match ← (getLapic kernel "" vcpu).attempt with
  | none => return ()
  | some page =>
    match Lapic.clearIsr vector page with
    | some page =>
      let _ ← (setLapic kernel "" vcpu page).attempt
      return ()
    | none => return ()

end Calls
end TinyMachine.KvmHost
