import TinyMachine.KvmHost
import TinyMachine.Vm

/-! `ForkEngine::fork` call by call: the snapshot's memory mapped privately,
shared regions and interrupt controllers put in place, the vCPU restored. What
was opened is given back by scope guards when a call fails. -/
namespace TinyMachine.Forking
open Lib Lib.Attempt Snapshots KvmHost VirtioNet

/-- `SharedMemError`, of calls on an existing region. -/
inductive SharedMemError where
  | noFreeSlot (max : Nat)
  | kvm (error : KvmError)
  deriving DecidableEq, Repr

/-- `ForkError`, as far as `fork` goes. -/
inductive ForkFailure where
  | kvm (error : KvmError)
  | sharedMem (error : SharedMemError)
  deriving DecidableEq, Repr

abbrev Forks (α : Type) := Attempt ForkFailure HostState α

/-! ## What goes into a fork -/

/-- A region the process has mapped, shared with every fork. -/
structure SharedMemoryRegion where
  hostPtr : Nat
  size : Nat
  deriving DecidableEq

structure ForkEngine where
  snapshot : Snapshot
  vcpuMmapSize : Nat
  enableIrqchip : Bool
  cpuidCache : List CpuidEntry
  sharedRegions : List (SharedMemoryRegion × Nat)
  tapFd : Option Int32

structure ForkedVm where
  vm : Nat
  vcpu : Nat
  kvmRunPtr : Nat
  kvmRunSize : Nat
  memoryPtr : Nat
  memorySize : Nat
  postBoot : Bool
  enableIrqchip : Bool
  entropyDivergence : Bool
  virtioNet : Option VirtioNetPci

/-- The first entry of leaf 7 loses what would add to the saved state of the
vCPU, and `WAITPKG`. -/
def filterCpuidForFork : List CpuidEntry → List CpuidEntry
  | [] => []
  | entry :: rest =>
    if entry.function = 7 ∧ entry.index = 0 then
      { entry with
        ecx := entry.ecx &&& ~~~bit 4 &&& ~~~bit 5 &&& ~~~bit 7 &&& ~~~bit 11
        edx := entry.edx &&& ~~~bit 15 &&& ~~~bit 20 } :: rest
    else entry :: filterCpuidForFork rest

def ForkEngine.new (supported : Option (List CpuidEntry)) (snapshot : Snapshot) (vcpuMmapSize : Nat) : ForkEngine where
  snapshot := snapshot
  vcpuMmapSize := vcpuMmapSize
  enableIrqchip := false
  cpuidCache := filterCpuidForFork (supported.getD [])
  sharedRegions := []
  tapFd := none

def ForkEngine.addSharedRegion (engine : ForkEngine) (region : SharedMemoryRegion) (guestPhys : Nat) : ForkEngine :=
  { engine with sharedRegions := engine.sharedRegions ++ [(region, guestPhys)] }

def xcr0X87SseAvx : UInt64 := 0x207

/-- 4096 bytes that are zero but for the state components they hold. -/
def buildCleanXsave (xcr0 : UInt64) : Memory := Memory.zeroed.storeLE 512 8 (xcr0 &&& 0x207).toNat

def sharedMemSlotBase : Nat := 1

def maxSharedSlots : Nat := 31

/-- `PIC_MASTER`, `PIC_SLAVE` and `IOAPIC`. -/
def picMaster : Nat := 0
def picSlave : Nat := 1
def ioapicChip : Nat := 2

/-- The interrupt mask register in a PIC's state. -/
def imrOffset : Nat := 2

/-- The entry of interrupt 11 in the IOAPIC's redirection table. -/
def ioapicEntry11 : Nat := 24 + 11 * 8

def chipState (data : Bytes chipSize) : Memory := Memory.zeroed.store 0 data.1

/-- Vector 0x3B, level-triggered, unmasked, for the first processor. -/
def patchIoapic (state : Memory) : Memory := (state.storeLE ioapicEntry11 4 0x803B).storeLE (ioapicEntry11 + 4) 4 0

section Fork
variable (kernel : Kernel) (engine : ForkEngine)

/-- `SharedMemoryRegion::ept_map`. A kernel without read-only memory is refused. -/
def SharedMemoryRegion.eptMap (region : SharedMemoryRegion) (vm guestPhys slotOffset : Nat) :
    Attempt SharedMemError HostState Unit := do
  if slotOffset ≥ maxSharedSlots then fail (.noFreeSlot maxSharedSlots)
  else
    let readonly ← (hasReadonlyMem kernel).attempt
    if readonly ≠ some true then fail (.kvm (.capability 81))
    else
      (setMemoryRegion kernel vm ⟨sharedMemSlotBase + slotOffset, guestPhys, region.size, region.hostPtr, true⟩).adapt .kvm

/-- The snapshot's file is mapped privately, else its bytes are copied. -/
def mapMemory : KvmCall Nat := do
  let size := engine.snapshot.memorySize.toNat
  match engine.snapshot.memFd with
  | some fd =>
    let file := (← Attempt.get).files fd
    mmap kernel "fork CoW mmap from mem_fd failed" size (Memory.zeroed.store 0 file)
  | none =>
    if engine.snapshot.memory.isEmpty then
      fail (.mmap "fork fallback: snapshot memory Vec is empty and no mem_fd")
    else
      let ptr ← mmap kernel "fork anonymous mmap failed" size Memory.zeroed
      modify fun host => { host with memory := host.memory.store ptr engine.snapshot.memory }
      return ptr

/-- `restore_one` -/
def restoreOne (vm chip : Nat) (data : Option (Bytes chipSize)) : KvmCall Unit :=
  match data with
  | some data => do
    let _ ← (setIrqchip kernel vm chip (chipState data)).attempt
    return ()
  | none => return ()

/-- Interrupt 11 is unmasked on the slave PIC. -/
def unmaskIrq11 (vm : Nat) : KvmCall Unit := do
  let _ ← (getIrqchip kernel vm picMaster).attempt
  match ← (getIrqchip kernel vm picSlave).attempt with
  | some pic =>
    let imr := pic imrOffset
    if (imr >>> 3) &&& 1 = 1 then
      let _ ← (setIrqchip kernel vm picSlave (pic.store imrOffset [imr &&& ~~~8])).attempt
      return ()
    else return ()
  | none => return ()

/-- The redirection table is taken from the snapshot, not from the VM. -/
def routeIrq11 (vm : Nat) (ioapic : Option (Bytes chipSize)) : KvmCall Unit :=
  match ioapic with
  | some data => do
    match ← (setIrqchip kernel vm ioapicChip (patchIoapic (chipState data))).attempt with
    | some () =>
      let _ ← (getIrqchip kernel vm ioapicChip).attempt
      return ()
    | none => return ()
  | none => return ()

def restoreChips (vm : Nat) (chips : IrqChipState) : KvmCall Unit := do
  restoreOne kernel vm picMaster chips.masterPic
  restoreOne kernel vm picSlave chips.slavePic
  restoreOne kernel vm ioapicChip chips.ioapic
  unmaskIrq11 kernel vm
  routeIrq11 kernel vm chips.ioapic

/-- The interrupt controllers, which must be there before the vCPU. -/
def setUpIrqchip (vm : Nat) : KvmCall Unit :=
  if engine.enableIrqchip then do
    createIrqchip kernel vm
    createPit kernel vm
    let _ ← (setPit2 kernel vm).attempt
    match engine.snapshot.irqchips with
    | some chips => restoreChips kernel vm chips
    | none => return ()
  else return ()

/-- Only the CPUID and the two sets of registers may not fail. -/
def restoreCpu (vcpu : Nat) : KvmCall Unit := do
  let cpu := engine.snapshot.cpu
  setCpuid2 kernel vcpu engine.cpuidCache
  setSregs kernel vcpu cpu.sregs
  setRegs kernel vcpu cpu.regs
  let _ ← (restoreMsrs kernel vcpu cpu.msrs).attempt
  let _ ← (setXcrs kernel vcpu cpu.xcrs).attempt
  let xcr0 := (cpu.xcrs.head?.map Prod.snd).getD xcr0X87SseAvx
  let _ ← (setXsave kernel vcpu (buildCleanXsave xcr0)).attempt
  if engine.enableIrqchip then
    let _ ← (enableApic kernel vcpu).attempt
    return ()
  else return ()

/-- Shared regions in the slots after the snapshot's. -/
def mapShared (vm : Nat) : Forks Unit :=
  forEach engine.sharedRegions.zipIdx fun entry =>
    (entry.1.1.eptMap kernel vm entry.1.2 entry.2).adapt .sharedMem

/-- `ForkEngine::fork`. `kvm_run` is a bare pointer: no guard unmaps it when
restoring the vCPU fails. -/
def fork : Forks ForkedVm := do
  let vm ← (createVm kernel).adapt .kvm
  guarded (fun host => host.closeFd vm) do
    let memorySize := engine.snapshot.memorySize.toNat
    let memoryPtr ← (mapMemory kernel engine).adapt .kvm
    guarded (fun host => host.munmap memoryPtr memorySize) do
      let loadAddr := engine.snapshot.loadAddr.toNat
      (setMemoryRegion kernel vm ⟨0, loadAddr, memorySize, memoryPtr, false⟩).adapt .kvm
      mapShared kernel engine vm
      (setUpIrqchip kernel engine vm).adapt .kvm
      let vcpu ← (createVcpu kernel vm 0).adapt .kvm
      guarded (fun host => host.closeFd vcpu) do
        let kvmRunPtr ← (kvmRunPtr kernel engine.vcpuMmapSize).adapt .kvm
        (restoreCpu kernel engine vcpu).adapt .kvm
        let _ ← (ioctl kernel "KVM_GET_REGS").attempt
        return {
          vm := vm
          vcpu := vcpu
          kvmRunPtr := kvmRunPtr
          kvmRunSize := engine.vcpuMmapSize
          memoryPtr := memoryPtr
          memorySize := memorySize
          postBoot := engine.enableIrqchip
          enableIrqchip := engine.enableIrqchip
          entropyDivergence := true
          virtioNet := engine.snapshot.virtioNetState.map fun state => .fromState state engine.tapFd }

end Fork

/-! ## What guests and the host do to memory -/

/-- Where a guest-physical address lies in the process, and whether the guest
may only read there. -/
def translate (slots : List KvmMemoryRegion) (gpa : Nat) : Option (Nat × Bool) :=
  (slots.find? fun slot => slot.guestPhysAddr ≤ gpa ∧ gpa < slot.guestPhysAddr + slot.memorySize).map fun slot =>
    (slot.userspaceAddr + (gpa - slot.guestPhysAddr), slot.readOnly)

def guestReads (host : HostState) (vm gpa : Nat) : Option UInt8 :=
  (translate (host.vms vm).slots gpa).map fun place => host.memory place.1

/-- A write to read-only memory, or to none, leaves the guest instead. -/
def guestWrites (host : HostState) (vm gpa : Nat) (byte : UInt8) : HostState :=
  match translate (host.vms vm).slots gpa with
  | some (address, false) => { host with memory := host.memory.store address [byte] }
  | _ => host

/-- `SharedMemoryRegion::write` -/
def SharedMemoryRegion.write (region : SharedMemoryRegion) (offset : Nat) (data : List UInt8) (host : HostState) :
    Option HostState :=
  if offset + data.length > region.size then none
  else some { host with memory := host.memory.store (region.hostPtr + offset) data }

/-- `ForkedVm::drop`, and then that of its fields. -/
def ForkedVm.drop (forked : ForkedVm) (host : HostState) : HostState :=
  (((host.munmap forked.memoryPtr forked.memorySize).munmap forked.kvmRunPtr forked.kvmRunSize).closeFd
    forked.vm).closeFd forked.vcpu

/-- A vector of VMs goes out of scope. -/
def dropAll (vms : List ForkedVm) (host : HostState) : HostState := vms.foldl (fun host forked => forked.drop host) host

/-- The loop of `fork_batch`; what was forked so far goes with a failure. -/
def forkOnto (kernel : Kernel) (engine : ForkEngine) (vms : List ForkedVm) : Nat → Forks (List ForkedVm)
  | 0 => return vms
  | count + 1 => do
    let forked ← guarded (dropAll vms) (fork kernel engine)
    forkOnto kernel engine (vms ++ [forked]) count

/-- `ForkEngine::fork_batch` -/
def forkBatch (kernel : Kernel) (engine : ForkEngine) (count : Nat) : Forks (List ForkedVm) :=
  forkOnto kernel engine [] count

end TinyMachine.Forking
