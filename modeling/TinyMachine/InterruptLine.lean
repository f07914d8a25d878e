import TinyMachine.DeviceWindows
import TinyMachine.PciConfig
import TinyMachine.VirtioReset

/-! The vCPU thread of a booted VM and the interrupt line of its network
device: what the loop does between two entries of the guest, and when the
level the line was last set to is that of the device's interrupt status. -/
namespace TinyMachine.InterruptLine
open Lib VirtioNet PciConfig PciRootPort

/-- The level each line was last set to. -/
abbrev IrqLevels := UInt32 → Bool

/-- `KVM_IRQ_LINE`. The kernel may refuse, and the loop does not look. -/
def setIrqLine (accepted : Bool) (irq : UInt32) (level : Bool) (levels : IrqLevels) : IrqLevels :=
  if accepted then Function.update levels irq level else levels

/-- The poll after each exit of the guest. -/
def pollRx (accepted : Bool) (levels : IrqLevels) : Guest IrqLevels := do
  let dev := (← Traced.get).dev
  if dev.status < 4 ∨ dev.rxPfn = 0 then return levels
  tryRx
  let dev := (← Traced.get).dev
  if dev.isr = 0 then return levels
  modifyDev fun dev => { dev with intrPending := true }
  return setIrqLine accepted dev.irqLine.toUInt32 true levels

/-- An access to unmapped memory, as `kvm_run` tells of it. -/
structure MmioExit where
  physAddr : UInt64
  len : UInt32
  isWrite : Bool
  data : Vector UInt8 8

namespace MmioExit

def InWindow (access : MmioExit) : Prop :=
  FreshBackend.virtioMmioAddr ≤ access.physAddr.toNat ∧
    access.physAddr.toNat < FreshBackend.virtioMmioAddr + MemoryMap.virtioMmioSize

instance inWindowDecidable (access : MmioExit) : Decidable access.InWindow :=
  inferInstanceAs (Decidable (_ ∧ _))

def offset (access : MmioExit) : UInt32 := (access.physAddr - .ofNat FreshBackend.virtioMmioAddr).toUInt32

/-- The value the guest writes, of four bytes at most. -/
def val (access : MmioExit) : UInt32 := composeLE (access.data.toList.take access.len.toNat)

/-- Answers with the bytes put into the exit's data area. An access elsewhere
maps a BAR of the GPU, or it ends the loop. -/
def handle (mode : Overflow) (access : MmioExit) : Guest (List UInt8) := do
  if ¬ access.InWindow then return []
  if access.isWrite then
    mmioWrite mode access.offset access.val
    return []
  else
    let (val, dev) := (← Traced.get).dev.mmioRead access.offset
    modifyDev fun _ => dev
    if access.offset = 0x13 then
      modifyDev fun dev => { dev with intrPending := false }
    return bytesLE access.len.toNat val

end MmioExit

/-- Why the guest was left. Halts and ports without a device behind them are
nothing to the network device. -/
inductive Reason where
  | other
  | port (access : PortAccess)
  | mmio (access : MmioExit)

/-- The VM with its network device; `device` is the forwarded VFIO device. -/
structure BootedVm (δ : Type) where
  machine : Machine
  levels : IrqLevels
  configAddr : UInt32
  rootPort : Option PcieRootPort
  device : δ

/-- What happens while the guest runs, and how it is left: by a signal, or with
a reason. -/
structure Exit where
  mem : Memory
  frames : List (List UInt8)
  accepted : Bool
  reason : Option Reason

/-- A pass of the loop, or another call of `run_until_ready`. -/
inductive Event where
  | pass (exit : Exit)
  | runAgain

section Loop
variable {δ : Type} (mode : Overflow) (fd : ConfigFd δ) (vfio : Option VfioPciInfo)

namespace BootedVm

def pci (vm : BootedVm δ) : PciState δ := ⟨vm.configAddr, vm.rootPort, some vm.machine.dev, vm.device⟩

def afterPort (vm : BootedVm δ) (access : PortAccess) : BootedVm δ :=
  let state := (mainExit fd vfio vm.pci access).2
  { vm with
    machine := { vm.machine with dev := state.virtioNet.getD vm.machine.dev }
    configAddr := state.configAddr
    rootPort := state.rootPort
    device := state.device }

/-- The guest has run. -/
def left (vm : BootedVm δ) (exit : Exit) : BootedVm δ :=
  { vm with
    machine := { vm.machine with mem := exit.mem, tapIncoming := vm.machine.tapIncoming ++ exit.frames } }

def Handles (reason : Reason) (vm next : BootedVm δ) : Prop :=
  match reason with
  | .other => next = vm
  | .port access => next = vm.afterPort fd vfio access
  | .mmio access => ∃ data t, (access.handle mode).Returns vm.machine data t ∧ next = { vm with machine := t }

/-- From one entry of the guest to the next. -/
def Passes (vm : BootedVm δ) (exit : Exit) (next : BootedVm δ) : Prop :=
  match exit.reason with
  | none => next = vm.left exit
  | some reason => ∃ levels t, (pollRx exit.accepted vm.levels).Returns (vm.left exit).machine levels t ∧
      Handles mode fd vfio reason { vm.left exit with machine := t, levels := levels } next

/-- The thread has not yet entered the guest. -/
def Booted (vm : BootedVm δ) : Prop :=
  (∃ mmioBase tapFd, vm.machine.dev = { VirtioNetPci.new mmioBase with tapFd := tapFd }) ∧
  vm.levels = fun _ => false

end BootedVm

def loopRuns : System (BootedVm δ) Event where
  start := BootedVm.Booted
  step vm event next :=
    match event with
    | .pass exit => vm.Passes mode fd vfio exit next
    | .runAgain => next = { vm with configAddr := 0 }

end Loop

/-- The line is asserted exactly while the device's interrupt status is not
zero. -/
def FollowsIsr {δ : Type} (vm : BootedVm δ) : Prop :=
  vm.levels vm.machine.dev.irqLine.toUInt32 = true ↔ vm.machine.dev.isr ≠ 0

/-! ## When an exit raises or acknowledges an interrupt -/

/-- A poll finds something to deliver and a chain for it. -/
def Brings (m : Machine) : Prop :=
  m.dev.rxPfn ≠ 0 ∧ ¬ RingEmpty m.mem m.dev.rxPfn ∧ rxQueue m ≠ []

section Polling
variable {pfn : UInt64} {m t : Machine} {u : Unit}

private theorem deliver_still (packet : List UInt8) (fromTap : Bool) (isr : UInt8) :
    (deliver pfn packet fromTap).Keeps fun m => RingEmpty m.mem pfn ∧ m.dev.isr = isr := by
  intro m _ t before returned
  have split := deliver_returns.mp returned
  rw [if_pos before.1] at split
  exact split.2 ▸ before

theorem frames_raise {incoming : List (List UInt8)} (room : ¬ RingEmpty m.mem pfn)
    (found : frameQueue incoming ≠ []) (returned : (rxFrames pfn incoming).Returns m u t) : Raised t := by
  induction incoming generalizing m with
  | nil => exact absurd rfl found
  | cons incoming rest ih =>
    obtain ⟨_, r, read, onward⟩ := Traced.bind_returns.mp returned
    rw [Traced.modify_returns] at read
    have later : ¬ RingEmpty r.mem pfn := by
      rw [← read]
      exact room
    rw [frameQueue] at found
    by_cases nothing : readFrame incoming = []
    · exact absurd (if_pos nothing) found
    · rw [if_neg nothing] at found
      rw [readFrame] at nothing found
      simp only [nothing, if_false] at onward
      by_cases ipv6 : isIpv6 (incoming.take (maxPacketSize - virtioNetHdrSize))
      · rw [if_pos ipv6] at onward found
        exact ih later found onward
      · rw [if_neg ipv6] at onward
        obtain ⟨ok, r', delivered, ending⟩ := Traced.bind_returns.mp onward
        have raised : Raised r' := deliver_raises later delivered
        by_cases more : ok
        · rw [if_pos more] at ending
          exact rxFrames_keeps deliver_keeps_raised (fun _ _ same => same) _ _ _ _ raised ending
        · rw [if_neg more] at ending
          exact (Traced.pure_returns.mp ending).2 ▸ raised

theorem frames_quiet {incoming : List (List UInt8)} (none : frameQueue incoming = [])
    (returned : (rxFrames pfn incoming).Returns m u t) : t.dev = m.dev := by
  induction incoming generalizing m with
  | nil => rw [← (Traced.pure_returns.mp returned).2]
  | cons incoming rest ih =>
    obtain ⟨_, r, read, onward⟩ := Traced.bind_returns.mp returned
    rw [Traced.modify_returns] at read
    have same : r.dev = m.dev := by rw [← read]
    rw [← same]
    rw [frameQueue] at none
    by_cases nothing : readFrame incoming = []
    · rw [readFrame] at nothing
      simp only [nothing, if_true] at onward
      rw [← (Traced.pure_returns.mp onward).2]
    · rw [if_neg nothing] at none
      rw [readFrame] at nothing none
      simp only [nothing, if_false] at onward
      by_cases ipv6 : isIpv6 (incoming.take (maxPacketSize - virtioNetHdrSize))
      · rw [if_pos ipv6] at onward none
        exact ih none onward
      · rw [if_neg ipv6] at none
        cases none

theorem poll_brings (brings : Brings m) (returned : tryRx.Returns m u t) : Raised t := by
  obtain ⟨set, room, found⟩ := brings
  by_cases pending : m.dev.synackPending = none ∧ m.dev.arpReplyPending = none
  · have split := tryRx_returns.mp returned
    simp only [set, if_false] at split
    obtain ⟨r, r', first, second, last⟩ := split
    rw [pending.1] at first
    obtain ⟨-, rfl⟩ := Traced.pure_returns.mp first
    have arp : m.tookSynack.dev.arpReplyPending = none := pending.2
    rw [arp] at second
    obtain ⟨-, rfl⟩ := Traced.pure_returns.mp second
    rw [rxQueue, pending.1, pending.2] at found
    by_cases tap : m.dev.tapFd.isSome
    · have attached : m.tookSynack.tookArp.dev.tapFd.isSome := tap
      rw [if_pos attached] at last
      rw [if_pos tap] at found
      have offered : ¬ RingEmpty m.tookSynack.tookArp.mem m.dev.rxPfn := room
      exact frames_raise offered found last
    · rw [if_neg tap] at found
      exact absurd rfl found
  · exact poll_raises set room pending returned

theorem poll_quiet (quiet : ¬ Brings m) (returned : tryRx.Returns m u t) : t.dev.isr = m.dev.isr := by
  have split := tryRx_returns.mp returned
  by_cases unset : m.dev.rxPfn = 0
  · rw [if_pos unset] at split
    rw [split]
  · rw [if_neg unset] at split
    obtain ⟨r, r', first, second, last⟩ := split
    by_cases empty : RingEmpty m.mem m.dev.rxPfn
    · have still := @deliver_still m.dev.rxPfn
      have kept := deliverPending_keeps (fun packet fromTap => still packet fromTap m.dev.isr) _
        m.tookSynack _ r ⟨empty, rfl⟩ first
      have held := deliverPending_keeps (fun packet fromTap => still packet fromTap m.dev.isr) _
        r.tookArp _ r' kept second
      by_cases tap : r'.dev.tapFd.isSome
      · rw [if_pos tap] at last
        exact (rxFrames_keeps (fun packet fromTap => still packet fromTap m.dev.isr)
          (fun _ _ same => same) _ r' _ t held last).2
      · rw [if_neg tap] at last
        exact last ▸ held.2
    · have nothing : rxQueue m = [] := by
        by_contra found
        exact quiet ⟨unset, empty, found⟩
      obtain ⟨replies, frames⟩ := List.append_eq_nil_iff.mp nothing
      obtain ⟨synack, arp⟩ := List.append_eq_nil_iff.mp replies
      have noSynack : m.dev.synackPending = none := by simpa [pendingQueue] using synack
      have noArp : m.dev.arpReplyPending = none := by simpa [pendingQueue] using arp
      rw [noSynack] at first
      obtain ⟨-, rfl⟩ := Traced.pure_returns.mp first
      have later : m.tookSynack.dev.arpReplyPending = none := noArp
      rw [later] at second
      obtain ⟨-, rfl⟩ := Traced.pure_returns.mp second
      by_cases tap : m.dev.tapFd.isSome
      · have attached : m.tookSynack.tookArp.dev.tapFd.isSome := tap
        rw [if_pos attached] at last
        rw [if_pos tap] at frames
        rw [frames_quiet frames last]
        rfl
      · have detached : ¬ m.tookSynack.tookArp.dev.tapFd.isSome := tap
        rw [if_neg detached] at last
        exact last ▸ rfl

/-- The loop polls after this exit. -/
def Polls (m : Machine) : Prop := ¬ (m.dev.status < 4 ∨ m.dev.rxPfn = 0)

/-- The loop polls and something is delivered. -/
def Raises (m : Machine) : Prop := ¬ m.dev.status < 4 ∧ Brings m

theorem Raises.polls (raises : Raises m) : Polls m := by
  rintro (early | unset)
  · exact raises.1 early
  · exact raises.2.1 unset

variable {accepted : Bool} {levels levels' : IrqLevels}

theorem pollRx_returns : (pollRx accepted levels).Returns m levels' t ↔
    if m.dev.status < 4 ∨ m.dev.rxPfn = 0 then levels = levels' ∧ m = t
    else ∃ r, tryRx.Returns m () r ∧
      if r.dev.isr = 0 then levels = levels' ∧ r = t
      else setIrqLine accepted r.dev.irqLine.toUInt32 true levels = levels' ∧
        { r with dev := { r.dev with intrPending := true } } = t := by
  by_cases idle : m.dev.status < 4 ∨ m.dev.rxPfn = 0
  · simp [pollRx, idle]
  · simp only [pollRx, Traced.bind_returns, Traced.get_returns, and_assoc, exists_and_left, exists_eq_left', idle,
      if_false, Traced.ite_returns, Traced.pure_returns, modifyDev_returns, Unique.exists_iff, PUnit.default_eq_unit]

/-- After a poll the status tells of what was raised before it or by it, and
the line is set if anything is. -/
theorem pollRx_effect (built : AsBuilt m.dev) (returned : (pollRx accepted levels).Returns m levels' t) :
    AsBuilt t.dev ∧ (t.dev.isr ≠ 0 ↔ m.dev.isr ≠ 0 ∨ Raises m) ∧
      (levels' 11 = true ↔ levels 11 = true ∨ accepted ∧ Polls m ∧ (m.dev.isr ≠ 0 ∨ Raises m)) := by
  have split := pollRx_returns.mp returned
  by_cases idle : m.dev.status < 4 ∨ m.dev.rxPfn = 0
  · rw [if_pos idle] at split
    obtain ⟨rfl, rfl⟩ := split
    have calm : ¬ Raises m := fun raises => raises.polls idle
    have asleep : ¬ Polls m := not_not.mpr idle
    exact ⟨built, by simp [calm], by simp [asleep]⟩
  · rw [if_neg idle] at split
    obtain ⟨r, polled, ended⟩ := split
    have awake : ¬ m.dev.status < 4 := fun early => idle (.inl early)
    have polls : Polls m := idle
    have kept : AsBuilt r.dev := tryRx_keeps (asBuilt_lasts .checked) m () r built polled
    have told : r.dev.isr ≠ 0 ↔ m.dev.isr ≠ 0 ∨ Raises m := by
      by_cases brings : Brings m
      · have raised : r.dev.isr ≠ 0 := by
          intro zero
          have one := poll_brings brings polled
          rw [Raised, zero] at one
          exact absurd one (by decide)
        simp [raised, Raises, awake, brings]
      · simp [poll_quiet brings polled, Raises, brings]
    by_cases zero : r.dev.isr = 0
    · rw [if_pos zero] at ended
      obtain ⟨rfl, rfl⟩ := ended
      refine ⟨kept, told, ?_⟩
      have calm : ¬ (m.dev.isr ≠ 0 ∨ Raises m) := fun some => told.mpr some zero
      simp [calm]
    · rw [if_neg zero] at ended
      obtain ⟨rfl, rfl⟩ := ended
      refine ⟨⟨kept.1, kept.2, kept.3⟩, told, ?_⟩
      have line : r.dev.irqLine.toUInt32 = 11 := by
        rw [kept.irqLine]
        rfl
      rw [line]
      have some := told.mp zero
      cases accepted <;> simp [setIrqLine, polls, some]

end Polling

/-- The access clears the interrupt status: it reads or writes the status
register, or resets the device. -/
def MmioExit.Acknowledges (access : MmioExit) : Prop :=
  access.InWindow ∧
    (access.offset = 0x13 ∨ access.isWrite = true ∧ access.offset = 0x12 ∧ access.val.toUInt8 = 0)

def Reason.Acknowledges : Reason → Prop
  | .mmio access => access.Acknowledges
  | _ => False

section Handling
variable {mode : Overflow} {m t : Machine}

theorem mmioRead_isr (dev : VirtioNetPci) (offset : UInt32) :
    (dev.mmioRead offset).2.isr ≠ 0 ↔ dev.isr ≠ 0 ∧ offset ≠ 0x13 := by
  by_cases status : offset = 0x13
  · subst status
    simp [VirtioNetPci.mmioRead]
  · have elsewhere : offset.toNat ≠ 0x13 := fun same => status (UInt32.toNat_inj.mp same)
    have same : (dev.mmioRead offset).2 = dev := by
      unfold VirtioNetPci.mmioRead
      split <;> first | rfl | contradiction
    simp [same, status]

theorem written_isr (dev : VirtioNetPci) (offset val : UInt32) :
    (dev.written offset val).isr ≠ 0 ↔ dev.isr ≠ 0 ∧ ¬ (offset = 0x13 ∨ offset = 0x12 ∧ val.toUInt8 = 0) := by
  by_cases status : offset = 0x13
  · subst status
    simp [VirtioNetPci.written]
  · by_cases driver : offset = 0x12
    · subst driver
      by_cases zero : val.toUInt8 = 0
      · simp [VirtioNetPci.written, VirtioNetPci.reset, zero]
      · simp [VirtioNetPci.written, zero]
    · have notStatus : offset.toNat ≠ 0x13 := fun same => status (UInt32.toNat_inj.mp same)
      have notDriver : offset.toNat ≠ 0x12 := fun same => driver (UInt32.toNat_inj.mp same)
      have same : (dev.written offset val).isr = dev.isr := by
        unfold VirtioNetPci.written
        split
        case h_2 => split <;> rfl
        all_goals first | rfl | contradiction
      simp [same, status, driver]

theorem kick_isr {q : Nat} {u : Unit} (returned : (handleQueueKick mode q).Returns m u t) :
    t.dev.isr = m.dev.isr := by
  refine @kick_keeps mode (fun dev => dev.isr = m.dev.isr) ?_ q m u t rfl returned
  intro dev packet dev' same after
  obtain ⟨synack, arp, rfl⟩ := afterPacket_registers after
  exact same

theorem mmioWrite_isr {offset val : UInt32} {u : Unit} (returned : (mmioWrite mode offset val).Returns m u t) :
    t.dev.isr ≠ 0 ↔ m.dev.isr ≠ 0 ∧ ¬ (offset = 0x13 ∨ offset = 0x12 ∧ val.toUInt8 = 0) := by
  have split := mmioWrite_returns.mp returned
  by_cases kick : offset.toNat = 0x10 ∧ ∃ valid : val.toNat < 2, m.dev.queuePfns[val.toNat] ≠ 0
  · rw [if_pos kick] at split
    have other : ¬ (offset = 0x13 ∨ offset = 0x12 ∧ val.toUInt8 = 0) := by
      rintro (rfl | ⟨rfl, -⟩) <;> exact absurd kick.1 (by decide)
    rw [kick_isr split]
    simp [other]
  · rw [if_neg kick] at split
    rw [← split]
    exact written_isr m.dev offset val

/-- Handling an access of the guest clears the status when it acknowledges, and
leaves what the VM built. -/
theorem handle_effect {access : MmioExit} {data : List UInt8} (returned : (access.handle mode).Returns m data t) :
    (t.dev.isr ≠ 0 ↔ m.dev.isr ≠ 0 ∧ ¬ access.Acknowledges) ∧ (AsBuilt m.dev → AsBuilt t.dev) := by
  unfold MmioExit.handle at returned
  by_cases inside : access.InWindow
  · simp only [inside, not_true_eq_false, if_false] at returned
    by_cases write : access.isWrite = true
    · rw [if_pos write] at returned
      obtain ⟨_, r, wrote, ended⟩ := Traced.bind_returns.mp returned
      obtain ⟨-, rfl⟩ := Traced.pure_returns.mp ended
      constructor
      · rw [mmioWrite_isr wrote, MmioExit.Acknowledges]
        simp [inside, write]
      · exact fun built => mmioWrite_keeps (asBuilt_lasts mode) _ _ m _ r built wrote
    · rw [if_neg write] at returned
      have same : t.dev = (m.dev.mmioRead access.offset).2 := by
        obtain ⟨_, r, got, onward⟩ := Traced.bind_returns.mp returned
        obtain ⟨rfl, rfl⟩ := Traced.get_returns.mp got
        obtain ⟨_, r, kept, ending⟩ := Traced.bind_returns.mp onward
        rw [modifyDev_returns] at kept
        by_cases status : access.offset = 0x13
        · rw [if_pos status] at ending
          obtain ⟨_, r', cleared, ended⟩ := Traced.bind_returns.mp ending
          rw [modifyDev_returns] at cleared
          rw [← (Traced.pure_returns.mp ended).2, ← cleared, ← kept, status]
          rfl
        · rw [if_neg status] at ending
          rw [← (Traced.pure_returns.mp ending).2, ← kept]
      rw [same]
      constructor
      · rw [mmioRead_isr, MmioExit.Acknowledges]
        simp [inside, write]
      · exact (asBuilt_lasts mode).read m.dev access.offset
  · simp only [inside, not_false_eq_true, if_true] at returned
    obtain ⟨-, rfl⟩ := Traced.pure_returns.mp returned
    simp [MmioExit.Acknowledges, inside]

end Handling

section Passing
variable {δ : Type} {mode : Overflow} {fd : ConfigFd δ} {vfio : Option VfioPciInfo}

/-- An access to configuration space changes nothing of the network device but
its BAR. -/
theorem mainExit_virtioNet {state : PciState δ} {dev : VirtioNetPci} (present : state.virtioNet = some dev)
    (access : PortAccess) :
    ∃ bar0, (mainExit fd vfio state access).2.virtioNet = some { dev with bar0Shadow := bar0 } := by
  have same : state.virtioNet = some { dev with bar0Shadow := dev.bar0Shadow } := present
  cases access with
  | addressIn size => exact ⟨_, same⟩
  | addressOut size val => exact ⟨_, same⟩
  | dataIn lane size =>
    unfold mainExit ioExit
    cases decode state.configAddr with
    | none => exact ⟨_, same⟩
    | some target =>
      simp only [pciConfigRead]
      split
      · exact ⟨_, same⟩
      · split
        · exact ⟨_, same⟩
        · cases slotOf target with
          | rootPort =>
            simp only
            split <;> exact ⟨_, same⟩
          | _ => exact ⟨_, same⟩
  | dataOut lane size val =>
    unfold mainExit ioExit
    cases decode state.configAddr with
    | none => exact ⟨_, same⟩
    | some target =>
      simp only [pciConfigWrite]
      split
      · exact ⟨_, same⟩
      · split
        · exact ⟨_, same⟩
        · cases slotOf target with
          | virtioNet =>
            simp only
            split
            · exact ⟨_, by rw [present]; rfl⟩
            · exact ⟨_, same⟩
          | _ => exact ⟨_, same⟩

namespace BootedVm
variable {vm next : BootedVm δ}

theorem handles_effect {reason : Reason} (built : AsBuilt vm.machine.dev)
    (handles : Handles mode fd vfio reason vm next) :
    AsBuilt next.machine.dev ∧ next.levels = vm.levels ∧
      (next.machine.dev.isr ≠ 0 ↔ vm.machine.dev.isr ≠ 0 ∧ ¬ reason.Acknowledges) := by
  cases reason with
  | other =>
    cases handles
    exact ⟨built, rfl, by simp [Reason.Acknowledges]⟩
  | port access =>
    cases handles
    have present : vm.pci.virtioNet = some vm.machine.dev := rfl
    obtain ⟨bar0, moved⟩ := @mainExit_virtioNet δ fd vfio vm.pci _ present access
    simp only [afterPort, moved, Option.getD_some]
    exact ⟨⟨built.1, built.2, built.3⟩, trivial, by simp [Reason.Acknowledges]⟩
  | mmio access =>
    obtain ⟨data, t, returned, rfl⟩ := handles
    obtain ⟨told, kept⟩ := handle_effect returned
    exact ⟨kept built, rfl, told⟩

/-- The exit and what the poll behind it finds leave the line where the status
is: an exit that acknowledges comes while nothing is raised, and the kernel
takes the level of a status that is. -/
def KeepsUp (vm : BootedVm δ) (exit : Exit) : Prop :=
  ∀ reason, exit.reason = some reason →
    (reason.Acknowledges → vm.machine.dev.isr = 0 ∧ (Raises (vm.left exit).machine → exit.accepted = false)) ∧
    (¬ reason.Acknowledges → vm.machine.dev.isr = 0 → Raises (vm.left exit).machine → exit.accepted = true)

theorem follows_iff (built : AsBuilt vm.machine.dev) :
    FollowsIsr vm ↔ (vm.levels 11 = true ↔ vm.machine.dev.isr ≠ 0) := by
  rw [FollowsIsr, built.irqLine]
  rfl

/-- One pass of the loop. -/
theorem passes_effect {exit : Exit} (built : AsBuilt vm.machine.dev) (follows : FollowsIsr vm)
    (passes : vm.Passes mode fd vfio exit next) :
    AsBuilt next.machine.dev ∧ (FollowsIsr next ↔ vm.KeepsUp exit) := by
  rw [follows_iff built] at follows
  unfold Passes at passes
  cases because : exit.reason with
  | none =>
    rw [because] at passes
    cases passes
    have kept : AsBuilt (vm.left exit).machine.dev := built
    refine ⟨kept, (follows_iff kept).trans ⟨fun _ reason given => ?_, fun _ => follows⟩⟩
    cases because.symm.trans given
  | some reason =>
    rw [because] at passes
    obtain ⟨levels, t, polled, handles⟩ := passes
    have ready : AsBuilt (vm.left exit).machine.dev := built
    obtain ⟨asBuilt, raised, line⟩ := pollRx_effect ready polled
    obtain ⟨kept, sameLevels, told⟩ := handles_effect asBuilt handles
    refine ⟨kept, ?_⟩
    rw [follows_iff kept, sameLevels, told]
    simp only [raised, line]
    have before : (vm.left exit).machine.dev.isr = vm.machine.dev.isr := rfl
    have only : vm.KeepsUp exit ↔
        (reason.Acknowledges → vm.machine.dev.isr = 0 ∧ (Raises (vm.left exit).machine → exit.accepted = false)) ∧
        (¬ reason.Acknowledges → vm.machine.dev.isr = 0 → Raises (vm.left exit).machine → exit.accepted = true) := by
      simp [KeepsUp, because]
    rw [only, before, follows]
    -- An interrupt that was up stays up unless it is acknowledged; one that comes up now needs the kernel.
    by_cases up : vm.machine.dev.isr = 0
    · by_cases raises : Raises (vm.left exit).machine
      · by_cases acknowledged : reason.Acknowledges <;> simp [up, raises, raises.polls, acknowledged]
      · simp [up, raises]
    · simp [up]

/-- What a step of a run keeps up with. -/
def Admits (vm : BootedVm δ) : Event → Prop
  | .pass exit => vm.KeepsUp exit
  | .runAgain => True

theorem reached_follows (reached : (loopRuns mode fd vfio).Reached Admits vm) :
    AsBuilt vm.machine.dev ∧ FollowsIsr vm := by
  refine @System.Reached.invariant _ _ _ _ (fun vm => AsBuilt vm.machine.dev ∧ FollowsIsr vm) vm reached ?_ ?_
  · rintro vm ⟨⟨mmioBase, tapFd, fresh⟩, low⟩
    have built : AsBuilt vm.machine.dev := by
      rw [fresh]
      exact ⟨rfl, rfl, rfl⟩
    refine ⟨built, (follows_iff built).mpr ?_⟩
    rw [low, fresh]
    simp [VirtioNetPci.new]
  · rintro vm event next ⟨built, follows⟩ admits step
    cases event with
    | pass exit =>
      obtain ⟨kept, told⟩ := passes_effect built follows step
      exact ⟨kept, told.mpr admits⟩
    | runAgain =>
      cases step
      exact ⟨built, follows⟩

/-- In a run that keeps up, the line follows the status at every entry of the
guest, and goes on to follow it exactly after the passes that keep up. -/
theorem line_follows_isr (reached : (loopRuns mode fd vfio).Reached Admits vm) :
    FollowsIsr vm ∧ ∀ exit next, vm.Passes mode fd vfio exit next → (FollowsIsr next ↔ vm.KeepsUp exit) := by
  obtain ⟨built, follows⟩ := reached_follows reached
  exact ⟨follows, fun exit next passes => (passes_effect built follows passes).2⟩

end BootedVm

/-! ## A frame arrives -/

theorem pollRx_runs {accepted : Bool} {levels : IrqLevels} {m r : Machine} (polled : tryRx.Returns m () r) :
    ∃ levels' t, (pollRx accepted levels).Returns m levels' t := by
  by_cases idle : m.dev.status < 4 ∨ m.dev.rxPfn = 0
  · exact ⟨levels, m, pollRx_returns.mpr (by rw [if_pos idle]; exact ⟨rfl, rfl⟩)⟩
  · by_cases zero : r.dev.isr = 0
    · refine ⟨levels, r, pollRx_returns.mpr ?_⟩
      rw [if_neg idle]
      exact ⟨r, polled, by rw [if_pos zero]; exact ⟨rfl, rfl⟩⟩
    · refine ⟨setIrqLine accepted r.dev.irqLine.toUInt32 true levels,
        { r with dev := { r.dev with intrPending := true } }, pollRx_returns.mpr ?_⟩
      rw [if_neg idle]
      exact ⟨r, polled, by rw [if_neg zero]; exact ⟨rfl, rfl⟩⟩

theorem read_runs {access : MmioExit} (inside : access.InWindow) (read : access.isWrite = false) (m : Machine) :
    ∃ data t, (access.handle mode).Returns m data t := by
  by_cases status : access.offset = 0x13
  · simp [MmioExit.handle, inside, read, status]
  · simp [MmioExit.handle, inside, read, status]

theorem write_returns {access : MmioExit} (inside : access.InWindow) (write : access.isWrite = true)
    (noKick : access.offset.toNat ≠ 0x10) (m : Machine) :
    (access.handle mode).Returns m [] { m with dev := m.dev.written access.offset access.val } := by
  have wrote : (mmioWrite mode access.offset access.val).Returns m ()
      { m with dev := m.dev.written access.offset access.val } := by
    refine mmioWrite_returns.mpr ?_
    rw [if_neg fun kick => noKick kick.1]
  simp only [MmioExit.handle, inside, write, not_true_eq_false, if_true, if_false]
  exact Traced.bind_returns.mpr ⟨(), _, wrote, Traced.pure_returns.mpr ⟨rfl, rfl⟩⟩

end Passing

/-- A file that fails every call. -/
def deadFd : ConfigFd Unit := ⟨fun _ _ _ => (none, ()), fun _ _ _ => (none, ())⟩

/-- A guest at a virtio-net device with a TAP. -/
def inGuest (status : UInt8) (rxPfn : UInt64) : BootedVm Unit where
  machine := ⟨{ VirtioNetPci.new 0xFEBF0000 with tapFd := some 3, queuePfns := #v[rxPfn, 0], status := status },
    Memory.zeroed, [], []⟩
  levels := fun _ => false
  configAddr := 0
  rootPort := none
  device := ()

def guestWrites (offset : UInt64) (val : UInt8) : MmioExit where
  physAddr := 0xFEBF0000 + offset
  len := 4
  isWrite := true
  data := #v[val, 0, 0, 0, 0, 0, 0, 0]

def guestReads (offset : UInt64) : MmioExit where
  physAddr := 0xFEBF0000 + offset
  len := 4
  isWrite := false
  data := #v[0, 0, 0, 0, 0, 0, 0, 0]

/-- The guest is left for a register write and nothing else happens. -/
def writing (offset : UInt64) (val : UInt8) : Exit := ⟨Memory.zeroed, [], true, some (.mmio (guestWrites offset val))⟩

theorem writing_passes {status : UInt8} {rxPfn : UInt64} {offset : UInt64} {val : UInt8} {next : BootedVm Unit}
    (early : status < 4) (inside : (guestWrites offset val).InWindow)
    (noKick : (guestWrites offset val).offset.toNat ≠ 0x10)
    (wrote : next = { inGuest status rxPfn with
      machine := { (inGuest status rxPfn).machine with
        dev := (inGuest status rxPfn).machine.dev.written (guestWrites offset val).offset (guestWrites offset val).val } }) :
    (inGuest status rxPfn).Passes .wrapping deadFd none (writing offset val) next := by
  refine ⟨_, _, pollRx_returns.mpr ?_, [], _, write_returns inside rfl noKick _, wrote⟩
  have idle : (inGuest status rxPfn).machine.dev.status < 4 ∨ (inGuest status rxPfn).machine.dev.rxPfn = 0 := .inl early
  exact (if_pos idle).mpr ⟨rfl, rfl⟩

theorem writing_keepsUp {status : UInt8} {rxPfn : UInt64} {offset : UInt64} {val : UInt8} (early : status < 4) :
    (inGuest status rxPfn).KeepsUp (writing offset val) := by
  rintro reason -
  exact ⟨fun _ => ⟨rfl, fun raises => absurd early raises.1⟩, fun _ _ _ => rfl⟩

/-- The reception queue is on page one and the driver is set up. -/
theorem driver_reached : (loopRuns .wrapping deadFd none).Reached BootedVm.Admits (inGuest 4 0x1000) := by
  have booted : (loopRuns .wrapping deadFd none).Reached BootedVm.Admits (inGuest 0 0) :=
    .start ⟨⟨0xFEBF0000, some 3, rfl⟩, rfl⟩
  have placed : (inGuest 0 0).Passes .wrapping deadFd none (writing 0x08 1) (inGuest 0 0x1000) :=
    writing_passes (by decide) (by decide) (by decide) rfl
  have started : (inGuest 0 0x1000).Passes .wrapping deadFd none (writing 0x12 4) (inGuest 4 0x1000) :=
    writing_passes (by decide) (by decide) (by decide) rfl
  have ready : (loopRuns .wrapping deadFd none).Reached BootedVm.Admits (inGuest 0 0x1000) :=
    booted.next (show BootedVm.Admits _ (.pass (writing 0x08 1)) from writing_keepsUp (by decide)) placed
  exact ready.next (show BootedVm.Admits _ (.pass (writing 0x12 4)) from writing_keepsUp (by decide)) started

/-- A frame has come, there is a chain for it, and the guest is left. -/
def arriving (reason : Reason) : Exit := ⟨Memory.zeroed.store 0x2002 [1], [[1]], true, some reason⟩

theorem arriving_raises (reason : Reason) : Raises ((inGuest 4 0x1000).left (arriving reason)).machine := by
  have room : ¬ RingEmpty (Memory.zeroed.store 0x2002 [1]) 0x1000 := by decide +kernel
  have started : ¬ (4 : UInt8) < 4 := by decide
  have set : (0x1000 : UInt64) ≠ 0 := by decide
  have frame : frameQueue [[1]] ≠ [] := by decide
  exact ⟨started, set, room, frame⟩

theorem arriving_polls (reason : Reason) :
    ∃ r, tryRx.Returns ((inGuest 4 0x1000).left (arriving reason)).machine () r := by
  have ended : (tryRx.run 2 ((inGuest 4 0x1000).left (arriving .other)).machine).outcome = .done () := by decide +kernel
  exact ⟨_, Traced.returns_of_run ended⟩

theorem frame_asserts_line : ∃ next : BootedVm Unit,
    (inGuest 4 0x1000).Passes .wrapping deadFd none (arriving .other) next ∧ next.machine.dev.isr ≠ 0 ∧
    FollowsIsr next := by
  obtain ⟨r, polled⟩ := arriving_polls .other
  obtain ⟨levels, t, returned⟩ := @pollRx_runs true (fun _ => false) _ _ polled
  have passes : (inGuest 4 0x1000).Passes .wrapping deadFd none (arriving .other)
      { (inGuest 4 0x1000).left (arriving .other) with machine := t, levels := levels } :=
    ⟨levels, t, returned, rfl⟩
  have keepsUp : (inGuest 4 0x1000).KeepsUp (arriving .other) := by
    rintro reason given
    cases given
    exact ⟨fun acknowledges => acknowledges.elim, fun _ _ _ => rfl⟩
  have reached := driver_reached.next (show BootedVm.Admits _ (.pass (arriving .other)) from keepsUp) passes
  have driver : AsBuilt (inGuest 4 0x1000).machine.dev := (BootedVm.reached_follows driver_reached).1
  have built : AsBuilt ((inGuest 4 0x1000).left (arriving .other)).machine.dev := driver
  have raised : t.dev.isr ≠ 0 := (pollRx_effect built returned).2.1.mpr (.inr (arriving_raises .other))
  exact ⟨_, passes, raised, (BootedVm.line_follows_isr reached).1⟩

/-- A guest that acknowledges its interrupt runs on with the line asserted. -/
theorem acknowledged_line_stays : ¬ ∀ (mode : Overflow) (vm : BootedVm Unit),
    (loopRuns mode deadFd none).Reached (fun _ _ => True) vm → FollowsIsr vm := by
  intro law
  let access := guestReads 0x13
  have inside : access.InWindow := by decide
  obtain ⟨r, polled⟩ := arriving_polls (.mmio access)
  obtain ⟨levels, t, returned⟩ := @pollRx_runs true (fun _ => false) _ _ polled
  obtain ⟨data, t', answered⟩ := @read_runs .wrapping access inside rfl t
  have passes : (inGuest 4 0x1000).Passes .wrapping deadFd none (arriving (.mmio access))
      { (inGuest 4 0x1000).left (arriving (.mmio access)) with machine := t', levels := levels } :=
    ⟨levels, t, returned, data, t', answered, rfl⟩
  have ready : (loopRuns .wrapping deadFd none).Reached (fun _ _ => True) (inGuest 4 0x1000) :=
    driver_reached.mono fun _ _ _ => trivial
  have follows := law .wrapping _ (ready.next trivial
    (show (loopRuns .wrapping deadFd none).step _ (.pass (arriving (.mmio access))) _ from passes))
  obtain ⟨built, before⟩ := BootedVm.reached_follows driver_reached
  have keepsUp := (BootedVm.passes_effect built before passes).2.mp follows
  have acknowledges : (Reason.mmio access).Acknowledges := ⟨inside, .inl (by decide)⟩
  have refused := ((keepsUp (.mmio access) rfl).1 acknowledges).2 (arriving_raises (.mmio access))
  cases refused
end TinyMachine.InterruptLine
