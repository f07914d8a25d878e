import TinyMachine.VirtioSnapshot

/-! Resetting the device. The guest writes zero to the status register and
expects a device as the VM built it; the replies held back survive the reset. -/
namespace TinyMachine.VirtioNet
open Lib

/-- A new device at the same MMIO base, with the same TAP. -/
def VirtioNetPci.renewed (dev : VirtioNetPci) : VirtioNetPci :=
  { VirtioNetPci.new dev.bar0Shadow with tapFd := dev.tapFd }

/-- After a reset the device behaves like a new one, in front of any guest
memory and any TAP input. -/
def StartsAfresh (mode : Overflow) (dev : VirtioNetPci) : Prop :=
  ∀ (val : UInt32) mem written incoming, val.toUInt8 = 0 →
    ∃ t, (mmioWrite mode 0x12 val).Returns ⟨dev, mem, written, incoming⟩ () t ∧
      Bisimilar (DeviceOp.run mode) Machine.view t ⟨dev.renewed, mem, written, incoming⟩

/-- What the VM builds into a device and no operation changes. -/
structure AsBuilt (dev : VirtioNetPci) : Prop where
  queueSizes : dev.queueSizes = #v[queueSize, queueSize]
  deviceFeatures : dev.deviceFeatures = 1 <<< virtioNetFMac
  irqLine : dev.irqLine = 11

theorem written_asBuilt {dev : VirtioNetPci} (offset val : UInt32) (built : AsBuilt dev) :
    AsBuilt (dev.written offset val) := by
  unfold VirtioNetPci.written
  split
  case h_2 => split <;> exact ⟨built.1, built.2, built.3⟩
  case h_4 =>
    simp only
    split <;> exact ⟨built.1, built.2, built.3⟩
  all_goals exact ⟨built.1, built.2, built.3⟩

theorem asBuilt_lasts (mode : Overflow) : Lasting mode AsBuilt where
  fresh _ := ⟨rfl, rfl, rfl⟩
  read dev offset built := by
    obtain ⟨isr, intr, same⟩ := mmioRead_registers dev offset
    rw [same]
    exact ⟨built.1, built.2, built.3⟩
  written _ offset val built := written_asBuilt offset val built
  packet _ _ _ built after := by
    obtain ⟨synack, arp, rfl⟩ := afterPacket_registers after
    exact ⟨built.1, built.2, built.3⟩
  raised _ _ built := ⟨built.1, built.2, built.3⟩
  tookSynack _ built := ⟨built.1, built.2, built.3⟩
  tookArp _ built := ⟨built.1, built.2, built.3⟩
  attached _ _ built := ⟨built.1, built.2, built.3⟩

section Resetting
variable {mode : Overflow} {dev : VirtioNetPci} {val : UInt32}

/-- The new device with the replies that the old one still holds back. -/
def VirtioNetPci.leftByReset (dev : VirtioNetPci) : VirtioNetPci :=
  { dev.renewed with synackPending := dev.synackPending, arpReplyPending := dev.arpReplyPending }

theorem leftByReset_restored : dev.leftByReset.restored = dev.renewed := rfl

/-- A reset device differs from a new one in nothing but the pending replies. -/
theorem written_zero (built : AsBuilt dev) (zero : val.toUInt8 = 0) : dev.written 0x12 val = dev.leftByReset := by
  have cleared : dev.written 0x12 val = { dev with status := val.toUInt8 }.reset := if_pos zero
  rw [cleared]
  cases dev
  cases built.1
  cases built.2
  cases built.3
  rw [zero]
  rfl

theorem reset_returns (mem : Memory) (written incoming : List (List UInt8)) :
    (mmioWrite mode 0x12 val).Returns ⟨dev, mem, written, incoming⟩ ()
      ⟨dev.written 0x12 val, mem, written, incoming⟩ := by
  refine mmioWrite_returns.mpr ?_
  rw [if_neg]
  rintro ⟨kick, -⟩
  exact absurd kick (by decide)

/-- The replies a device holds back tell it from a new one after the reset. -/
theorem reset_told_apart (built : AsBuilt dev)
    (pending : ¬ (dev.synackPending = none ∧ dev.arpReplyPending = none)) : ¬ StartsAfresh mode dev := by
  intro afresh
  have zero : (0 : UInt32).toUInt8 = 0 := rfl
  obtain ⟨t, returned, alike⟩ := afresh 0 Memory.zeroed [] [] zero
  obtain ⟨-, rfl⟩ := returned.unique (reset_returns Memory.zeroed [] [])
  rw [written_zero built zero, ← leftByReset_restored] at alike
  have held : ¬ (dev.leftByReset.synackPending = none ∧ dev.leftByReset.arpReplyPending = none) := pending
  exact pending_told_apart held alike

end Resetting

end TinyMachine.VirtioNet
