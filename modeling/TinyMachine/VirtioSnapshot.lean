import TinyMachine.VirtioTermination
import TinyMachine.Lib.Bisimulation

/-! Restoring a device from a snapshot. Everything but the replies the device
holds back is captured, and those are what the guest can tell a restored
device by. -/
namespace TinyMachine.VirtioNet
open Lib

/-- What is visible of a machine besides the registers it is asked for. -/
structure View where
  mem : Memory
  tapWritten : List (List UInt8)
  isr : UInt8
  intrPending : Bool

def Machine.view (m : Machine) : View := ⟨m.mem, m.tapWritten, m.dev.isr, m.dev.intrPending⟩

def VirtioNetPci.restored (dev : VirtioNetPci) : VirtioNetPci := .fromState dev.captureState dev.tapFd

/-- The device and its restored copy behave alike, in front of any guest
memory and any TAP input. -/
def SurvivesSnapshot (mode : Overflow) (dev : VirtioNetPci) : Prop :=
  ∀ mem written incoming, Bisimilar (DeviceOp.run mode) Machine.view
    ⟨dev, mem, written, incoming⟩ ⟨dev.restored, mem, written, incoming⟩

theorem restored_eq_self {dev : VirtioNetPci} (synack : dev.synackPending = none)
    (arp : dev.arpReplyPending = none) : dev.restored = dev := by
  cases dev
  cases synack
  cases arp
  rfl

section Interrupts
variable {pfn : UInt64} {m t : Machine}

/-- The interrupt of the used ring is raised. -/
def Raised (m : Machine) : Prop := m.dev.isr &&& 1 = 1

theorem raised_or (isr : UInt8) : (isr ||| 1) &&& 1 = 1 := by
  apply UInt8.toNat_inj.mp
  simp [Nat.and_one_is_mod]

theorem deliver_raises {packet : List UInt8} {fromTap ok : Bool} (room : ¬ RingEmpty m.mem pfn)
    (returned : (deliver pfn packet fromTap).Returns m ok t) : Raised t := by
  have split := deliver_returns.mp returned
  rw [if_neg room] at split
  obtain ⟨_, left, _, rfl⟩ := split
  exact raised_or _

theorem deliver_keeps_raised (packet : List UInt8) (fromTap : Bool) :
    (deliver pfn packet fromTap).Keeps Raised := by
  intro m ok t raised returned
  by_cases empty : RingEmpty m.mem pfn
  · have split := deliver_returns.mp returned
    rw [if_pos empty] at split
    exact split.2 ▸ raised
  · exact deliver_raises empty returned

theorem deliverPending_raises {reply : Option (List UInt8)} {u : Unit} (room : ¬ RingEmpty m.mem pfn)
    (pending : reply ≠ none) (returned : (deliverPending pfn reply).Returns m u t) : Raised t := by
  cases reply with
  | none => exact absurd rfl pending
  | some packet =>
    obtain ⟨ok, r, delivered, ended⟩ := Traced.bind_returns.mp returned
    rw [← (Traced.pure_returns.mp ended).2]
    exact deliver_raises room delivered

/-- A poll that finds a chain for a pending reply raises the interrupt. -/
theorem poll_raises {u : Unit} (set : m.dev.rxPfn ≠ 0) (room : ¬ RingEmpty m.mem m.dev.rxPfn)
    (pending : ¬ (m.dev.synackPending = none ∧ m.dev.arpReplyPending = none))
    (returned : tryRx.Returns m u t) : Raised t := by
  have split := tryRx_returns.mp returned
  simp only [set, if_false] at split
  obtain ⟨r, r', first, second, last⟩ := split
  have raised : Raised r' := by
    by_cases synack : m.dev.synackPending = none
    · rw [synack] at first
      obtain ⟨-, rfl⟩ := Traced.pure_returns.mp first
      have later : ¬ RingEmpty m.tookSynack.tookArp.mem m.dev.rxPfn := room
      exact deliverPending_raises later (fun arp => pending ⟨synack, arp⟩) second
    · have later : ¬ RingEmpty m.tookSynack.mem m.dev.rxPfn := room
      have earlier : Raised r := deliverPending_raises later synack first
      exact deliverPending_keeps deliver_keeps_raised _ r.tookArp _ _ earlier second
  by_cases tap : r'.dev.tapFd.isSome
  · rw [if_pos tap] at last
    exact rxFrames_keeps deliver_keeps_raised (fun _ _ same => same) _ _ _ _ raised last
  · rw [if_neg tap] at last
    exact last ▸ raised

/-- A poll that has nothing to deliver changes nothing. -/
theorem poll_idle (synack : m.dev.synackPending = none) (arp : m.dev.arpReplyPending = none)
    (input : m.tapIncoming = []) : tryRx.Returns m () m := by
  refine tryRx_returns.mpr ?_
  by_cases unset : m.dev.rxPfn = 0
  · rw [if_pos unset]
  · rw [if_neg unset]
    obtain ⟨⟨⟩⟩ := m
    cases synack
    cases arp
    cases input
    refine ⟨_, _, Traced.pure_returns.mpr ⟨rfl, rfl⟩, Traced.pure_returns.mpr ⟨rfl, rfl⟩, ?_⟩
    split
    · exact Traced.pure_returns.mpr ⟨rfl, rfl⟩
    · rfl

end Interrupts

/-- The guest clears the interrupt, puts the reception queue on page one, and
makes one chain available there. -/
def Machine.offeredChain (m : Machine) : Machine :=
  { m with
    mem := Memory.zeroed.store 0x2002 [1]
    dev := { m.dev with
      isr := 0
      intrPending := false
      selectedQueue := 0
      queuePfns := m.dev.queuePfns.set 0 0x1000 Nat.zero_lt_two } }

section Telling
variable {mode : Overflow}

theorem offeredChain_bisimilar {m m' : Machine} (same : Bisimilar (DeviceOp.run mode) Machine.view m m') :
    Bisimilar (DeviceOp.run mode) Machine.view m.offeredChain m'.offeredChain := by
  have clears : ∀ r : Machine, (DeviceOp.run mode (.mmioWrite 0x13 0)).Returns r 0
      { r with dev := { r.dev with isr := 0, intrPending := false } } := fun _ => ⟨0, rfl, rfl⟩
  have selects : ∀ r : Machine, (DeviceOp.run mode (.mmioWrite 0x0E 0)).Returns r 0
      { r with dev := { r.dev with selectedQueue := 0 } } := fun _ => ⟨0, rfl, rfl⟩
  have programs : ∀ r : Machine,
      (DeviceOp.run mode (.mmioWrite 0x08 1)).Returns { r with dev := { r.dev with selectedQueue := 0 } } 0
        { r with dev := { r.dev with selectedQueue := 0, queuePfns := r.dev.queuePfns.set 0 0x1000 Nat.zero_lt_two } } :=
    fun _ => ⟨0, rfl, rfl⟩
  have offers : ∀ r : Machine, (DeviceOp.run mode (.guestWrites (Memory.zeroed.store 0x2002 [1]))).Returns r 0
      { r with mem := Memory.zeroed.store 0x2002 [1] } := fun _ => ⟨0, rfl, rfl⟩
  have cleared := same.after (clears m) (clears m')
  have selected := cleared.after (selects _) (selects _)
  have programmed := selected.after (programs { m with dev := { m.dev with isr := 0, intrPending := false } })
    (programs { m' with dev := { m'.dev with isr := 0, intrPending := false } })
  exact programmed.after (offers _) (offers _)

/-- Where a poll finds a chain, a machine that holds replies back is told from
its copy that does not. -/
theorem pending_told_apart {dev : VirtioNetPci} {mem : Memory} {written : List (List UInt8)}
    (pending : ¬ (dev.synackPending = none ∧ dev.arpReplyPending = none)) :
    ¬ Bisimilar (DeviceOp.run mode) Machine.view ⟨dev, mem, written, []⟩ ⟨dev.restored, mem, written, []⟩ := by
  intro same
  let held : Machine := Machine.offeredChain ⟨dev, mem, written, []⟩
  let lost : Machine := Machine.offeredChain ⟨dev.restored, mem, written, []⟩
  have idle : tryRx.Returns lost () lost := poll_idle rfl rfl rfl
  have polled : (DeviceOp.run mode .tryRx).Returns lost 0 lost :=
    Traced.bind_returns.mpr ⟨(), lost, idle, Traced.pure_returns.mpr ⟨rfl, rfl⟩⟩
  obtain ⟨t, returned, alike⟩ := (offeredChain_bisimilar same).before polled
  obtain ⟨_, r, poll, ended⟩ := Traced.bind_returns.mp returned
  obtain ⟨-, rfl⟩ := Traced.pure_returns.mp ended
  have set : held.dev.rxPfn = 0x1000 := by simp [held, Machine.offeredChain, VirtioNetPci.rxPfn]
  have room : ¬ RingEmpty held.mem held.dev.rxPfn := by
    have offered : ¬ RingEmpty (Memory.zeroed.store 0x2002 [1]) 0x1000 := by decide +kernel
    exact set ▸ offered
  have raised : Raised r := poll_raises (set ▸ by decide) room pending poll
  have shown : r.dev.isr = 0 := congrArg View.isr alike.alike
  rw [Raised, shown] at raised
  exact absurd raised (by decide)

/-- A restored device is told from the original by nothing exactly when the
original holds no reply back. -/
theorem survives_snapshot_iff (mode : Overflow) (dev : VirtioNetPci) :
    SurvivesSnapshot mode dev ↔ dev.synackPending = none ∧ dev.arpReplyPending = none := by
  constructor
  · intro survives
    by_contra pending
    exact pending_told_apart pending (survives Memory.zeroed [] [])
  · rintro ⟨synack, arp⟩ mem written incoming
    rw [restored_eq_self synack arp]
    exact .refl _ _ _

end Telling

/-- A chain of one buffer, which holds a header and an ARP request of 10.0.2.2
for the gateway. -/
def arpRequest : List UInt8 :=
  List.replicate virtioNetHdrSize 0 ++ List.replicate 6 0xFF ++ mac ++
    [0x08, 0x06, 0, 1, 8, 0, 6, 4, 0, 1] ++ mac ++ [10, 0, 2, 2] ++ [0, 0, 0, 0, 0, 0] ++ gatewayIp

def requestOnPage : Memory :=
  ((((Memory.zeroed.store 0x10000 (Memory.bytesLE 8 0x20000)).store 0x10008 (Memory.bytesLE 4 52)).store
    0x11002 [1]).store 0x20000 arpRequest)

/-- The device has taken the request and holds its reply back. -/
def replyHeld : Machine :=
  (((DeviceOp.run .wrapping (.mmioWrite 0x10 1)).run 2 { queueOnPage 0x10 with mem := requestOnPage }).state)

theorem replyHeld_reachable : Reachable .wrapping replyHeld := by
  have offered : Reachable .wrapping { queueOnPage 0x10 with mem := requestOnPage } :=
    (queueOnPage_reachable .wrapping 0x10).next trivial
      (show (deviceRuns .wrapping).step _ (.guestWrites requestOnPage) _ from ⟨0, 0, rfl, rfl⟩)
  have ended : ((DeviceOp.run .wrapping (.mmioWrite 0x10 1)).run 2
      { queueOnPage 0x10 with mem := requestOnPage }).outcome = .done 0 := by decide +kernel
  exact offered.next trivial (show (deviceRuns .wrapping).step _ (.mmioWrite 0x10 1) _ from
    ⟨0, Traced.returns_of_run ended⟩)

/-- The copy of a device that holds an ARP reply back never sends it. -/
theorem held_reply_is_lost :
    ¬ ∀ (mode : Overflow) (m : Machine), Reachable mode m → SurvivesSnapshot mode m.dev := by
  intro law
  have held : replyHeld.dev.arpReplyPending ≠ none := by decide +kernel
  exact pending_told_apart (fun pending => held pending.2)
    (law .wrapping replyHeld replyHeld_reachable Memory.zeroed [] [])
end TinyMachine.VirtioNet
