import TinyMachine.SynAck
import TinyMachine.VirtioConfinement

/-! Panics of the device: which frames and which ring indices of a guest stop
a kick, and that nothing stops a poll. -/
namespace TinyMachine.VirtioNet
open Lib

/-- The frame has a TCP header where the log looks for one, and no IP options
in front of a SYN that the device answers itself. -/
structure FrameHandled (dev : VirtioNetPci) (frame : List UInt8) : Prop where
  logged : 54 ≤ frame.length → HeaderInside frame
  crafted : dev.tapFd = none → dev.synackPending = none → SynRequest frame → ihl frame = 5

def PacketHandled (dev : VirtioNetPci) (packet : List UInt8) : Prop :=
  virtioNetHdrSize < packet.length → FrameHandled dev (packet.drop virtioNetHdrSize)

/-- The position of a chain has not overflowed, if that is checked, and what
it yields is handled. -/
structure ChainHandled (mode : Overflow) (pfn : UInt64) (first : UInt16) (dev : VirtioNetPci) (mem : Memory)
    (position : UInt16) : Prop where
  fits : mode = .checked → first ≤ position
  handled : ∀ packet, Yields mem pfn (availHead mem pfn position) packet → PacketHandled dev packet

/-- Every chain that a kick comes to is handled. -/
def TxHandled (mode : Overflow) (m : Machine) : Prop :=
  let pfn := m.dev.txPfn
  pfn ≠ 0 → ForKick .wrapping (ChainHandled mode pfn (usedIdx m.mem pfn)) m

/-- The places of the rings and of every descriptor are numbers of 64 bits. -/
structure AddressesFit (pfn : UInt64) : Prop where
  rings : pfn.toNat + 256 * 16 + (6 + 256 * 2) + 4095 < 2 ^ 64
  table : ∀ d : UInt16, pfn.toNat + d.toNat * 16 < 2 ^ 64

theorem addresses_fit {pfn : UInt64} (programmed : Programmed pfn) : AddressesFit pfn := by
  obtain ⟨page, value, bound⟩ := programmed_toNat programmed
  refine ⟨by omega, fun d => ?_⟩
  have small := d.toNat_lt
  omega

section Frames
variable {dev : VirtioNetPci} {frame packet : List UInt8} {m : Machine}

theorem intercept_isSome_iff : (dev.intercept frame).isSome ↔
    (dev.tapFd = none → dev.synackPending = none → SynRequest frame → ihl frame = 5) := by
  have crafted : (craftSynack frame).isSome ↔ (SynRequest frame → ihl frame = 5) := by
    rw [Option.isSome_iff_ne_none, ne_eq, craftSynack_none_iff, not_and]
    refine forall_congr' fun request => ?_
    have header := request.header
    omega
  rw [intercept_eq]
  cases tap : dev.tapFd with
  | some fd => simp
  | none =>
    cases pending : dev.synackPending with
    | some reply => simp
    | none => simp [crafted]

theorem afterFrame_isSome_iff : (afterFrame dev frame).isSome ↔ FrameHandled dev frame := by
  have shown : 54 ≤ frame.length ∧ loggedTcpHeader frame = none ↔ ¬ (54 ≤ frame.length → HeaderInside frame) := by
    rw [Classical.not_imp]
    refine and_congr_right fun long => ?_
    rw [← loggedTcpHeader_isSome_iff long, Option.not_isSome_iff_eq_none]
  rw [afterFrame]
  split
  · rename_i unreadable
    have never : ¬ (none : Option VirtioNetPci).isSome := Bool.false_ne_true
    exact iff_of_false never fun handled => shown.mp unreadable handled.logged
  · rename_i readable
    rw [intercept_isSome_iff]
    exact ⟨fun crafted => ⟨not_not.mp (mt shown.mpr readable), crafted⟩, FrameHandled.crafted⟩

theorem afterPacket_isSome_iff : (afterPacket dev packet).isSome ↔ PacketHandled dev packet := by
  rw [afterPacket, PacketHandled]
  split
  · rename_i framed
    rw [afterFrame_isSome_iff]
    exact ⟨fun handled _ => handled, fun handled => handled framed⟩
  · rename_i short
    exact iff_of_true rfl fun framed => absurd framed short

theorem sendPacket_panics : (sendPacket packet).Panics m ↔ ¬ PacketHandled m.dev packet := by
  rw [sendPacket_terminates.panics_iff, ← afterPacket_isSome_iff]
  simp only [sendPacket_returns, Option.isSome_iff_exists]
  constructor
  · rintro never ⟨dev, after⟩
    exact never () _ ⟨dev, after, rfl⟩
  · rintro stuck _ _ ⟨dev, after, -⟩
    exact stuck ⟨dev, after⟩

end Frames

/-! ## A kick -/

section Kicks
variable {mode : Overflow} {pfn : UInt64} {first head : UInt16} {m : Machine}

theorem gather_runs : ¬ (Traced.iterate (gatherRound pfn) (head, [])).Panics m := by
  intro panics
  obtain ⟨here, -, inRound⟩ := Traced.iterate_panics_of _ panics
  exact inRound.not_returns (gatherRound_returns.mpr ⟨rfl, rfl⟩)

theorem txChains_panics {i left : Nat} : (txChains mode pfn first i (left + 1)).Panics m ↔
    mode.add16 first (.ofNat i) = none ∨ ∃ position, mode.add16 first (.ofNat i) = some position ∧
      ∃ packet, Yields m.mem pfn (availHead m.mem pfn position) packet ∧ (¬ PacketHandled m.dev packet ∨
        ∃ dev, afterPacket m.dev packet = some dev ∧
          (txChains mode pfn first (i + 1) left).Panics (m.sent pfn position packet dev)) := by
  simp [-UInt16.toNat_mod, txChains, gather_returns, gather_runs, sendPacket_returns, sendPacket_panics, availSlot_eq,
    usedSlot_eq, availHead_eq, Machine.sent]

/-- A position overflows exactly if it comes out below the first one. -/
theorem position_some_iff {i : Nat} (small : i < 2 ^ 16) {position : UInt16} :
    mode.add16 first (.ofNat i) = some position ↔
      first + .ofNat i = position ∧ (mode = .checked → first ≤ position) := by
  have bound := first.toNat_lt
  have word : (UInt16.ofNat i).toNat = i := UInt16.toNat_ofNat_of_lt' small
  have sum : (first + UInt16.ofNat i).toNat = (first.toNat + i) % 2 ^ 16 := by rw [UInt16.toNat_add, word]
  have fits : first.toNat + i < 2 ^ 16 ↔ first ≤ first + .ofNat i := by
    rw [UInt16.le_iff_toNat_le, sum]
    omega
  rw [Overflow.add16, Overflow.fit_eq_some, word, fits, and_comm]
  refine and_congr_right fun same => ?_
  rw [same]
  cases mode <;> simp

/-- The loop over the chains does not panic exactly if every chain it comes to
is handled. -/
theorem txChains_runs_iff {i left : Nat} (small : i + left ≤ 2 ^ 16) :
    ¬ (txChains mode pfn first i left).Panics m ↔
      ForChains .wrapping pfn first (ChainHandled mode pfn first) i left m.dev m.mem := by
  induction left generalizing i m with
  | zero => simp [txChains, ForChains]
  | succ left ih =>
    have here : i < 2 ^ 16 := by omega
    have later (dev : VirtioNetPci) (position : UInt16) (packet : List UInt8) :=
      @ih (m.sent pfn position packet dev) (i + 1) (by omega)
    have wraps : Overflow.wrapping.add16 first (.ofNat i) = some (first + .ofNat i) :=
      (position_some_iff here).mpr ⟨rfl, fun checked => absurd checked (by decide)⟩
    rw [ForChains, txChains_panics]
    constructor
    · intro runs position found
      obtain rfl := Option.some.inj (wraps.symm.trans found)
      obtain ⟨fits, each⟩ := not_or.mp runs
      obtain ⟨position, added⟩ := Option.ne_none_iff_exists'.mp fits
      obtain ⟨rfl, order⟩ := (position_some_iff here).mp added
      refine ⟨⟨order, fun packet yields => ?_⟩, fun packet yields dev after => ?_⟩
      · by_contra stuck
        exact each ⟨_, added, packet, yields, .inl stuck⟩
      · refine (later dev _ packet).mp fun panics => ?_
        exact each ⟨_, added, packet, yields, .inr ⟨dev, after, panics⟩⟩
    · intro chains panics
      obtain ⟨handled, rest⟩ := chains _ wraps
      rcases panics with overflows | ⟨position, added, packet, yields, stuck⟩
      · have added := (position_some_iff here).mpr ⟨rfl, handled.fits⟩
        rw [overflows] at added
        cases added
      · obtain ⟨rfl, -⟩ := (position_some_iff here).mp added
        rcases stuck with unhandled | ⟨dev, after, panics⟩
        · exact unhandled (handled.handled packet yields)
        · exact (later dev _ packet).mpr (rest packet yields dev after) panics

theorem kick_panics : (handleQueueKick mode 1).Panics m ↔
    let pfn := m.dev.txPfn
    pfn ≠ 0 ∧ ¬ RingEmpty m.mem pfn ∧
      (txChains mode pfn (usedIdx m.mem pfn) 0 (outstanding m.mem pfn)).Panics m := by
  by_cases unset : m.dev.txPfn = 0
  · simp [handleQueueKick, unset]
  · by_cases empty : availIdx m.mem m.dev.txPfn = usedIdx m.mem m.dev.txPfn
    · simp [handleQueueKick, unset, availIdx_eq, usedIdx_eq, RingEmpty, empty]
    · simp [handleQueueKick, unset, availIdx_eq, usedIdx_eq, RingEmpty, empty, sub_eq_zero_iff, outstanding]

theorem kick_runs_iff : ¬ (handleQueueKick mode 1).Panics m ↔ TxHandled mode m := by
  have small : 0 + outstanding m.mem m.dev.txPfn ≤ 2 ^ 16 := by
    have bound := (availIdx m.mem m.dev.txPfn - usedIdx m.mem m.dev.txPfn).toNat_lt
    unfold outstanding
    omega
  have chains := @txChains_runs_iff mode m.dev.txPfn (usedIdx m.mem m.dev.txPfn) m 0 _ small
  rw [kick_panics, TxHandled, ForKick, ← chains]
  constructor
  · intro runs set
    by_cases empty : RingEmpty m.mem m.dev.txPfn
    · have none : outstanding m.mem m.dev.txPfn = 0 := by
        rw [outstanding, (sub_eq_zero_iff _ _).mpr empty]
        rfl
      rw [none]
      exact Traced.pure_panics
    · exact fun panics => runs ⟨set, empty, panics⟩
  · rintro runs ⟨set, -, panics⟩
    exact runs set panics

end Kicks

/-! ## A poll -/

section Polls
variable {pfn : UInt64} {m : Machine} {packet : List UInt8} {fromTap : Bool}

theorem scatter_runs {head : UInt16} :
    ¬ (Traced.iterate (scatterRound pfn packet) (head, packet.length)).Panics m := by
  intro panics
  obtain ⟨here, -, inRound⟩ := Traced.iterate_panics_of _ panics
  obtain ⟨⟨d, remaining⟩, r⟩ := here
  simp [scatterRound] at inRound

theorem deliver_runs : ¬ (deliver pfn packet fromTap).Panics m := by
  by_cases empty : availIdx m.mem pfn = usedIdx m.mem pfn
  · simp [deliver, availIdx_eq, usedIdx_eq, empty]
  · cases fromTap <;> simp [deliver, availIdx_eq, usedIdx_eq, sub_eq_zero_iff, logFirstDesc, scatter_runs]

theorem tryRx_runs : ¬ tryRx.Panics m := by
  have ofMemory : OfMemory m.dev.rxPfn (fun x m => ¬ x.Panics m) fun _ _ _ => True :=
    ⟨fun m packet fromTap => iff_true_intro deliver_runs, fun _ _ _ _ _ _ _ => trivial⟩
  have always (queue : List (List UInt8 × Bool)) (mem : Memory) :
      ForDeliveries m.dev.rxPfn (fun _ _ _ => True) queue mem := by
    induction queue generalizing mem with
    | nil => trivial
    | cons next rest ih =>
      refine ⟨trivial, ?_⟩
      split
      · exact ih mem
      · exact fun left _ => ih _
  exact (tryRx_iff Traced.runs_pervasive ofMemory).mpr fun _ => always _ _

end Polls

/-- A chain of one buffer, which holds a header and a SYN with these options. -/
def synOnPage (options : List UInt8) : Memory :=
  (((Memory.zeroed.store 0x10000 (Memory.bytesLE 8 0x20000)).store 0x10008
    (Memory.bytesLE 4 (64 + options.length))).store 0x11002 [1]).store 0x20000
    (List.replicate virtioNetHdrSize 0 ++ synSample options)

/-- The guest has queued the SYN. -/
def synQueued (options : List UInt8) : Machine := { queueOnPage 0x10 with mem := synOnPage options }

theorem synQueued_reachable (mode : Overflow) (options : List UInt8) : Reachable mode (synQueued options) :=
  (queueOnPage_reachable mode 0x10).next trivial
    (show (deviceRuns mode).step _ (.guestWrites (synOnPage options)) _ from ⟨0, 0, rfl, rfl⟩)

end TinyMachine.VirtioNet
