import TinyMachine.Lib.Runs
import TinyMachine.VirtioNetProofs

/-! The transmission queue against a driver that keeps to the rules of its
rings: chains of readable descriptors, made available in the order they are to
be sent and left alone until they are used. -/
namespace TinyMachine.VirtioNet
open Lib

/-- A chain as the driver means it: its head, and the header and the frame that
its buffers hold one after the other. -/
structure TxChain where
  head : UInt16
  data : List UInt8
  deriving DecidableEq

def TxChain.frame (chain : TxChain) : List UInt8 := chain.data.drop virtioNetHdrSize

/-- The descriptors of a chain that stays inside the queue, is readable
throughout and comes to an end. -/
inductive ReadableChain (mem : Memory) (pfn : UInt64) : UInt16 → List VringDesc → Prop where
  | last {d : UInt16} (inside : d < queueSize) (readable : (descAt mem pfn d).Readable)
      (ended : ¬ (descAt mem pfn d).Chained) : ReadableChain mem pfn d [descAt mem pfn d]
  | link {d : UInt16} {descs : List VringDesc} (inside : d < queueSize)
      (readable : (descAt mem pfn d).Readable) (chained : (descAt mem pfn d).Chained)
      (rest : ReadableChain mem pfn (descAt mem pfn d).next descs) :
      ReadableChain mem pfn d (descAt mem pfn d :: descs)

/-- The bytes of these buffers, one after the other. -/
def contents (mem : Memory) (descs : List VringDesc) : List UInt8 :=
  descs.flatMap fun desc => mem.fetch desc.addr.toNat desc.len.toNat

/-- The used ring the device writes: flags, index and elements. -/
def InUsedRing (pfn : UInt64) (a : Nat) : Prop :=
  (usedOffset pfn).toNat ≤ a ∧ a < (usedOffset pfn).toNat + (4 + 256 * 8)

/-- No buffer of the chain meets the used ring. -/
def BuffersApart (mem : Memory) (pfn : UInt64) (chain : TxChain) : Prop :=
  ∀ descs, ReadableChain mem pfn chain.head descs → ∀ desc ∈ descs, ∀ i < desc.len.toNat,
    ¬ InUsedRing pfn (desc.addr.toNat + i)

/-- The position of the available ring offers the chain. -/
structure Offers (mem : Memory) (pfn : UInt64) (position : UInt16) (chain : TxChain) : Prop where
  head : availHead mem pfn position = chain.head
  buffers : ∃ descs, ReadableChain mem pfn chain.head descs ∧ chain.data = contents mem descs
  small : chain.data.length ≤ maxPacketSize

/-- From this position on the ring offers these chains. -/
def OffersAll (mem : Memory) (pfn : UInt64) : UInt16 → List TxChain → Prop
  | _, [] => True
  | position, chain :: chains => Offers mem pfn position chain ∧ OffersAll mem pfn (position + 1) chains

/-- From this position on the used ring gives these chains back. -/
def Returned (mem : Memory) (pfn : UInt64) : UInt16 → List TxChain → Prop
  | _, [] => True
  | position, chain :: chains =>
    mem.fetch (usedSlot pfn position) 8 = usedElem chain.head chain.data.length ∧
      Returned mem pfn (position + 1) chains

section Chains
variable {mem other : Memory} {pfn : UInt64} {d : UInt16} {descs : List VringDesc} {chain : TxChain}
  {position : UInt16}

/-- Gathering such a chain takes every byte of its buffers. -/
private theorem ReadableChain.gathers (readable : ReadableChain mem pfn d descs) (packet : List UInt8)
    (fits : packet.length + (contents mem descs).length ≤ maxPacketSize) :
    ∃ last, Relation.ReflTransGen (Leads mem pfn) (d, packet) last ∧
      ¬ (descAt mem pfn last.1).Chained ∧
      packet ++ contents mem descs = gather mem (descAt mem pfn last.1) last.2 := by
  induction readable generalizing packet with
  | @last d inside readable ended =>
    have whole : (descAt mem pfn d).taken packet = (descAt mem pfn d).len.toNat := by
      simp only [contents, List.flatMap_cons, List.flatMap_nil, List.append_nil,
        Memory.length_fetch] at fits
      exact Nat.min_eq_left (by omega)
    refine ⟨(d, packet), .refl, ended, ?_⟩
    simp only [gather, if_pos readable, whole, contents, List.flatMap_cons, List.flatMap_nil,
      List.append_nil]
  | @link d descs inside readable chained rest ih =>
    have split : contents mem (descAt mem pfn d :: descs) =
        mem.fetch (descAt mem pfn d).addr.toNat (descAt mem pfn d).len.toNat ++ contents mem descs :=
      List.flatMap_cons
    rw [split, List.length_append, Memory.length_fetch] at fits
    have whole : (descAt mem pfn d).taken packet = (descAt mem pfn d).len.toNat :=
      Nat.min_eq_left (by omega)
    have next : gather mem (descAt mem pfn d) packet = packet ++
        mem.fetch (descAt mem pfn d).addr.toNat (descAt mem pfn d).len.toNat := by
      simp only [gather, if_pos readable, whole]
    obtain ⟨last, visits, ended, gathered⟩ := ih (gather mem (descAt mem pfn d) packet)
      (by rw [next, List.length_append, Memory.length_fetch]; omega)
    refine ⟨last, .head ⟨chained, rfl⟩ visits, ended, ?_⟩
    rw [← gathered, next, split, List.append_assoc]

/-- What the driver offers is what the chain yields. -/
theorem Offers.yields (offers : Offers mem pfn position chain) :
    Yields mem pfn (availHead mem pfn position) chain.data := by
  obtain ⟨descs, readable, holds⟩ := offers.buffers
  have small := offers.small
  rw [holds] at small
  obtain ⟨last, visits, ended, gathered⟩ := readable.gathers [] (by simpa using small)
  exact ⟨last, offers.head ▸ visits, ended, by rw [holds, ← gathered, List.nil_append]⟩

end Chains

section Frame
variable {mem other : Memory} {pfn : UInt64} {d : UInt16} {descs : List VringDesc} {chain : TxChain}
  {position : UInt16} {chains : List TxChain}

/-- Only the used ring differs. -/
def SameOutside (pfn : UInt64) (mem other : Memory) : Prop := ∀ a, ¬ InUsedRing pfn a → other a = mem a

private theorem availHead_frame (programmed : Programmed pfn) (same : SameOutside pfn mem other) :
    availHead other pfn position = availHead mem pfn position := by
  have slot := slot_lt position
  have avail := availOffset_toNat programmed
  have used := usedOffset_toNat programmed
  refine congrArg UInt16.ofNat (Memory.readLE_congr fun i bound => same _ fun inside => ?_)
  have low := inside.1
  rw [availSlot] at low
  omega

private theorem availIdx_frame (programmed : Programmed pfn) (same : SameOutside pfn mem other) :
    availIdx other pfn = availIdx mem pfn := by
  have avail := availOffset_toNat programmed
  have used := usedOffset_toNat programmed
  refine congrArg UInt16.ofNat (Memory.readLE_congr fun i bound => same _ fun inside => ?_)
  have low := inside.1
  omega

private theorem descAt_frame (programmed : Programmed pfn) (same : SameOutside pfn mem other)
    (inside : d < queueSize) : descAt other pfn d = descAt mem pfn d := by
  have table := descOffset_toNat programmed d
  have used := usedOffset_toNat programmed
  have small : d.toNat < 256 := UInt16.lt_iff_toNat_lt.mp inside
  have part : ∀ offset width, offset + width ≤ 16 → other.readLE ((descOffset pfn d).toNat + offset) width =
      mem.readLE ((descOffset pfn d).toNat + offset) width := by
    intro offset width bound
    refine Memory.readLE_congr fun i inWidth => same _ fun inRing => ?_
    have low := inRing.1
    omega
  have first := part 0 8 (by omega)
  rw [Nat.add_zero] at first
  simp only [descAt, VringDesc.at, first, part 8 4 (by omega), part 12 2 (by omega),
    part 14 2 (by omega)]

private theorem ReadableChain.frame (programmed : Programmed pfn) (same : SameOutside pfn mem other)
    (readable : ReadableChain mem pfn d descs) : ReadableChain other pfn d descs := by
  induction readable with
  | last inside readable ended =>
    have desc := descAt_frame programmed same inside
    exact desc ▸ .last inside (desc.symm ▸ readable) (desc.symm ▸ ended)
  | link inside readable chained rest ih =>
    have desc := descAt_frame programmed same inside
    exact desc ▸ .link inside (desc.symm ▸ readable) (desc.symm ▸ chained) (desc.symm ▸ ih)

private theorem SameOutside.symm (same : SameOutside pfn mem other) : SameOutside pfn other mem :=
  fun a outside => (same a outside).symm

private theorem BuffersApart.frame (programmed : Programmed pfn) (same : SameOutside pfn mem other)
    (apart : BuffersApart mem pfn chain) : BuffersApart other pfn chain :=
  fun descs readable => apart descs (readable.frame programmed same.symm)

/-- Writing the used ring takes nothing from what is offered. -/
private theorem Offers.frame (programmed : Programmed pfn) (same : SameOutside pfn mem other)
    (apart : BuffersApart mem pfn chain) (offers : Offers mem pfn position chain) :
    Offers other pfn position chain := by
  obtain ⟨descs, readable, holds⟩ := offers.buffers
  refine ⟨(availHead_frame programmed same).trans offers.head,
    ⟨descs, readable.frame programmed same, holds.trans ?_⟩, offers.small⟩
  refine congrArg List.flatten (List.map_congr_left fun desc member => ?_)
  exact Memory.fetch_congr fun i bound => (same _ (apart descs readable desc member i bound)).symm

private theorem OffersAll.frame (programmed : Programmed pfn) (same : SameOutside pfn mem other)
    (apart : ∀ chain ∈ chains, BuffersApart mem pfn chain) (offers : OffersAll mem pfn position chains) :
    OffersAll other pfn position chains := by
  induction chains generalizing position with
  | nil => trivial
  | cons chain chains ih =>
    exact ⟨offers.1.frame programmed same (apart chain List.mem_cons_self),
      ih (fun later member => apart later (List.mem_cons_of_mem _ member)) offers.2⟩

/-- The bytes of the used element for a position. -/
def InSlot (pfn : UInt64) (position : UInt16) (a : Nat) : Prop :=
  usedSlot pfn position ≤ a ∧ a < usedSlot pfn position + 8

private theorem inSlot_above {a : Nat} (inside : InSlot pfn position a) :
    (usedOffset pfn).toNat + 4 ≤ a ∧ InUsedRing pfn a := by
  have slot := slot_lt position
  obtain ⟨low, high⟩ := inside
  rw [usedSlot] at low high
  exact ⟨by omega, by omega, by omega⟩

/-- Positions less than a ring's length apart have elements of their own. -/
private theorem inSlot_apart {a k : Nat} (inside : InSlot pfn position a) (positive : 0 < k)
    (bound : k < 256) : ¬ InSlot pfn (position + .ofNat k) a := by
  intro other
  obtain ⟨low, high⟩ := inside
  obtain ⟨otherLow, otherHigh⟩ := other
  have here : (position % queueSize).toNat = position.toNat % 256 := UInt16.toNat_mod ..
  have there : ((position + .ofNat k) % queueSize).toNat = (position.toNat + k) % 256 := by
    rw [UInt16.toNat_mod, UInt16.toNat_add, UInt16.toNat_ofNat', show queueSize.toNat = 256 from rfl]
    omega
  rw [usedSlot, here] at low high
  rw [usedSlot, there] at otherLow otherHigh
  omega

end Frame

/-- The TCP header that is looked at for the log lies inside the frame. -/
def HeaderInside (frame : List UInt8) : Prop :=
  ∀ byte, frame[14]? = some byte → 14 + (byte &&& 0x0F).toNat * 4 + 13 < frame.length

theorem loggedTcpHeader_isSome_iff {frame : List UInt8} (long : 54 ≤ frame.length) :
    (loggedTcpHeader frame).isSome ↔ HeaderInside frame := by
  have ihl : frame[14]? = some frame[14] := List.getElem?_eq_getElem (by omega)
  rw [HeaderInside, ihl]
  simp only [Option.some.injEq, forall_eq']
  by_cases inside : 14 + (frame[14] &&& 0x0F).toNat * 4 + 13 < frame.length
  · have held : ∀ k ≤ 3, ∃ byte, frame[14 + (frame[14] &&& 0x0F).toNat * 4 + k]? = some byte :=
      fun k small => ⟨_, List.getElem?_eq_getElem (by omega)⟩
    obtain ⟨first, firstHeld⟩ := held 0 (by omega)
    obtain ⟨second, secondHeld⟩ := held 1 (by omega)
    obtain ⟨third, thirdHeld⟩ := held 2 (by omega)
    obtain ⟨fourth, fourthHeld⟩ := held 3 (by omega)
    rw [Nat.add_zero] at firstHeld
    simp [-UInt8.toNat_and, loggedTcpHeader, ihl, firstHeld, secondHeld, thirdHeld, fourthHeld, inside]
  · simp [-UInt8.toNat_and, loggedTcpHeader, ihl, inside]

/-- A frame whose header may be looked at leaves a device with a TAP device as
it is. -/
private theorem afterPacket_attached {dev : VirtioNetPci} {chain : TxChain} (attached : dev.tapFd.isSome)
    (framed : virtioNetHdrSize < chain.data.length)
    (header : 54 ≤ chain.frame.length → HeaderInside chain.frame) :
    afterPacket dev chain.data = some dev := by
  have shown : ¬ (54 ≤ chain.frame.length ∧ loggedTcpHeader chain.frame = none) := by
    rintro ⟨long, gone⟩
    have read := (loggedTcpHeader_isSome_iff long).mpr (header long)
    rw [gone] at read
    cases read
  rw [afterPacket, if_pos framed, afterFrame]
  refine (if_neg shown).trans ?_
  rw [intercept_eq, if_pos attached]

/-- What a kick needs of the chains it finds and of the device. -/
structure Sendable (mode : Overflow) (m : Machine) (pending : List TxChain) : Prop where
  attached : m.dev.tapFd.isSome
  framed : ∀ chain ∈ pending, virtioNetHdrSize < chain.data.length
  header : ∀ chain ∈ pending, 54 ≤ chain.frame.length → HeaderInside chain.frame
  apart : ∀ chain ∈ pending, BuffersApart m.mem m.dev.txPfn chain
  fits : (usedIdx m.mem m.dev.txPfn).toNat + pending.length ≤ 2 ^ 16 ∨ mode = .wrapping

section Kicking
variable {mode : Overflow} {pfn : UInt64} {first : UInt16} {pending : List TxChain}

/-- The loop sends the chains that are offered and gives each back. -/
private theorem txChains_serves (programmed : Programmed pfn) {m : Machine} {i : Nat}
    (attached : m.dev.tapFd.isSome) (framed : ∀ chain ∈ pending, virtioNetHdrSize < chain.data.length)
    (header : ∀ chain ∈ pending, 54 ≤ chain.frame.length → HeaderInside chain.frame)
    (apart : ∀ chain ∈ pending, BuffersApart m.mem pfn chain)
    (fits : first.toNat + (i + pending.length) ≤ 2 ^ 16 ∨ mode = .wrapping)
    (room : i + pending.length ≤ 256) (offers : OffersAll m.mem pfn (first + .ofNat i) pending) :
    ∃ t, (txChains mode pfn first i pending.length).Returns m () t ∧ t.dev = m.dev ∧
      t.tapIncoming = m.tapIncoming ∧ t.tapWritten = m.tapWritten ++ pending.map TxChain.frame ∧
      Returned t.mem pfn (first + .ofNat i) pending ∧
      ∀ a, (∀ k < pending.length, ¬ InSlot pfn (first + .ofNat (i + k)) a) → t.mem a = m.mem a := by
  induction pending generalizing m i with
  | nil => exact ⟨m, by simp [txChains], rfl, rfl, by simp, trivial, fun _ _ => rfl⟩
  | cons chain pending ih =>
    rw [List.length_cons] at fits room
    have small : (UInt16.ofNat i).toNat = i := by
      rw [UInt16.toNat_ofNat']
      omega
    have position : mode.add16 first (.ofNat i) = some (first + .ofNat i) :=
      Overflow.fit_eq_some.mpr ⟨fits.imp_left fun bound => by omega, rfl⟩
    have after := afterPacket_attached attached (framed chain List.mem_cons_self)
      (header chain List.mem_cons_self)
    have shifted : ∀ k, first + .ofNat (i + k) = first + .ofNat i + .ofNat k := fun k => by
      rw [UInt16.ofNat_add, ← UInt16.add_assoc]
    have next : first + .ofNat (i + 1) = first + .ofNat i + 1 := shifted 1
    have stored : ∀ a, ¬ InSlot pfn (first + .ofNat i) a →
        (m.sent pfn (first + .ofNat i) chain.data m.dev).mem a = m.mem a := fun a outside =>
      Memory.store_outside (by rw [length_usedElem]; by_contra inside; exact outside (by
        rw [InSlot]; omega))
    have same : SameOutside pfn m.mem (m.sent pfn (first + .ofNat i) chain.data m.dev).mem :=
      fun a outside => stored a fun inside => outside (inSlot_above inside).2
    obtain ⟨t, returns, dev, incoming, written, returned, kept⟩ :=
      ih (m := m.sent pfn (first + .ofNat i) chain.data m.dev) (i := i + 1) attached
        (fun later member => framed later (List.mem_cons_of_mem _ member))
        (fun later member => header later (List.mem_cons_of_mem _ member))
        (fun later member => (apart later (List.mem_cons_of_mem _ member)).frame programmed same)
        (fits.imp_left fun bound => by omega) (by omega)
        (next ▸ offers.2.frame programmed same fun later member =>
          apart later (List.mem_cons_of_mem _ member))
    have wire : wireFrames m.dev chain.data = [chain.frame] :=
      if_pos ⟨attached, framed chain List.mem_cons_self⟩
    refine ⟨t, ?_, dev, incoming, ?_, ⟨?_, next ▸ returned⟩, fun a outside => ?_⟩
    · rw [List.length_cons, txChains_returns]
      exact ⟨_, position, chain.data, offers.1.yields, m.dev, after, returns⟩
    · rw [written, Machine.sent, wire, List.map_cons, List.append_assoc, List.singleton_append]
    · have alone : ∀ j < 8, t.mem (usedSlot pfn (first + .ofNat i) + j) =
          (m.sent pfn (first + .ofNat i) chain.data m.dev).mem (usedSlot pfn (first + .ofNat i) + j) := by
        intro j bound
        refine kept _ fun k later => ?_
        rw [Nat.add_assoc, Nat.add_comm 1, shifted (k + 1)]
        exact inSlot_apart ⟨by omega, by omega⟩ (by omega) (by omega)
      rw [Memory.fetch_congr alone, ← offers.1.head]
      exact length_usedElem _ _ ▸ Memory.fetch_store_self m.mem _ _
    · have here := stored a (by simpa using outside 0 (Nat.succ_pos _))
      rw [← here]
      refine kept a fun k later => ?_
      rw [Nat.add_assoc, Nat.add_comm 1]
      exact outside (k + 1) (Nat.succ_lt_succ later)

/-- What a kick has done when these chains were offered. -/
structure Served (m : Machine) (pending : List TxChain) (t : Machine) : Prop where
  /-- Every chain is sent once, in order, without its header. -/
  wire : t.tapWritten = m.tapWritten ++ pending.map TxChain.frame
  /-- The used index has caught up with the available one. -/
  index : usedIdx t.mem m.dev.txPfn = availIdx t.mem m.dev.txPfn
  /-- The used elements added carry the heads, in order. -/
  returned : Returned t.mem m.dev.txPfn (usedIdx m.mem m.dev.txPfn) pending
  frame : SameOutside m.dev.txPfn m.mem t.mem
  dev : t.dev = m.dev

/-- The transmission ring of the machine offers exactly these chains. -/
structure Queued (m : Machine) (pending : List TxChain) : Prop where
  programmed : Programmed m.dev.txPfn
  set : m.dev.txPfn ≠ 0
  count : availIdx m.mem m.dev.txPfn = usedIdx m.mem m.dev.txPfn + .ofNat pending.length
  room : pending.length ≤ 256
  offers : OffersAll m.mem m.dev.txPfn (usedIdx m.mem m.dev.txPfn) pending

theorem Queued.outstanding_eq {m : Machine} (queued : Queued m pending) :
    outstanding m.mem m.dev.txPfn = pending.length := by
  have room := queued.room
  rw [outstanding, queued.count, UInt16.add_comm, UInt16.add_sub_cancel, UInt16.toNat_ofNat']
  omega

private theorem Returned.congr {mem other : Memory} {position : UInt16}
    (same : ∀ a, (usedOffset pfn).toNat + 4 ≤ a → other a = mem a)
    (returned : Returned mem pfn position pending) : Returned other pfn position pending := by
  induction pending generalizing position with
  | nil => trivial
  | cons chain pending ih =>
    refine ⟨?_, ih returned.2⟩
    rw [← returned.1]
    exact Memory.fetch_congr fun i bound => same _ (by rw [usedSlot]; omega)

/-- A kick serves what is queued. -/
theorem kick_serves {m : Machine} (queued : Queued m pending) (sendable : Sendable mode m pending) :
    ∃ t, (handleQueueKick mode 1).Returns m () t ∧ Served m pending t := by
  have outstanding_eq := queued.outstanding_eq
  by_cases empty : RingEmpty m.mem m.dev.txPfn
  · have none : pending = [] := by
      rw [outstanding, (sub_eq_zero_iff _ _).mpr empty] at outstanding_eq
      exact List.length_eq_zero_iff.mp outstanding_eq.symm
    subst none
    refine ⟨m, kick_returns.mpr ?_, by simp, empty.symm, trivial, fun _ _ => rfl, rfl⟩
    exact (if_pos (Or.inr empty)).mpr rfl
  · obtain ⟨r, returns, dev, incoming, written, returned, kept⟩ := txChains_serves (i := 0)
      queued.programmed sendable.attached sendable.framed sendable.header sendable.apart
      (by simpa using sendable.fits) (by simpa using queued.room) (by simpa using queued.offers)
    have idle : ¬ (m.dev.txPfn = 0 ∨ RingEmpty m.mem m.dev.txPfn) := not_or.mpr ⟨queued.set, empty⟩
    have elements : SameOutside m.dev.txPfn m.mem r.mem := fun a outside =>
      kept a fun k _ inside => outside (inSlot_above inside).2
    have moved : ∀ a, (usedOffset m.dev.txPfn).toNat + 4 ≤ a ∨ a < (usedOffset m.dev.txPfn).toNat →
        (r.kicked m.dev.txPfn (availIdx m.mem m.dev.txPfn)).mem a = r.mem a := fun a apart =>
      Memory.store_outside (by rw [Memory.length_bytesLE]; omega)
    have whole : SameOutside m.dev.txPfn m.mem
        (r.kicked m.dev.txPfn (availIdx m.mem m.dev.txPfn)).mem := by
      intro a outside
      rw [moved a (by by_contra inside; exact outside ⟨by omega, by omega⟩), elements a outside]
    refine ⟨r.kicked m.dev.txPfn (availIdx m.mem m.dev.txPfn), kick_returns.mpr ?_, written, ?_, ?_,
      whole, dev⟩
    · refine (if_neg idle).mpr ⟨r, ?_, rfl⟩
      rw [outstanding_eq]
      exact returns
    · rw [availIdx_frame queued.programmed whole, usedIdx, Machine.kicked]
      have read := Memory.readLE_storeLE_self r.mem ((usedOffset m.dev.txPfn).toNat + 2) 2
        (availIdx m.mem m.dev.txPfn).toNat
      rw [Memory.storeLE] at read
      have bound : (availIdx m.mem m.dev.txPfn).toNat < 256 ^ 2 := (availIdx m.mem m.dev.txPfn).toNat_lt
      rw [read, Nat.mod_eq_of_lt bound, UInt16.ofNat_toNat]
    · have first : usedIdx m.mem m.dev.txPfn + .ofNat 0 = usedIdx m.mem m.dev.txPfn := by simp
      exact (first ▸ returned).congr fun a above => moved a (.inl above)

end Kicking

/-! ## Runs -/

/-- The machine beside the chains its driver has made available, in order. -/
structure TxRun where
  machine : Machine
  offered : List TxChain

namespace TxRun

/-- How many chains the rings say are outstanding. -/
def waiting (s : TxRun) : Nat := outstanding s.machine.mem s.machine.dev.txPfn

/-- The chains the device has not used. -/
def pending (s : TxRun) : List TxChain := s.offered.drop (s.offered.length - s.waiting)

/-- The chains the device has used. -/
def used (s : TxRun) : List TxChain := s.offered.take (s.offered.length - s.waiting)

end TxRun

inductive TxOp where
  | offer (chains : List TxChain)
  | kick

/-- The driver makes chains available. Whatever else happens to memory and
device leaves the used ring, the place of the queue and the outstanding chains
as they are. -/
structure Drives (s : TxRun) (chains : List TxChain) (m : Machine) : Prop where
  written : m.tapWritten = s.machine.tapWritten
  place : m.dev.txPfn = s.machine.dev.txPfn
  usedRing : ∀ a, InUsedRing s.machine.dev.txPfn a → m.mem a = s.machine.mem a
  count : availIdx m.mem s.machine.dev.txPfn =
    availIdx s.machine.mem s.machine.dev.txPfn + .ofNat chains.length
  room : s.waiting + chains.length ≤ queueSize.toNat
  offers : OffersAll m.mem s.machine.dev.txPfn (usedIdx s.machine.mem s.machine.dev.txPfn)
    (s.pending ++ chains)

/-- A driver fills its ring and kicks, on a queue that starts out empty at any
index, beside a wire that carried these frames before. -/
def txRuns (mode : Overflow) (before : List (List UInt8)) : System TxRun TxOp where
  start s := Programmed s.machine.dev.txPfn ∧ s.machine.dev.txPfn ≠ 0 ∧
    RingEmpty s.machine.mem s.machine.dev.txPfn ∧ s.offered = [] ∧ s.machine.tapWritten = before
  step s op t :=
    match op with
    | .offer chains => Drives s chains t.machine ∧ t.offered = s.offered ++ chains
    | .kick => (handleQueueKick mode 1).Returns s.machine () t.machine ∧ t.offered = s.offered

/-- Kicks find a device and chains that can be sent. -/
def Sends (mode : Overflow) (s : TxRun) (op : TxOp) : Prop := op = .kick → Sendable mode s.machine s.pending

/-- The wire carries the frame of every chain that was used, once and in order,
and the others are queued. -/
structure SentOnce (before : List (List UInt8)) (s : TxRun) : Prop where
  wire : s.machine.tapWritten = before ++ s.used.map TxChain.frame
  queued : Queued s.machine s.pending

section Running
variable {mode : Overflow} {before : List (List UInt8)} {s t : TxRun}

/-- The split of what was offered follows from what is queued. -/
private theorem SentOnce.of_split (sent pending : List TxChain) (split : s.offered = sent ++ pending)
    (wire : s.machine.tapWritten = before ++ sent.map TxChain.frame) (queued : Queued s.machine pending) :
    SentOnce before s := by
  have waiting : s.offered.length - s.waiting = sent.length := by
    rw [TxRun.waiting, queued.outstanding_eq, split, List.length_append, Nat.add_sub_cancel]
  have used : s.used = sent := by
    rw [TxRun.used, waiting, split, List.take_left]
  have unused : s.pending = pending := by
    rw [TxRun.pending, waiting, split, List.drop_left]
  exact ⟨used ▸ wire, unused ▸ queued⟩

private theorem TxRun.used_append_pending (s : TxRun) : s.offered = s.used ++ s.pending :=
  (List.take_append_drop _ _).symm

private theorem sentOnce_start (start : (txRuns mode before).start s) : SentOnce before s := by
  obtain ⟨programmed, set, empty, none, wire⟩ := start
  refine .of_split [] [] none (by simpa using wire) ⟨programmed, set, ?_, ?_, trivial⟩
  · rw [List.length_nil, show UInt16.ofNat 0 = 0 from rfl, UInt16.add_zero]
    exact empty
  · exact Nat.zero_le _

private theorem SentOnce.offer {chains : List TxChain} (sentOnce : SentOnce before s)
    (drives : Drives s chains t.machine) (offered : t.offered = s.offered ++ chains) : SentOnce before t := by
  have queued := sentOnce.queued
  have usedIdx_eq : usedIdx t.machine.mem s.machine.dev.txPfn = usedIdx s.machine.mem s.machine.dev.txPfn :=
    congrArg UInt16.ofNat (Memory.readLE_congr fun i bound => drives.usedRing _ ⟨by omega, by omega⟩)
  have length : s.pending.length = s.waiting := queued.outstanding_eq.symm
  refine .of_split s.used (s.pending ++ chains) ?_ ?_ ⟨?_, ?_, ?_, ?_, ?_⟩
  · rw [offered, s.used_append_pending, List.append_assoc]
  · rw [drives.written, sentOnce.wire]
  · exact drives.place ▸ queued.programmed
  · exact drives.place ▸ queued.set
  · rw [drives.place, usedIdx_eq, drives.count, queued.count, List.length_append, UInt16.ofNat_add,
      UInt16.add_assoc]
  · rw [List.length_append, length]
    exact drives.room
  · rw [drives.place, usedIdx_eq]
    exact drives.offers

/-- What was served is no longer queued, and nothing else is. -/
private theorem Served.queued_nil {m r : Machine} {pending : List TxChain} (queued : Queued m pending)
    (served : Served m pending r) : Queued r [] := by
  have place : r.dev.txPfn = m.dev.txPfn := congrArg _ served.dev
  refine ⟨place ▸ queued.programmed, place ▸ queued.set, ?_, Nat.zero_le _, trivial⟩
  rw [place, served.index]
  simp

private theorem SentOnce.kick (sentOnce : SentOnce before s) (sendable : Sendable mode s.machine s.pending)
    (returns : (handleQueueKick mode 1).Returns s.machine () t.machine) (offered : t.offered = s.offered) :
    SentOnce before t := by
  obtain ⟨r, kicked, served⟩ := kick_serves sentOnce.queued sendable
  obtain ⟨-, same⟩ := returns.unique kicked
  rw [← same] at served
  refine .of_split s.offered [] ?_ ?_ (served.queued_nil sentOnce.queued)
  · rw [offered, List.append_nil]
  · rw [served.wire, sentOnce.wire, List.append_assoc, ← List.map_append, ← s.used_append_pending]

theorem reached_sentOnce (reached : (txRuns mode before).Reached (Sends mode) s) : SentOnce before s := by
  refine reached.invariant (fun s start => sentOnce_start start) ?_
  intro s op t sentOnce sends step
  cases op with
  | offer chains => exact sentOnce.offer step.1 step.2
  | kick => exact sentOnce.kick (sends rfl) step.1 step.2

end Running

/-- The wire carries the frame of every used chain, once and in order. -/
def Carried (before : List (List UInt8)) (s : TxRun) : Prop :=
  s.machine.tapWritten = before ++ s.used.map TxChain.frame

/-- A kick serves exactly the chains that are outstanding. -/
def KickServes (mode : Overflow) (s : TxRun) : Prop :=
  ∃ t, (handleQueueKick mode 1).Returns s.machine () t ∧ Served s.machine s.pending t

/-- The transmission queue is on page one, and a TAP device is attached. -/
def sender (mem : Memory) : Machine where
  dev := { VirtioNetPci.new 0 with tapFd := some 3, queuePfns := #v[0, 0x1000] }
  mem := mem
  tapWritten := []
  tapIncoming := []

/-- One chain of one buffer: a header and a frame of 54 bytes, zeros but for
the byte that gives the length of an IP header. -/
def frameQueued (ihl : UInt8) : Memory :=
  (((Memory.zeroed.store 0x1001 [2]).store 0x1008 [64]).store 0x2002 [1]).store 0x218 [ihl]

def queuedChain (ihl : UInt8) : TxChain := ⟨0, (frameQueued ihl).fetch 0x200 64⟩

/-- The driver has made that chain available. -/
def frameRun (ihl : UInt8) : TxRun := ⟨sender (frameQueued ihl), [queuedChain ihl]⟩

section Sample
variable (ihl : UInt8)

private theorem queued_desc : descAt (frameQueued ihl) 0x1000 0 = ⟨0x200, 64, 0, 0⟩ := by rfl

private theorem queued_readable (descs : List VringDesc) :
    ReadableChain (frameQueued ihl) 0x1000 0 descs ↔ descs = [⟨0x200, 64, 0, 0⟩] := by
  have desc := queued_desc ihl
  constructor
  · intro readable
    cases readable with
    | last => rw [desc]
    | link _ _ chained =>
      rw [desc] at chained
      exact absurd rfl chained
  · rintro rfl
    rw [← desc]
    refine .last (by decide) ?_ ?_
    · rw [desc]
      rfl
    · rw [desc]
      exact fun chained => chained rfl

private theorem queued_offers : Offers (frameQueued ihl) 0x1000 0 (queuedChain ihl) := by
  refine ⟨by rfl, ⟨_, (queued_readable ihl _).mpr rfl, ?_⟩, ?_⟩
  · rw [contents, List.flatMap_cons, List.flatMap_nil, List.append_nil]
    rfl
  · rw [queuedChain, Memory.length_fetch, maxPacketSize]
    omega

private theorem frameQueued_high {a : Nat} (high : 0x3000 ≤ a) : frameQueued ihl a = 0 := by
  simp only [frameQueued]
  rw [Memory.store_outside, Memory.store_outside, Memory.store_outside, Memory.store_outside]
  · rfl
  all_goals
    rw [List.length_singleton]
    omega

private theorem ring_start : (usedOffset 0x1000).toNat = 0x3000 := by decide +kernel

private theorem frameRun_reached {mode : Overflow} {admitted : TxRun → TxOp → Prop}
    (allowed : ∀ s chains, admitted s (.offer chains)) :
    (txRuns mode []).Reached admitted (frameRun ihl) := by
  have start : (txRuns mode []).Reached admitted ⟨sender Memory.zeroed, []⟩ :=
    .start ⟨⟨1, rfl⟩, by decide, rfl, rfl, rfl⟩
  have drives : Drives ⟨sender Memory.zeroed, []⟩ [queuedChain ihl] (frameRun ihl).machine := by
    have idle : (TxRun.mk (sender Memory.zeroed) []).waiting = 0 := by decide +kernel
    refine ⟨rfl, rfl, fun a inside => ?_, by rfl, ?_, queued_offers ihl, trivial⟩
    · exact frameQueued_high ihl (ring_start ▸ inside.1)
    · rw [idle, List.length_singleton]
      decide
  exact start.next (allowed _ [queuedChain ihl]) ⟨drives, rfl⟩

private theorem queued_apart : BuffersApart (frameQueued ihl) 0x1000 (queuedChain ihl) := by
  intro descs readable desc member i bound inside
  rw [(queued_readable ihl descs).mp readable, List.mem_singleton] at member
  have low := inside.1
  rw [ring_start] at low
  subst member
  have length : (64 : UInt32).toNat = 64 := rfl
  have address : (0x200 : UInt64).toNat = 0x200 := rfl
  simp only [length, address] at bound low
  omega

private theorem frameRun_waiting : (frameRun ihl).waiting = 1 := by
  have available : availIdx (frameQueued ihl) 0x1000 = 1 := by rfl
  have used : usedIdx (frameQueued ihl) 0x1000 = 0 := by rfl
  calc (frameRun ihl).waiting
      = (availIdx (frameQueued ihl) 0x1000 - usedIdx (frameQueued ihl) 0x1000).toNat := rfl
    _ = 1 := by rw [available, used]; rfl

private theorem frameRun_pending : (frameRun ihl).pending = [queuedChain ihl] := by
  rw [TxRun.pending, frameRun_waiting]
  rfl

end Sample

end TinyMachine.VirtioNet
