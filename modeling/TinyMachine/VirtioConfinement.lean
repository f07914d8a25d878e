import TinyMachine.VirtioRuns

/-! Confinement of the device to guest memory. The rings are where the guest
put them, and the device follows whatever descriptors and buffers it finds
there, so the accesses stay inside the mapping exactly as far as what the
guest queued lies in it. -/
namespace TinyMachine.VirtioNet
open Lib

/-- Inside a mapping of this size; a copy of no bytes touches nothing. -/
def Access.Within (size : Nat) : Access → Prop
  | .read addr len => len = 0 ∨ addr + len ≤ size
  | .write addr len => len = 0 ∨ addr + len ≤ size

/-- The index of the used ring lies in memory; the descriptor table and the
available ring, which lie before it, do too. -/
def HeaderConfined (size : Nat) (pfn : UInt64) : Prop := (usedOffset pfn).toNat + 4 ≤ size

/-- A descriptor of a chain that is sent lies in memory, and so does what is
copied from its buffer. -/
def SourceConfined (size : Nat) (pfn : UInt64) (mem : Memory) (here : UInt16 × List UInt8) : Prop :=
  let desc := descAt mem pfn here.1
  (descOffset pfn here.1).toNat + 16 ≤ size ∧
    (desc.Readable → desc.taken here.2 = 0 ∨ desc.addr.toNat + desc.taken here.2 ≤ size)

/-- The descriptors of a chain that is sent, and its used element if the
device gets to it. -/
def ChainConfined (size : Nat) (pfn : UInt64) (dev : VirtioNetPci) (mem : Memory) (position : UInt16) : Prop :=
  let head := availHead mem pfn position
  (∀ here, Visits mem pfn head here → SourceConfined size pfn mem here) ∧
    ∀ packet, Yields mem pfn head packet → (afterPacket dev packet).isSome →
      usedSlot pfn position + 8 ≤ size

/-- What the guest queued for transmission lies in memory. -/
def TxConfined (mode : Overflow) (size : Nat) (m : Machine) : Prop :=
  let pfn := m.dev.txPfn
  pfn ≠ 0 → HeaderConfined size pfn ∧ ForKick mode (ChainConfined size pfn) m

/-- What is copied to the buffer of a descriptor fits into memory. -/
def SinkConfined (size : Nat) (pfn : UInt64) (here : FillPoint) : Prop :=
  let desc := here.desc pfn
  let count := min desc.len.toNat here.remaining
  ¬ desc.Readable → count = 0 ∨ desc.addr.toNat + count ≤ size

/-- The chain a received packet goes to: the first descriptor, which is read
for the log whatever its number, the buffers that are filled, and the used
element if the device gets to it. -/
def DeliveryConfined (size : Nat) (pfn : UInt64) (mem : Memory) (packet : List UInt8) (fromTap : Bool) :
    Prop :=
  HeaderConfined size pfn ∧ (¬ RingEmpty mem pfn →
    let head := nextHead mem pfn
    (fromTap → (descOffset pfn head).toNat + 16 ≤ size) ∧
    (∀ here, FillPoint.Visits mem pfn head packet here → here.Active → SinkConfined size pfn here) ∧
    ∀ left, Fills mem pfn head packet left → usedSlot pfn (usedIdx mem pfn) + 8 ≤ size)

/-- What the guest queued for reception lies in memory. -/
def RxConfined (size : Nat) (m : Machine) : Prop :=
  let pfn := m.dev.rxPfn
  pfn ≠ 0 → ForDeliveries pfn (DeliveryConfined size pfn) (rxQueue m) m.mem

section Bounds
variable {size : Nat} {pfn : UInt64} {mem : Memory} {position : UInt16}

private theorem availSlot_within (programmed : Programmed pfn) (header : HeaderConfined size pfn)
    (position : UInt16) : availSlot pfn position + 2 ≤ size := by
  have small := slot_lt position
  rw [HeaderConfined, usedOffset_toNat programmed] at header
  rw [availSlot, availOffset_toNat programmed]
  omega

private theorem table_within (programmed : Programmed pfn) (header : HeaderConfined size pfn)
    {d : UInt16} (inside : d < queueSize) : (descOffset pfn d).toNat + 16 ≤ size := by
  have small : d.toNat < 256 := inside
  rw [HeaderConfined, usedOffset_toNat programmed] at header
  rw [descOffset_toNat programmed]
  omega

private theorem header_reads (programmed : Programmed pfn) :
    (Access.read ((availOffset pfn).toNat + 2) 2).Within size ∧
      (Access.read ((usedOffset pfn).toNat + 2) 2).Within size ↔ HeaderConfined size pfn := by
  simp only [Access.Within, HeaderConfined, availOffset_toNat programmed, usedOffset_toNat programmed]
  omega

/-- A packet is never overrun. -/
theorem FillPoint.Visits.remaining_le {head : UInt16} {packet : List UInt8} {here : FillPoint}
    (visits : FillPoint.Visits mem pfn head packet here) : here.remaining ≤ packet.length := by
  induction visits with
  | refl => exact Nat.le_refl _
  | tail _ leads ih =>
    obtain ⟨-, -, rfl⟩ := leads
    simp only [FillPoint.after, scatter]
    split <;> (simp only; omega)

private theorem length_part (desc : VringDesc) {packet : List UInt8} {remaining : Nat}
    (inside : remaining ≤ packet.length) :
    (desc.part packet remaining).length = min desc.len.toNat remaining := by
  simp only [VringDesc.part, List.length_take, List.length_drop]
  omega

end Bounds

section Transmission
variable {mode : Overflow} {size : Nat} {pfn : UInt64} {m : Machine}

private theorem txChains_confined_iff (programmed : Programmed pfn) (header : HeaderConfined size pfn)
    {first : UInt16} {i left : Nat} :
    (txChains mode pfn first i left).Always (Access.Within size) m ↔
      ForChains mode pfn first (ChainConfined size pfn) i left m.dev m.mem := by
  refine txChains_iff (fun x m => x.Always (Access.Within size) m) (fun i m => by simp [txChains]) ?_
  intro i left m
  rw [txChains_always]
  refine forall_congr' fun position => forall_congr' fun fits => ?_
  have entry := availSlot_within programmed header position
  simp only [ChainConfined, SourceConfined, Access.Within]
  constructor
  · rintro ⟨_, sources, sends⟩
    refine ⟨⟨fun here visits => ?_, fun packet yields handled => ?_⟩, fun packet yields dev after => ?_⟩
    · exact ⟨by simpa using (sources here visits).1, (sources here visits).2⟩
    · obtain ⟨dev, after⟩ := Option.isSome_iff_exists.mp handled
      simpa using (sends packet yields dev after).1
    · exact (sends packet yields dev after).2
  · rintro ⟨⟨sources, elements⟩, later⟩
    refine ⟨.inr entry, fun here visits => ?_, fun packet yields dev after => ?_⟩
    · exact ⟨.inr (sources here visits).1, (sources here visits).2⟩
    · exact ⟨.inr (elements packet yields (by simp [after])), later packet yields dev after⟩

/-- A kick stays in memory exactly when what is queued does. -/
theorem kick_confined_iff (programmed : Programmed m.dev.txPfn) :
    (handleQueueKick mode 1).Always (Access.Within size) m ↔ TxConfined mode size m := by
  rw [kick_always, TxConfined]
  refine forall_congr' fun set => ?_
  rw [← and_assoc, header_reads programmed]
  refine and_congr_right fun header => ?_
  rw [ForKick]
  constructor
  · intro accesses
    by_cases empty : RingEmpty m.mem m.dev.txPfn
    · have none : outstanding m.mem m.dev.txPfn = 0 := by
        rw [outstanding, (sub_eq_zero_iff _ _).mpr empty]
        rfl
      rw [none]
      trivial
    · exact (txChains_confined_iff programmed header).mp (accesses empty).1
  · intro chains _
    refine ⟨(txChains_confined_iff programmed header).mpr chains, fun _ _ => .inr ?_⟩
    unfold HeaderConfined at header
    omega

end Transmission

section Reception
variable {size : Nat} {pfn : UInt64} {m : Machine}

private theorem delivery_confined_iff (programmed : Programmed pfn) (mem : Memory) (packet : List UInt8)
    (fromTap : Bool) :
    DeliveryAlways (Access.Within size) pfn mem packet fromTap ↔
      DeliveryConfined size pfn mem packet fromTap := by
  rw [DeliveryAlways, ← and_assoc, header_reads programmed, DeliveryConfined]
  refine and_congr_right fun header => forall_congr' fun _ => ?_
  have entry := availSlot_within programmed header (usedIdx mem pfn)
  simp only [Access.Within, SinkConfined]
  constructor
  · rintro ⟨_, first, sinks, ends⟩
    refine ⟨fun tap => by simpa using first tap, fun here visits active writable => ?_, fun left fills => ?_⟩
    · rw [← length_part _ visits.remaining_le]
      exact (sinks here visits active).2 writable
    · simpa using (ends left fills).1
  · rintro ⟨first, sinks, ends⟩
    refine ⟨.inr entry, fun tap => .inr (first tap), fun here visits active => ⟨.inr ?_, fun writable => ?_⟩,
      fun left fills => ⟨.inr (ends left fills), .inr ?_⟩⟩
    · exact table_within programmed header active.2
    · rw [length_part _ visits.remaining_le]
      exact sinks here visits active writable
    · unfold HeaderConfined at header
      omega

/-- A poll stays in memory exactly when what is queued does. -/
theorem poll_confined_iff (programmed : Programmed m.dev.rxPfn) :
    tryRx.Always (Access.Within size) m ↔ RxConfined size m := by
  refine tryRx_iff (Traced.always_pervasive _) ⟨fun m packet fromTap => ?_, ?_⟩
  · rw [← delivery_confined_iff programmed]
    exact deliver_always
  · rintro mem packet fromTap empty ⟨header, _⟩ packet' fromTap'
    exact ⟨header, fun filled => absurd empty filled⟩

end Reception

/-- A fresh device whose transmission queue was put on this page. -/
def queueOnPage (page : UInt32) : Machine where
  dev := { VirtioNetPci.new 0 with selectedQueue := 1, queuePfns := #v[0, page.toUInt64 <<< 12] }
  mem := Memory.zeroed
  tapWritten := []
  tapIncoming := []

theorem queueOnPage_reachable (mode : Overflow) (page : UInt32) : Reachable mode (queueOnPage page) := by
  have fresh : Reachable mode ⟨VirtioNetPci.new 0, Memory.zeroed, [], []⟩ := .start ⟨0, rfl⟩
  have selected : Reachable mode ⟨{ VirtioNetPci.new 0 with selectedQueue := 1 }, Memory.zeroed, [], []⟩ :=
    fresh.next trivial (show (deviceRuns mode).step _ (.mmioWrite 0x0E 1) _ from ⟨0, 0, rfl, rfl⟩)
  exact selected.next trivial (show (deviceRuns mode).step _ (.mmioWrite 0x08 page) _ from ⟨0, 0, rfl, rfl⟩)

end TinyMachine.VirtioNet
