import TinyMachine.Lib.Words
import TinyMachine.VirtioNet
import Mathlib.Tactic.Ring

/-! What the device does to a machine, in terms of the rings in guest memory:
where they lie, which descriptors a chain passes and what is gathered from it,
which buffers a packet is scattered to. -/
namespace TinyMachine.VirtioNet
open Lib

section Accesses
variable {m t : Machine} {kind : Access → Prop} {addr len : Nat} {bytes : List UInt8} {u : Unit}
  {change : VirtioNetPci → VirtioNetPci}

@[simp] theorem readU16_returns {value : UInt16} :
    (readU16 addr).Returns m value t ↔ .ofNat (m.mem.readLE addr 2) = value ∧ m = t := by
  simp [readU16, and_comm]

@[simp] theorem readDesc_returns {desc : VringDesc} :
    (readDesc addr).Returns m desc t ↔ .at m.mem addr = desc ∧ m = t := by
  simp [readDesc, and_comm]

@[simp] theorem readBytes_returns :
    (readBytes addr len).Returns m bytes t ↔ m.mem.fetch addr len = bytes ∧ m = t := by
  simp [readBytes, and_comm]

@[simp] theorem writeBytes_returns :
    (writeBytes addr bytes).Returns m u t ↔ { m with mem := m.mem.store addr bytes } = t := by
  simp [writeBytes]

@[simp] theorem modifyDev_returns :
    (modifyDev change).Returns m u t ↔ { m with dev := change m.dev } = t := by
  simp [modifyDev]

@[simp] theorem readU16_always : (readU16 addr).Always kind m ↔ kind (.read addr 2) := by
  simp [readU16]

@[simp] theorem readDesc_always : (readDesc addr).Always kind m ↔ kind (.read addr 16) := by
  simp [readDesc]

@[simp] theorem readBytes_always : (readBytes addr len).Always kind m ↔ kind (.read addr len) := by
  simp [readBytes]

@[simp] theorem writeBytes_always :
    (writeBytes addr bytes).Always kind m ↔ kind (.write addr bytes.length) := by
  simp [writeBytes]

@[simp] theorem modifyDev_always : (modifyDev change).Always kind m := by simp [modifyDev]

@[simp] theorem readU16_terminates : (readU16 addr).Terminates m := by simp [readU16]
@[simp] theorem readDesc_terminates : (readDesc addr).Terminates m := by simp [readDesc]
@[simp] theorem readBytes_terminates : (readBytes addr len).Terminates m := by simp [readBytes]
@[simp] theorem writeBytes_terminates : (writeBytes addr bytes).Terminates m := by simp [writeBytes]
@[simp] theorem modifyDev_terminates : (modifyDev change).Terminates m := by simp [modifyDev]

@[simp] theorem readU16_panics : ¬ (readU16 addr).Panics m := by simp [readU16]
@[simp] theorem readDesc_panics : ¬ (readDesc addr).Panics m := by simp [readDesc]
@[simp] theorem writeBytes_panics : ¬ (writeBytes addr bytes).Panics m := by simp [writeBytes]
@[simp] theorem modifyDev_panics : ¬ (modifyDev change).Panics m := by simp [modifyDev]

@[simp] theorem length_usedElem (id : UInt16) (len : Nat) : (usedElem id len).length = 8 := by
  simp [usedElem]

end Accesses

/-! ## What the rings hold -/

/-- Where the entry of the available ring for a position lies. -/
def availSlot (pfn : UInt64) (position : UInt16) : Nat :=
  (availOffset pfn).toNat + 4 + (position % queueSize).toNat * 2

/-- Where the element of the used ring for a position lies. -/
def usedSlot (pfn : UInt64) (position : UInt16) : Nat :=
  (usedOffset pfn).toNat + 4 + (position % queueSize).toNat * 8

def availIdx (mem : Memory) (pfn : UInt64) : UInt16 := .ofNat (mem.readLE ((availOffset pfn).toNat + 2) 2)
def usedIdx (mem : Memory) (pfn : UInt64) : UInt16 := .ofNat (mem.readLE ((usedOffset pfn).toNat + 2) 2)

/-- The head of the chain at a position of the available ring. -/
def availHead (mem : Memory) (pfn : UInt64) (position : UInt16) : UInt16 :=
  .ofNat (mem.readLE (availSlot pfn position) 2)

/-- The descriptor of this number in the table. -/
def descAt (mem : Memory) (pfn : UInt64) (d : UInt16) : VringDesc := .at mem (descOffset pfn d).toNat

section Folding
variable (mem : Memory) (pfn : UInt64) (position : UInt16)

theorem availSlot_eq :
    (availOffset pfn).toNat + 4 + (position % queueSize).toNat * 2 = availSlot pfn position := rfl

theorem usedSlot_eq :
    (usedOffset pfn).toNat + 4 + (position % queueSize).toNat * 8 = usedSlot pfn position := rfl

theorem availIdx_eq :
    .ofNat (mem.readLE ((availOffset pfn).toNat + 2) 2) = availIdx mem pfn := rfl

theorem usedIdx_eq :
    .ofNat (mem.readLE ((usedOffset pfn).toNat + 2) 2) = usedIdx mem pfn := rfl

theorem availHead_eq :
    .ofNat (mem.readLE (availSlot pfn position) 2) = availHead mem pfn position := rfl

end Folding

/-! ## Chains -/

/-- The device may read the buffer; otherwise it may write it. -/
def VringDesc.Readable (desc : VringDesc) : Prop := desc.flags &&& vringDescFWrite = 0

/-- The chain goes on. -/
def VringDesc.Chained (desc : VringDesc) : Prop := desc.flags &&& vringDescFNext ≠ 0

instance (desc : VringDesc) : Decidable desc.Readable := inferInstanceAs (Decidable (_ = _))
instance (desc : VringDesc) : Decidable desc.Chained := inferInstanceAs (Decidable (_ ≠ _))

/-- How much of a buffer joins the packet. -/
def VringDesc.taken (desc : VringDesc) (packet : List UInt8) : Nat :=
  min desc.len.toNat (maxPacketSize - packet.length)

/-- The packet behind a descriptor of a chain that is sent. -/
def gather (mem : Memory) (desc : VringDesc) (packet : List UInt8) : List UInt8 :=
  if desc.Readable then packet ++ mem.fetch desc.addr.toNat (desc.taken packet) else packet

/-- One descriptor of a chain that is sent leads to the next. -/
def Leads (mem : Memory) (pfn : UInt64) (here next : UInt16 × List UInt8) : Prop :=
  (descAt mem pfn here.1).Chained ∧
    next = ((descAt mem pfn here.1).next, gather mem (descAt mem pfn here.1) here.2)

/-- The chain comes by this descriptor with this much gathered. -/
def Visits (mem : Memory) (pfn : UInt64) (head : UInt16) : UInt16 × List UInt8 → Prop :=
  Relation.ReflTransGen (Leads mem pfn) (head, [])

/-- The chain ends and this is its packet. -/
def Yields (mem : Memory) (pfn : UInt64) (head : UInt16) (packet : List UInt8) : Prop :=
  ∃ last, Visits mem pfn head last ∧ ¬ (descAt mem pfn last.1).Chained ∧
    packet = gather mem (descAt mem pfn last.1) last.2

section Gathering
variable {pfn : UInt64} {m t : Machine} {kind : Access → Prop} {head : UInt16} {packet : List UInt8}

/-- Where one descriptor leads: on to the next, or to the end. -/
def gathered (mem : Memory) (pfn : UInt64) (here : UInt16 × List UInt8) :
    UInt16 × List UInt8 ⊕ List UInt8 :=
  let desc := descAt mem pfn here.1
  if desc.Chained then .inl (desc.next, gather mem desc here.2) else .inr (gather mem desc here.2)

theorem gatherRound_returns {here : UInt16 × List UInt8} {result : UInt16 × List UInt8 ⊕ List UInt8} :
    (gatherRound pfn here).Returns m result t ↔ gathered m.mem pfn here = result ∧ m = t := by
  obtain ⟨d, packet⟩ := here
  simp only [gatherRound, Traced.bind_returns, readDesc_returns,
    gathered, gather, descAt, VringDesc.Readable, VringDesc.Chained, VringDesc.taken]
  by_cases readable : (VringDesc.at m.mem (descOffset pfn d).toNat).flags &&& vringDescFWrite = 0 <;>
    by_cases last : (VringDesc.at m.mem (descOffset pfn d).toNat).flags &&& vringDescFNext = 0 <;>
    simp [readable, last, and_comm]

theorem gatherRound_always {here : UInt16 × List UInt8} :
    (gatherRound pfn here).Always kind m ↔
      let desc := descAt m.mem pfn here.1
      kind (.read (descOffset pfn here.1).toNat 16) ∧
        (desc.Readable → kind (.read desc.addr.toNat (desc.taken here.2))) := by
  obtain ⟨d, packet⟩ := here
  simp only [gatherRound, Traced.always_bind, readDesc_returns,
    readDesc_always, descAt, VringDesc.Readable, VringDesc.taken]
  by_cases readable : (VringDesc.at m.mem (descOffset pfn d).toNat).flags &&& vringDescFWrite = 0 <;>
    simp [readable]

theorem gather_passes {start : UInt16 × List UInt8}
    {here : (UInt16 × List UInt8) × Machine} :
    Traced.Passes (gatherRound pfn) (start, m) here ↔
      ∃ point, here = (point, m) ∧ Relation.ReflTransGen (Leads m.mem pfn) start point := by
  refine Traced.passes_through (fun point => (point, m)) fun point next => ?_
  rw [Traced.Round, gatherRound_returns, gathered]
  simp only [Leads]
  by_cases chained : (descAt m.mem pfn point.1).Chained
  · simp only [if_pos chained, Sum.inl.injEq]
    constructor
    · rintro ⟨led, same⟩
      exact ⟨next.1, Prod.ext rfl same.symm, chained, led.symm⟩
    · rintro ⟨_, rfl, _, rfl⟩
      exact ⟨rfl, rfl⟩
  · simp [chained]

/-- A chain is gathered without touching the machine. -/
theorem gather_returns :
    (Traced.iterate (gatherRound pfn) (head, [])).Returns m packet t ↔
      Yields m.mem pfn head packet ∧ m = t := by
  rw [Traced.iterate_returns]
  constructor
  · rintro ⟨_, passes, ended⟩
    obtain ⟨last, rfl, visits⟩ := gather_passes.mp passes
    obtain ⟨gathers, same⟩ := gatherRound_returns.mp ended
    by_cases chained : (descAt m.mem pfn last.1).Chained
    · simp [gathered, chained] at gathers
    · simp only [gathered, if_neg chained, Sum.inr.injEq] at gathers
      exact ⟨⟨last, visits, chained, gathers.symm⟩, same⟩
  · rintro ⟨⟨last, visits, ends, rfl⟩, rfl⟩
    refine ⟨(last, m), gather_passes.mpr ⟨last, rfl, visits⟩, ?_⟩
    rw [gatherRound_returns]
    simp [gathered, ends]

theorem gather_always :
    (Traced.iterate (gatherRound pfn) (head, [])).Always kind m ↔
      ∀ here, Visits m.mem pfn head here →
        let desc := descAt m.mem pfn here.1
        kind (.read (descOffset pfn here.1).toNat 16) ∧
          (desc.Readable → kind (.read desc.addr.toNat (desc.taken here.2))) := by
  rw [Traced.always_iterate]
  constructor
  · intro always here visits
    exact gatherRound_always.mp
      (always (here, m) (gather_passes.mpr ⟨here, rfl, visits⟩))
  · intro confined here passes
    obtain ⟨point, rfl, visits⟩ := gather_passes.mp passes
    exact gatherRound_always.mpr (confined point visits)

private theorem gatherRound_runs {here : UInt16 × List UInt8} : ¬ (gatherRound pfn here).Panics m := by
  intro panics
  exact panics.not_returns (gatherRound_returns.mpr ⟨rfl, rfl⟩)

/-- Gathering ends when the chain does. -/
theorem gather_terminates :
    (Traced.iterate (gatherRound pfn) (head, [])).Terminates m ↔
      ∃ packet, Yields m.mem pfn head packet := by
  constructor
  · rintro (⟨packet, t, returned⟩ | panics)
    · exact ⟨packet, (gather_returns.mp returned).1⟩
    · obtain ⟨here, _, inRound⟩ := Traced.iterate_panics_of _ panics
      exact absurd inRound gatherRound_runs
  · rintro ⟨packet, yields⟩
    exact .of_returns (gather_returns.mpr ⟨yields, rfl⟩)

end Gathering

/-! ## Filling chains -/

/-- The part of the packet that goes into a buffer. -/
def VringDesc.part (desc : VringDesc) (packet : List UInt8) (remaining : Nat) : List UInt8 :=
  (packet.drop (packet.length - remaining)).take (min desc.len.toNat remaining)

/-- What is left of the packet, and guest memory, behind a descriptor of a
chain that is filled. -/
def scatter (desc : VringDesc) (packet : List UInt8) (remaining : Nat) (mem : Memory) : Nat × Memory :=
  if desc.Readable then (remaining, mem)
  else (remaining - min desc.len.toNat remaining,
    mem.store desc.addr.toNat (desc.part packet remaining))

/-- A descriptor of a chain that is filled, what is left for it, and the
memory it finds. -/
structure FillPoint where
  d : UInt16
  remaining : Nat
  mem : Memory

namespace FillPoint

/-- Something is left, and the number is one of the table. -/
def Active (here : FillPoint) : Prop := 0 < here.remaining ∧ here.d < queueSize

instance (here : FillPoint) : Decidable here.Active := inferInstanceAs (Decidable (_ ∧ _))

def desc (here : FillPoint) (pfn : UInt64) : VringDesc := descAt here.mem pfn here.d

def after (here : FillPoint) (pfn : UInt64) (packet : List UInt8) : Nat × Memory :=
  scatter (here.desc pfn) packet here.remaining here.mem

/-- The chain is not left behind this descriptor. -/
def GoesOn (here : FillPoint) (pfn : UInt64) (packet : List UInt8) : Prop :=
  (here.desc pfn).Chained ∧ (here.after pfn packet).1 ≠ 0

instance (here : FillPoint) (pfn : UInt64) (packet : List UInt8) : Decidable (here.GoesOn pfn packet) :=
  inferInstanceAs (Decidable (_ ∧ _))

/-- One descriptor of a chain that is filled leads to the next. -/
def Leads (pfn : UInt64) (packet : List UInt8) (here next : FillPoint) : Prop :=
  here.Active ∧ here.GoesOn pfn packet ∧
    next = ⟨(here.desc pfn).next, (here.after pfn packet).1, (here.after pfn packet).2⟩

/-- The chain comes by this point. -/
def Visits (mem : Memory) (pfn : UInt64) (head : UInt16) (packet : List UInt8) : FillPoint → Prop :=
  Relation.ReflTransGen (Leads pfn packet) ⟨head, packet.length, mem⟩

end FillPoint

/-- The chain is left with so much of the packet remaining, and this memory. -/
def Fills (mem : Memory) (pfn : UInt64) (head : UInt16) (packet : List UInt8) (left : Nat × Memory) : Prop :=
  ∃ last, FillPoint.Visits mem pfn head packet last ∧
    if last.Active then ¬ last.GoesOn pfn packet ∧ left = last.after pfn packet
    else left = (last.remaining, last.mem)

section Scattering
variable {pfn : UInt64} {m t : Machine} {kind : Access → Prop} {head : UInt16} {packet : List UInt8}
  {here : FillPoint}

/-- The machine at a point of the loop. -/
private def pointOf (m : Machine) (here : FillPoint) : (UInt16 × Nat) × Machine :=
  ((here.d, here.remaining), { m with mem := here.mem })

theorem scatterRound_returns {result : UInt16 × Nat ⊕ Nat} :
    (scatterRound pfn packet (here.d, here.remaining)).Returns { m with mem := here.mem } result t ↔
      if here.Active then
        (if here.GoesOn pfn packet then
          .inl ((here.desc pfn).next, (here.after pfn packet).1)
        else .inr (here.after pfn packet).1) = result ∧
          { m with mem := (here.after pfn packet).2 } = t
      else .inr here.remaining = result ∧ { m with mem := here.mem } = t := by
  obtain ⟨d, remaining, mem⟩ := here
  by_cases active : 0 < remaining ∧ d < queueSize
  · simp only [scatterRound, FillPoint.Active, FillPoint.GoesOn,
      FillPoint.after, FillPoint.desc, scatter, descAt, VringDesc.Readable, VringDesc.Chained,
      VringDesc.part, active]
    by_cases readable : (VringDesc.at mem (descOffset pfn d).toNat).flags &&& vringDescFWrite = 0 <;>
      by_cases last : (VringDesc.at mem (descOffset pfn d).toNat).flags &&& vringDescFNext = 0 <;>
      simp [readable, last] <;> (split <;> rfl)
  · simp [scatterRound, FillPoint.Active, active]

theorem scatterRound_always :
    (scatterRound pfn packet (here.d, here.remaining)).Always kind { m with mem := here.mem } ↔
      (here.Active → kind (.read (descOffset pfn here.d).toNat 16) ∧
        (¬ (here.desc pfn).Readable →
          kind (.write (here.desc pfn).addr.toNat
            ((here.desc pfn).part packet here.remaining).length))) := by
  obtain ⟨d, remaining, mem⟩ := here
  by_cases active : 0 < remaining ∧ d < queueSize
  · simp only [scatterRound, FillPoint.Active, FillPoint.desc, descAt,
      VringDesc.Readable, VringDesc.part, active]
    by_cases readable : (VringDesc.at mem (descOffset pfn d).toNat).flags &&& vringDescFWrite = 0 <;>
      simp [readable]
  · simp [scatterRound, FillPoint.Active, active]

theorem scatter_passes {place : (UInt16 × Nat) × Machine} :
    Traced.Passes (scatterRound pfn packet) (pointOf m here) place ↔
      ∃ point, place = pointOf m point ∧
        Relation.ReflTransGen (FillPoint.Leads pfn packet) here point := by
  refine Traced.passes_through (pointOf m) fun point next => ?_
  rw [Traced.Round, pointOf, scatterRound_returns]
  simp only [FillPoint.Leads]
  by_cases active : point.Active
  · by_cases goesOn : point.GoesOn pfn packet
    · simp only [if_pos active, if_pos goesOn, Sum.inl.injEq]
      constructor
      · rintro ⟨led, same⟩
        exact ⟨⟨next.1.1, next.1.2, (point.after pfn packet).2⟩,
          Prod.ext rfl same.symm, active, goesOn, by rw [← led]⟩
      · rintro ⟨_, rfl, _, _, rfl⟩
        exact ⟨rfl, rfl⟩
    · simp [active, goesOn]
  · simp [active]

/-- A chain is filled without touching anything but guest memory. -/
theorem scatter_returns {remaining : Nat} :
    (Traced.iterate (scatterRound pfn packet) (head, packet.length)).Returns m remaining t ↔
      ∃ mem, Fills m.mem pfn head packet (remaining, mem) ∧ { m with mem := mem } = t := by
  have start : ((head, packet.length), m) = pointOf m ⟨head, packet.length, m.mem⟩ := rfl
  rw [Traced.iterate_returns, start]
  constructor
  · rintro ⟨_, passes, ended⟩
    obtain ⟨last, rfl, visits⟩ := scatter_passes.mp passes
    have leaves := scatterRound_returns.mp ended
    by_cases active : last.Active
    · rw [if_pos active] at leaves
      by_cases goesOn : last.GoesOn pfn packet
      · simp [goesOn] at leaves
      · simp only [if_neg goesOn, Sum.inr.injEq] at leaves
        refine ⟨_, ⟨last, visits, ?_⟩, leaves.2⟩
        rw [if_pos active]
        exact ⟨goesOn, by rw [← leaves.1]⟩
    · simp only [if_neg active, Sum.inr.injEq] at leaves
      refine ⟨_, ⟨last, visits, ?_⟩, leaves.2⟩
      rw [if_neg active, ← leaves.1]
  · rintro ⟨mem, ⟨last, visits, left⟩, rfl⟩
    refine ⟨pointOf m last, scatter_passes.mpr ⟨last, rfl, visits⟩, ?_⟩
    refine scatterRound_returns.mpr ?_
    by_cases active : last.Active
    · rw [if_pos active] at left ⊢
      rw [if_neg left.1, ← left.2]
      exact ⟨rfl, rfl⟩
    · rw [if_neg active] at left ⊢
      cases left
      exact ⟨rfl, rfl⟩

theorem scatter_always :
    (Traced.iterate (scatterRound pfn packet) (head, packet.length)).Always kind m ↔
      ∀ here, FillPoint.Visits m.mem pfn head packet here → here.Active →
        kind (.read (descOffset pfn here.d).toNat 16) ∧
        (¬ (here.desc pfn).Readable →
          kind (.write (here.desc pfn).addr.toNat
            ((here.desc pfn).part packet here.remaining).length)) := by
  have start : ((head, packet.length), m) = pointOf m ⟨head, packet.length, m.mem⟩ := rfl
  rw [Traced.always_iterate, start]
  constructor
  · intro always here visits
    exact scatterRound_always.mp
      (always (pointOf m here) (scatter_passes.mpr ⟨here, rfl, visits⟩))
  · intro confined place passes
    obtain ⟨point, rfl, visits⟩ := scatter_passes.mp passes
    exact scatterRound_always.mpr (confined point visits)

private theorem scatterRound_runs {place : UInt16 × Nat} : ¬ (scatterRound pfn packet place).Panics m := by
  obtain ⟨d, remaining⟩ := place
  simp [scatterRound]

/-- Filling ends when the chain, the table or the packet does. -/
theorem scatter_terminates :
    (Traced.iterate (scatterRound pfn packet) (head, packet.length)).Terminates m ↔
      ∃ left, Fills m.mem pfn head packet left := by
  constructor
  · rintro (⟨remaining, t, returned⟩ | panics)
    · obtain ⟨mem, fills, _⟩ := scatter_returns.mp returned
      exact ⟨_, fills⟩
    · obtain ⟨here, _, inRound⟩ := Traced.iterate_panics_of _ panics
      exact absurd inRound scatterRound_runs
  · rintro ⟨left, fills⟩
    exact .of_returns (scatter_returns.mpr ⟨left.2, fills, rfl⟩)

end Scattering

/-! ## Deliveries -/

/-- No chain is available. -/
def RingEmpty (mem : Memory) (pfn : UInt64) : Prop := availIdx mem pfn = usedIdx mem pfn

instance (mem : Memory) (pfn : UInt64) : Decidable (RingEmpty mem pfn) :=
  inferInstanceAs (Decidable (_ = _))

/-- The chain the next packet goes to. -/
def nextHead (mem : Memory) (pfn : UInt64) : UInt16 := availHead mem pfn (usedIdx mem pfn)

/-- Guest memory when a chain was left like this: the used element and the
new index are in place. -/
def completed (mem : Memory) (pfn : UInt64) (packet : List UInt8) (left : Nat × Memory) : Memory :=
  (left.2.store (usedSlot pfn (usedIdx mem pfn))
    (usedElem (nextHead mem pfn) (packet.length - left.1))).store
    ((usedOffset pfn).toNat + 2) (Memory.bytesLE 2 (usedIdx mem pfn + 1).toNat)

/-- The machine behind a delivery that found a chain. -/
def Machine.delivered (m : Machine) (pfn : UInt64) (packet : List UInt8) (left : Nat × Memory) : Machine :=
  { m with
    mem := completed m.mem pfn packet left
    dev := { m.dev with isr := m.dev.isr ||| 1 } }

section Delivering
variable {pfn : UInt64} {m t : Machine} {kind : Access → Prop} {packet : List UInt8} {fromTap ok : Bool}

theorem sub_eq_zero_iff (a b : UInt16) : a - b = 0 ↔ a = b := by
  constructor
  · intro zero
    have := congrArg (· + b) zero
    simpa using this
  · rintro rfl
    simp

theorem deliver_returns : (deliver pfn packet fromTap).Returns m ok t ↔
    if RingEmpty m.mem pfn then ok = false ∧ m = t
    else ok = true ∧ ∃ left, Fills m.mem pfn (nextHead m.mem pfn) packet left ∧
      m.delivered pfn packet left = t := by
  simp only [deliver, Traced.bind_returns, readU16_returns, availIdx_eq, usedIdx_eq, RingEmpty]
  by_cases empty : availIdx m.mem pfn = usedIdx m.mem pfn
  · simp [empty]
  · cases fromTap <;>
      simp [-UInt16.toNat_mod, empty, sub_eq_zero_iff, logFirstDesc, scatter_returns, availSlot_eq,
        usedSlot_eq, availHead_eq, Machine.delivered, completed, nextHead, and_left_comm]

/-- A packet finds its way when no chain is available or the next one ends. -/
theorem deliver_terminates : (deliver pfn packet fromTap).Terminates m ↔
    (¬ RingEmpty m.mem pfn → ∃ left, Fills m.mem pfn (nextHead m.mem pfn) packet left) := by
  simp only [deliver, Traced.bind_terminates, readU16_returns, readU16_terminates, availIdx_eq,
    usedIdx_eq, RingEmpty]
  by_cases empty : availIdx m.mem pfn = usedIdx m.mem pfn
  · simp [empty]
  · cases fromTap <;>
      simp [-UInt16.toNat_mod, empty, sub_eq_zero_iff, logFirstDesc, scatter_returns,
        scatter_terminates, availSlot_eq, usedSlot_eq, availHead_eq, nextHead]

theorem deliver_always : (deliver pfn packet fromTap).Always kind m ↔
    kind (.read ((availOffset pfn).toNat + 2) 2) ∧ kind (.read ((usedOffset pfn).toNat + 2) 2) ∧
    (¬ RingEmpty m.mem pfn →
      kind (.read (availSlot pfn (usedIdx m.mem pfn)) 2) ∧
      (fromTap → kind (.read (descOffset pfn (nextHead m.mem pfn)).toNat 16)) ∧
      (∀ here, FillPoint.Visits m.mem pfn (nextHead m.mem pfn) packet here → here.Active →
        kind (.read (descOffset pfn here.d).toNat 16) ∧
        (¬ (here.desc pfn).Readable →
          kind (.write (here.desc pfn).addr.toNat
            ((here.desc pfn).part packet here.remaining).length))) ∧
      ∀ left, Fills m.mem pfn (nextHead m.mem pfn) packet left →
        kind (.write (usedSlot pfn (usedIdx m.mem pfn)) 8) ∧
        kind (.write ((usedOffset pfn).toNat + 2) 2)) := by
  simp only [deliver, Traced.always_bind, readU16_returns, readU16_always, availIdx_eq,
    usedIdx_eq, RingEmpty]
  by_cases empty : availIdx m.mem pfn = usedIdx m.mem pfn
  · simp [empty]
  · cases fromTap <;>
      simp [-UInt16.toNat_mod, empty, sub_eq_zero_iff, logFirstDesc, scatter_returns,
        scatter_always, availSlot_eq, usedSlot_eq, availHead_eq, nextHead]

end Delivering

/-! ## What becomes of a packet -/

/-- The device after it dealt with a frame, unless that panics: a frame of 54
bytes is taken for TCP, and its header is read where the nibble at offset 14
puts it. -/
def afterFrame (dev : VirtioNetPci) (frame : List UInt8) : Option VirtioNetPci :=
  if 54 ≤ frame.length ∧ loggedTcpHeader frame = none then none else dev.intercept frame

theorem intercept_eq (dev : VirtioNetPci) (frame : List UInt8) : dev.intercept frame =
    if dev.tapFd.isSome then some dev
    else (if dev.synackPending.isNone then craftSynack frame else some dev.synackPending).map fun synack =>
      { dev with
        synackPending := synack
        arpReplyPending := if dev.arpReplyPending.isNone then arpReply frame else dev.arpReplyPending } := by
  unfold VirtioNetPci.intercept
  by_cases tap : dev.tapFd.isSome
  · simp [tap]
  · by_cases free : dev.synackPending.isNone
    · cases crafted : craftSynack frame <;> simp [tap, free]
    · simp [tap, free]

/-- A packet is a frame behind a header, or nothing at all. -/
def afterPacket (dev : VirtioNetPci) (packet : List UInt8) : Option VirtioNetPci :=
  if virtioNetHdrSize < packet.length then afterFrame dev (packet.drop virtioNetHdrSize) else some dev

/-- The frames a packet puts on the wire. -/
def wireFrames (dev : VirtioNetPci) (packet : List UInt8) : List (List UInt8) :=
  if dev.tapFd.isSome ∧ virtioNetHdrSize < packet.length then [packet.drop virtioNetHdrSize] else []

section Sending
variable {m t : Machine} {kind : Access → Prop} {packet frame : List UInt8} {u : Unit}

@[simp] theorem sendPacket_always : (sendPacket packet).Always kind m := by
  have quiet : (sendFrame (packet.drop virtioNetHdrSize)).Always kind m := by
    by_cases long : 54 ≤ (packet.drop virtioNetHdrSize).length <;> simp [sendFrame]
  simp [sendPacket, quiet]

@[simp] theorem sendPacket_terminates : (sendPacket packet).Terminates m := by
  have ends : (sendFrame (packet.drop virtioNetHdrSize)).Terminates m := by
    by_cases long : 54 ≤ (packet.drop virtioNetHdrSize).length <;> simp [sendFrame]
  simp [sendPacket, ends]

theorem sendFrame_returns : (sendFrame frame).Returns m u t ↔
    ∃ dev, afterFrame m.dev frame = some dev ∧
      { m with
        dev := dev
        tapWritten := m.tapWritten ++ if m.dev.tapFd.isSome then [frame] else [] } = t := by
  unfold sendFrame afterFrame
  by_cases long : 54 ≤ frame.length
  · cases logged : loggedTcpHeader frame with
    | none => simp [long]
    | some header => by_cases tap : m.dev.tapFd.isSome <;> simp [long, tap]
  · by_cases tap : m.dev.tapFd.isSome <;> simp [long, tap]

theorem sendPacket_returns : (sendPacket packet).Returns m u t ↔
    ∃ dev, afterPacket m.dev packet = some dev ∧
      { m with dev := dev, tapWritten := m.tapWritten ++ wireFrames m.dev packet } = t := by
  unfold sendPacket
  by_cases framed : virtioNetHdrSize < packet.length
  · simp only [framed, if_true, sendFrame_returns, afterPacket, wireFrames, and_true]
  · simp [framed, afterPacket, wireFrames]

end Sending

/-! ## One chain and one kick -/

/-- The machine behind one chain: its packet was dealt with and its used
element is in place. -/
def Machine.sent (m : Machine) (pfn : UInt64) (position : UInt16) (packet : List UInt8)
    (dev : VirtioNetPci) : Machine :=
  { m with
    dev := dev
    mem := m.mem.store (usedSlot pfn position) (usedElem (availHead m.mem pfn position) packet.length)
    tapWritten := m.tapWritten ++ wireFrames m.dev packet }

section Kicks
variable {mode : Overflow} {pfn : UInt64} {first : UInt16} {i left : Nat} {m t : Machine} {u : Unit}
  {kind : Access → Prop}

theorem txChains_returns : (txChains mode pfn first i (left + 1)).Returns m u t ↔
    ∃ position, mode.add16 first (.ofNat i) = some position ∧
      ∃ packet, Yields m.mem pfn (availHead m.mem pfn position) packet ∧
        ∃ dev, afterPacket m.dev packet = some dev ∧
          (txChains mode pfn first (i + 1) left).Returns (m.sent pfn position packet dev) u t := by
  simp [-UInt16.toNat_mod, txChains, gather_returns, sendPacket_returns, availSlot_eq, usedSlot_eq,
    availHead_eq, Machine.sent]

theorem txChains_always : (txChains mode pfn first i (left + 1)).Always kind m ↔
    ∀ position, mode.add16 first (.ofNat i) = some position →
      kind (.read (availSlot pfn position) 2) ∧
      (∀ here, Visits m.mem pfn (availHead m.mem pfn position) here →
        kind (.read (descOffset pfn here.1).toNat 16) ∧
          ((descAt m.mem pfn here.1).Readable →
            kind (.read (descAt m.mem pfn here.1).addr.toNat ((descAt m.mem pfn here.1).taken here.2)))) ∧
      ∀ packet, Yields m.mem pfn (availHead m.mem pfn position) packet →
        ∀ dev, afterPacket m.dev packet = some dev →
          kind (.write (usedSlot pfn position) 8) ∧
          (txChains mode pfn first (i + 1) left).Always kind (m.sent pfn position packet dev) := by
  simp [-UInt16.toNat_mod, txChains, gather_returns, gather_always, sendPacket_returns, availSlot_eq,
    usedSlot_eq, availHead_eq, Machine.sent]

theorem txChains_terminates : (txChains mode pfn first i (left + 1)).Terminates m ↔
    ∀ position, mode.add16 first (.ofNat i) = some position →
      (∃ packet, Yields m.mem pfn (availHead m.mem pfn position) packet) ∧
      ∀ packet, Yields m.mem pfn (availHead m.mem pfn position) packet →
        ∀ dev, afterPacket m.dev packet = some dev →
          (txChains mode pfn first (i + 1) left).Terminates (m.sent pfn position packet dev) := by
  simp [-UInt16.toNat_mod, txChains, gather_returns, gather_terminates, sendPacket_returns, availSlot_eq,
    usedSlot_eq, availHead_eq, Machine.sent]

/-- How many chains a kick finds. -/
def outstanding (mem : Memory) (pfn : UInt64) : Nat := (availIdx mem pfn - usedIdx mem pfn).toNat

/-- The machine when a kick has moved the used index on. -/
def Machine.kicked (m : Machine) (pfn : UInt64) (index : UInt16) : Machine :=
  { m with mem := m.mem.store ((usedOffset pfn).toNat + 2) (Memory.bytesLE 2 index.toNat) }

private theorem caught_up (a b : UInt16) : b + (a - b) = a := by
  rw [UInt16.add_comm, UInt16.sub_add_cancel]

theorem kick_returns : (handleQueueKick mode 1).Returns m u t ↔
    let pfn := m.dev.txPfn
    if pfn = 0 ∨ RingEmpty m.mem pfn then m = t
    else ∃ r, (txChains mode pfn (usedIdx m.mem pfn) 0 (outstanding m.mem pfn)).Returns m () r ∧
      r.kicked pfn (availIdx m.mem pfn) = t := by
  by_cases unset : m.dev.txPfn = 0
  · simp [handleQueueKick, unset]
  · by_cases empty : availIdx m.mem m.dev.txPfn = usedIdx m.mem m.dev.txPfn
    · simp [handleQueueKick, unset, availIdx_eq, usedIdx_eq, RingEmpty, empty]
    · simp [-UInt16.toNat_add, handleQueueKick, unset, availIdx_eq, usedIdx_eq, RingEmpty, empty,
        sub_eq_zero_iff, outstanding, Machine.kicked, caught_up, Unique.exists_iff]

theorem kick_always : (handleQueueKick mode 1).Always kind m ↔
    let pfn := m.dev.txPfn
    pfn ≠ 0 → kind (.read ((availOffset pfn).toNat + 2) 2) ∧ kind (.read ((usedOffset pfn).toNat + 2) 2) ∧
      (¬ RingEmpty m.mem pfn →
        (txChains mode pfn (usedIdx m.mem pfn) 0 (outstanding m.mem pfn)).Always kind m ∧
        ∀ r, (txChains mode pfn (usedIdx m.mem pfn) 0 (outstanding m.mem pfn)).Returns m () r →
          kind (.write ((usedOffset pfn).toNat + 2) 2)) := by
  by_cases unset : m.dev.txPfn = 0
  · simp [handleQueueKick, unset]
  · by_cases empty : availIdx m.mem m.dev.txPfn = usedIdx m.mem m.dev.txPfn
    · simp [handleQueueKick, unset, availIdx_eq, usedIdx_eq, RingEmpty, empty]
    · simp [-UInt16.toNat_add, handleQueueKick, unset, availIdx_eq, usedIdx_eq, RingEmpty, empty,
        sub_eq_zero_iff, outstanding, Unique.forall_iff]

theorem kick_terminates : (handleQueueKick mode 1).Terminates m ↔
    let pfn := m.dev.txPfn
    pfn ≠ 0 ∧ ¬ RingEmpty m.mem pfn →
      (txChains mode pfn (usedIdx m.mem pfn) 0 (outstanding m.mem pfn)).Terminates m := by
  by_cases unset : m.dev.txPfn = 0
  · simp [handleQueueKick, unset]
  · by_cases empty : availIdx m.mem m.dev.txPfn = usedIdx m.mem m.dev.txPfn
    · simp [handleQueueKick, unset, availIdx_eq, usedIdx_eq, RingEmpty, empty]
    · simp [handleQueueKick, unset, availIdx_eq, usedIdx_eq, RingEmpty, empty, sub_eq_zero_iff, outstanding]

/-- A kick of any other queue does nothing. -/
theorem kick_ignored {q : Nat} (other : q ≠ 1) : handleQueueKick mode q = pure () := by
  simp [handleQueueKick, other]

end Kicks

/-- What holds of every chain from the `i`-th on, in the state the kick finds
it in: the used elements of the chains before it are in place. A position that
overflows, a chain without an end and a frame that panics are the last things
that happen. -/
def ForChains (mode : Overflow) (pfn : UInt64) (first : UInt16)
    (holds : VirtioNetPci → Memory → UInt16 → Prop) : Nat → Nat → VirtioNetPci → Memory → Prop
  | _, 0, _, _ => True
  | i, left + 1, dev, mem => ∀ position, mode.add16 first (.ofNat i) = some position →
    holds dev mem position ∧
    ∀ packet, Yields mem pfn (availHead mem pfn position) packet →
      ∀ dev', afterPacket dev packet = some dev' →
        ForChains mode pfn first holds (i + 1) left dev'
          (mem.store (usedSlot pfn position) (usedElem (availHead mem pfn position) packet.length))

/-- The chains a kick of the transmission queue works through. -/
def ForKick (mode : Overflow) (holds : VirtioNetPci → Memory → UInt16 → Prop) (m : Machine) : Prop :=
  let pfn := m.dev.txPfn
  ForChains mode pfn (usedIdx m.mem pfn) holds 0 (outstanding m.mem pfn) m.dev m.mem

/-- What holds of every packet of a queue that is received, in the memory the
device finds when it turns to it. -/
def ForDeliveries (pfn : UInt64) (holds : Memory → List UInt8 → Bool → Prop) :
    List (List UInt8 × Bool) → Memory → Prop
  | [], _ => True
  | (packet, fromTap) :: rest, mem =>
    holds mem packet fromTap ∧
    if RingEmpty mem pfn then ForDeliveries pfn holds rest mem
    else ∀ left, Fills mem pfn (nextHead mem pfn) packet left →
      ForDeliveries pfn holds rest (completed mem pfn packet left)

/-- The packets a poll turns to: the pending replies, then the frames it reads
from the TAP device up to the first read that brings none, less IPv6. -/
def pendingQueue (reply : Option (List UInt8)) : List (List UInt8 × Bool) :=
  reply.toList.map fun packet => (packet, false)

def readFrame (incoming : List UInt8) : List UInt8 := incoming.take (maxPacketSize - virtioNetHdrSize)

def framePacket (frame : List UInt8) : List UInt8 := List.replicate virtioNetHdrSize 0 ++ frame

def frameQueue : List (List UInt8) → List (List UInt8 × Bool)
  | [] => []
  | incoming :: rest =>
    let frame := readFrame incoming
    if frame = [] then []
    else if isIpv6 frame then frameQueue rest
    else (framePacket frame, true) :: frameQueue rest

def rxQueue (m : Machine) : List (List UInt8 × Bool) :=
  pendingQueue m.dev.synackPending ++ pendingQueue m.dev.arpReplyPending ++
    if m.dev.tapFd.isSome then frameQueue m.tapIncoming else []

/-- The accesses of one delivery. -/
def DeliveryAlways (kind : Access → Prop) (pfn : UInt64) (mem : Memory) (packet : List UInt8)
    (fromTap : Bool) : Prop :=
  kind (.read ((availOffset pfn).toNat + 2) 2) ∧ kind (.read ((usedOffset pfn).toNat + 2) 2) ∧
  (¬ RingEmpty mem pfn →
    kind (.read (availSlot pfn (usedIdx mem pfn)) 2) ∧
    (fromTap → kind (.read (descOffset pfn (nextHead mem pfn)).toNat 16)) ∧
    (∀ here, FillPoint.Visits mem pfn (nextHead mem pfn) packet here → here.Active →
      kind (.read (descOffset pfn here.d).toNat 16) ∧
      (¬ (here.desc pfn).Readable →
        kind (.write (here.desc pfn).addr.toNat ((here.desc pfn).part packet here.remaining).length))) ∧
    ∀ left, Fills mem pfn (nextHead mem pfn) packet left →
      kind (.write (usedSlot pfn (usedIdx mem pfn)) 8) ∧ kind (.write ((usedOffset pfn).toNat + 2) 2))

theorem txChains_iff {mode : Overflow} {pfn : UInt64} {first : UInt16}
    (property : Guest Unit → Machine → Prop) {holds : VirtioNetPci → Memory → UInt16 → Prop}
    (stop : ∀ i m, property (txChains mode pfn first i 0) m)
    (step : ∀ i left m, property (txChains mode pfn first i (left + 1)) m ↔
      ∀ position, mode.add16 first (.ofNat i) = some position → holds m.dev m.mem position ∧
        ∀ packet, Yields m.mem pfn (availHead m.mem pfn position) packet →
          ∀ dev, afterPacket m.dev packet = some dev →
            property (txChains mode pfn first (i + 1) left) (m.sent pfn position packet dev))
    {i left : Nat} {m : Machine} :
    property (txChains mode pfn first i left) m ↔ ForChains mode pfn first holds i left m.dev m.mem := by
  induction left generalizing i m with
  | zero => simp [stop, ForChains]
  | succ left ih => simp only [step, ForChains, ih, Machine.sent]

section Polls
variable {pfn : UInt64} {m : Machine} {holds : Memory → List UInt8 → Bool → Prop}
  {property : {α : Type} → Guest α → Machine → Prop}

/-- A ring that is empty stays empty, and every packet finds it so. -/
theorem forDeliveries_empty {mem : Memory} (empty : RingEmpty mem pfn)
    (always : ∀ packet fromTap, holds mem packet fromTap) (queue : List (List UInt8 × Bool)) :
    ForDeliveries pfn holds queue mem := by
  induction queue with
  | nil => trivial
  | cons next rest ih =>
    obtain ⟨packet, fromTap⟩ := next
    simp only [ForDeliveries, if_pos empty]
    exact ⟨always packet fromTap, ih⟩

/-- A property of deliveries that depends on the memory they find, and that an
empty ring gives to every packet or to none. -/
structure OfMemory (pfn : UInt64) (property : {α : Type} → Guest α → Machine → Prop)
    (holds : Memory → List UInt8 → Bool → Prop) : Prop where
  deliver : ∀ m packet fromTap, property (deliver pfn packet fromTap) m ↔ holds m.mem packet fromTap
  still : ∀ mem packet fromTap, RingEmpty mem pfn → holds mem packet fromTap →
    ∀ packet' fromTap', holds mem packet' fromTap'

theorem deliver_then (pervasive : Traced.Pervasive property) (ofMemory : OfMemory pfn property holds)
    {packet : List UInt8} {fromTap : Bool} {β : Type} {next : Bool → Guest β} :
    property (deliver pfn packet fromTap >>= next) m ↔ holds m.mem packet fromTap ∧
      if RingEmpty m.mem pfn then property (next false) m
      else ∀ left, Fills m.mem pfn (nextHead m.mem pfn) packet left →
        property (next true) (m.delivered pfn packet left) := by
  rw [pervasive.bind, ofMemory.deliver]
  simp only [deliver_returns]
  by_cases empty : RingEmpty m.mem pfn
  · simp [empty]
  · simp only [if_neg empty]
    constructor
    · rintro ⟨found, later⟩
      exact ⟨found, fun left fills => later true _ ⟨rfl, left, fills, rfl⟩⟩
    · rintro ⟨found, later⟩
      refine ⟨found, ?_⟩
      rintro _ _ ⟨rfl, left, fills, rfl⟩
      exact later left fills

theorem rxFrames_iff (pervasive : Traced.Pervasive property) (ofMemory : OfMemory pfn property holds)
    {incoming : List (List UInt8)} :
    property (rxFrames pfn incoming) m ↔ ForDeliveries pfn holds (frameQueue incoming) m.mem := by
  induction incoming generalizing m with
  | nil => simp [rxFrames, frameQueue, ForDeliveries, pervasive.pure]
  | cons incoming rest ih =>
    rw [rxFrames, frameQueue, pervasive.bind]
    simp only [pervasive.modify, true_and, Traced.modify_returns, forall_const, forall_eq', readFrame]
    by_cases nothing : incoming.take (maxPacketSize - virtioNetHdrSize) = []
    · simp [nothing, pervasive.pure, ForDeliveries]
    · by_cases ipv6 : isIpv6 (incoming.take (maxPacketSize - virtioNetHdrSize))
      · simp only [nothing, ipv6, if_false, if_true, ih]
      · simp only [nothing, ipv6, if_false, deliver_then pervasive ofMemory, ForDeliveries, if_true,
          Bool.false_eq_true, pervasive.pure, framePacket]
        by_cases empty : RingEmpty m.mem pfn
        · simp only [empty, if_true, and_true]
          constructor
          · intro found
            exact ⟨found, forDeliveries_empty empty (ofMemory.still _ _ _ empty found) _⟩
          · exact And.left
        · simp only [empty, if_false, ih, Machine.delivered]

private theorem deliverPending_then (pervasive : Traced.Pervasive property)
    (ofMemory : OfMemory pfn property holds) (queue : Machine → List (List UInt8 × Bool))
    (same : ∀ m packet left, queue (m.delivered pfn packet left) = queue m) {next : Unit → Guest Unit}
    (later : ∀ m, property (next ()) m ↔ ForDeliveries pfn holds (queue m) m.mem)
    (reply : Option (List UInt8)) :
    property (deliverPending pfn reply >>= next) m ↔
      ForDeliveries pfn holds (pendingQueue reply ++ queue m) m.mem := by
  rw [pervasive.bind]
  cases reply with
  | none => simp [deliverPending, pervasive.pure, pendingQueue, later]
  | some packet =>
    rw [deliverPending, deliver_then pervasive ofMemory]
    simp only [Traced.bind_returns, deliver_returns, Traced.pure_returns, pendingQueue,
      Option.toList_some, List.map_cons, List.map_nil, List.singleton_append, ForDeliveries, pervasive.pure]
    by_cases empty : RingEmpty m.mem pfn
    · simp [empty, later]
    · simp only [empty, if_false, later]
      constructor
      · rintro ⟨⟨found, _⟩, each⟩
        refine ⟨found, fun left fills => ?_⟩
        rw [← same m packet left]
        exact each () _ ⟨true, _, ⟨rfl, left, fills, rfl⟩, trivial, rfl⟩
      · rintro ⟨found, each⟩
        refine ⟨⟨found, fun _ _ => trivial⟩, ?_⟩
        rintro _ _ ⟨_, _, ⟨_, left, fills, rfl⟩, _, rfl⟩
        rw [same]
        exact each left fills

theorem tryRx_iff (pervasive : Traced.Pervasive property)
    (ofMemory : OfMemory m.dev.rxPfn property holds) :
    property tryRx m ↔ (m.dev.rxPfn ≠ 0 →
      ForDeliveries m.dev.rxPfn holds (rxQueue m) m.mem) := by
  unfold tryRx
  rw [pervasive.get_then]
  by_cases unset : m.dev.rxPfn = 0
  · simp [pervasive.pure, unset]
  · rw [if_neg unset]
    simp only [modifyDev, pervasive.get_then, pervasive.modify_then, ne_eq, unset, not_false_iff, forall_const]
    rw [deliverPending_then pervasive ofMemory (fun r => pendingQueue r.dev.arpReplyPending ++
      if r.dev.tapFd.isSome then frameQueue r.tapIncoming else []) (fun _ _ _ => rfl), rxQueue, List.append_assoc]
    intro r
    simp only [pervasive.get_then, pervasive.modify_then]
    rw [deliverPending_then pervasive ofMemory
      (fun r => if r.dev.tapFd.isSome then frameQueue r.tapIncoming else []) (fun _ _ _ => rfl)]
    intro r'
    rw [pervasive.get_then]
    by_cases tap : r'.dev.tapFd.isSome
    · simp only [tap, if_true, pervasive.get_then]
      exact rxFrames_iff pervasive ofMemory
    · simp [tap, pervasive.pure, ForDeliveries]

end Polls

/-- The machine when a poll has taken a pending reply. -/
def Machine.tookSynack (m : Machine) : Machine := { m with dev := { m.dev with synackPending := none } }
def Machine.tookArp (m : Machine) : Machine := { m with dev := { m.dev with arpReplyPending := none } }

theorem tryRx_returns {m t : Machine} {u : Unit} : tryRx.Returns m u t ↔
    let pfn := m.dev.rxPfn
    if pfn = 0 then m = t
    else ∃ r r', (deliverPending pfn m.dev.synackPending).Returns m.tookSynack () r ∧
      (deliverPending pfn r.dev.arpReplyPending).Returns r.tookArp () r' ∧
      if r'.dev.tapFd.isSome then (rxFrames pfn r'.tapIncoming).Returns r' u t else r' = t := by
  by_cases unset : m.dev.rxPfn = 0
  · simp [tryRx, unset]
  · simp only [tryRx, Traced.bind_returns, Traced.get_returns, and_assoc, exists_and_left, exists_eq_left',
      unset, if_false, modifyDev_returns, Unique.exists_iff, Machine.tookSynack, Machine.tookArp,
      Traced.ite_returns, Traced.pure_returns, PUnit.default_eq_unit, true_and]

/-! ## Where the rings lie -/

/-- Page frame numbers come from a 32-bit register. -/
def Programmed (pfn : UInt64) : Prop := ∃ val : UInt32, pfn = val.toUInt64 <<< 12

theorem Programmed.zero : Programmed 0 := ⟨0, rfl⟩

theorem programmed_toNat {pfn : UInt64} (programmed : Programmed pfn) :
    ∃ page, pfn.toNat = 4096 * page ∧ page < 2 ^ 32 := by
  obtain ⟨val, rfl⟩ := programmed
  refine ⟨val.toNat, ?_, val.toNat_lt⟩
  have bound := val.toNat_lt
  rw [UInt64.toNat_shiftLeft, UInt32.toNat_toUInt64, show UInt64.toNat 12 % 64 = 12 by decide,
    Nat.shiftLeft_eq]
  omega

/-- Clearing the low twelve bits rounds down to a page. -/
theorem toNat_page (x : UInt64) : (x &&& ~~~ 4095).toNat = x.toNat / 4096 * 4096 :=
  toNat_clear_low (k := 12) (by decide) (by decide) x

section Geometry
variable {pfn : UInt64}

theorem availOffset_toNat (programmed : Programmed pfn) :
    (availOffset pfn).toNat = pfn.toNat + 4096 := by
  obtain ⟨page, value, bound⟩ := programmed_toNat programmed
  rw [availOffset, UInt64.toNat_add, show (queueSize.toUInt64 * 16).toNat = 4096 by decide]
  omega

theorem usedOffset_toNat (programmed : Programmed pfn) :
    (usedOffset pfn).toNat = pfn.toNat + 8192 := by
  obtain ⟨page, value, bound⟩ := programmed_toNat programmed
  have sum : (pfn + queueSize.toUInt64 * 16 + (6 + queueSize.toUInt64 * 2) + 4095).toNat =
      pfn.toNat + 8709 := by
    simp only [UInt64.toNat_add, show (queueSize.toUInt64 * 16).toNat = 4096 by decide,
      show (queueSize.toUInt64 * 2).toNat = 512 by decide, UInt64.reduceToNat]
    omega
  rw [usedOffset, toNat_page, sum]
  omega

theorem descOffset_toNat (programmed : Programmed pfn) (d : UInt16) :
    (descOffset pfn d).toNat = pfn.toNat + 16 * d.toNat := by
  obtain ⟨page, value, bound⟩ := programmed_toNat programmed
  have small := d.toNat_lt
  rw [descOffset, UInt64.toNat_add, UInt64.toNat_mul, UInt16.toNat_toUInt64]
  simp only [UInt64.reduceToNat]
  omega

end Geometry

theorem slot_lt (position : UInt16) : (position % queueSize).toNat < 256 := by
  rw [UInt16.toNat_mod]
  exact Nat.mod_lt _ (by decide)

end TinyMachine.VirtioNet
