import TinyMachine.VirtioNetProofs
import TinyMachine.Lib.Runs

/-! Runs of the device: the guest rewrites its memory, accesses registers and
kicks queues in any order, and the vCPU loop polls for received frames. -/
namespace TinyMachine.VirtioNet
open Lib

inductive DeviceOp where
  | guestWrites (mem : Memory)
  | mmioRead (offset : UInt32)
  | mmioWrite (offset val : UInt32)
  | tryRx
  | setTapFd (fd : Int32)
  | tapReceives (frames : List (List UInt8))

/-- The value is that of a register read. -/
def DeviceOp.run (mode : Overflow) : DeviceOp → Guest UInt32
  | guestWrites mem => do
    Traced.modify fun m => { m with mem := mem }
    return 0
  | mmioRead offset => do
    let (val, dev) := (← Traced.get).dev.mmioRead offset
    modifyDev fun _ => dev
    return val
  | mmioWrite offset val => do
    VirtioNet.mmioWrite mode offset val
    return 0
  | tryRx => do
    VirtioNet.tryRx
    return 0
  | setTapFd fd => do
    modifyDev fun dev => dev.setTapFd fd
    return 0
  | tapReceives frames => do
    Traced.modify fun m => { m with tapIncoming := m.tapIncoming ++ frames }
    return 0

/-- A device as the VM builds it, over whatever memory the guest was given. -/
def Fresh (m : Machine) : Prop := ∃ mmioBase, m.dev = .new mmioBase

def deviceRuns (mode : Overflow) : System Machine DeviceOp where
  start := Fresh
  step m op t := ∃ val, (op.run mode).Returns m val t

/-- Any sequence of operations leads here. -/
def Reachable (mode : Overflow) (m : Machine) : Prop := (deviceRuns mode).Reached (fun _ _ => True) m

/-! ## What a step does -/

/-- The device after a register write that is no kick. -/
def VirtioNetPci.written (dev : VirtioNetPci) (offset val : UInt32) : VirtioNetPci :=
  match offset.toNat with
  | 0x04 => { dev with guestFeatures := val &&& dev.deviceFeatures }
  | 0x08 =>
    if valid : dev.selectedQueue.toNat < 2 then
      { dev with queuePfns := dev.queuePfns.set dev.selectedQueue.toNat (val.toUInt64 <<< 12) }
    else dev
  | 0x0E => { dev with selectedQueue := val }
  | 0x12 =>
    let dev := { dev with status := val.toUInt8 }
    if dev.status = 0 then dev.reset else dev
  | 0x13 => { dev with isr := 0, intrPending := false }
  | _ => dev

/-- A register write is a kick of a queue that is set, or changes the device. -/
theorem mmioWrite_returns {mode : Overflow} {offset val : UInt32} {m t : Machine} {u : Unit} :
    (mmioWrite mode offset val).Returns m u t ↔
      if offset.toNat = 0x10 ∧ ∃ valid : val.toNat < 2, m.dev.queuePfns[val.toNat] ≠ 0 then
        (handleQueueKick mode val.toNat).Returns m u t
      else { m with dev := m.dev.written offset val } = t := by
  unfold mmioWrite VirtioNetPci.written
  generalize offset.toNat = place
  split
  case h_4 =>
    by_cases valid : val.toNat < 2
    · by_cases set : m.dev.queuePfns[val.toNat] = 0
      · simp [valid, set]
      · simp [valid, set]
    · simp [valid]
  case h_7 elsewhere =>
    have other : ¬ place = 0x10 := by assumption
    simp [other]
  all_goals simp

/-- What an operation does to the machine. -/
def DeviceOp.Leads (mode : Overflow) (op : DeviceOp) (m t : Machine) : Prop :=
  match op with
  | .guestWrites mem => { m with mem := mem } = t
  | .mmioRead offset => { m with dev := (m.dev.mmioRead offset).2 } = t
  | .mmioWrite offset val => (VirtioNet.mmioWrite mode offset val).Returns m () t
  | .tryRx => VirtioNet.tryRx.Returns m () t
  | .setTapFd fd => { m with dev := m.dev.setTapFd fd } = t
  | .tapReceives frames => { m with tapIncoming := m.tapIncoming ++ frames } = t

theorem leads_iff {mode : Overflow} {op : DeviceOp} {m t : Machine} :
    (∃ val, (op.run mode).Returns m val t) ↔ op.Leads mode m t := by
  cases op <;> simp [DeviceOp.run, DeviceOp.Leads, Unique.exists_iff]

/-- A property of the device that no part of an operation touches. -/
structure Lasting (mode : Overflow) (holds : VirtioNetPci → Prop) : Prop where
  fresh : ∀ mmioBase, holds (.new mmioBase)
  read : ∀ dev offset, holds dev → holds (dev.mmioRead offset).2
  written : ∀ dev offset val, holds dev → holds (dev.written offset val)
  packet : ∀ dev packet dev', holds dev → afterPacket dev packet = some dev' → holds dev'
  raised : ∀ dev isr, holds dev → holds { dev with isr := isr }
  tookSynack : ∀ dev, holds dev → holds { dev with synackPending := none }
  tookArp : ∀ dev, holds dev → holds { dev with arpReplyPending := none }
  attached : ∀ dev fd, holds dev → holds (dev.setTapFd fd)

section Keeping
variable {mode : Overflow} {pfn : UInt64} {holds : VirtioNetPci → Prop}

theorem modify_keeps {holds : Machine → Prop} {change : Machine → Machine} (same : ∀ m, holds m → holds (change m)) :
    (Traced.modify change : Guest Unit).Keeps holds := by
  intro s _ t before returned
  rw [Traced.modify_returns] at returned
  exact returned ▸ same s before

theorem txChains_keeps
    (packets : ∀ dev packet dev', holds dev → afterPacket dev packet = some dev' → holds dev')
    (first : UInt16) (i left : Nat) : (txChains mode pfn first i left).Keeps fun m => holds m.dev := by
  induction left generalizing i with
  | zero => exact .pure _
  | succ left ih =>
    intro m _ t before returned
    obtain ⟨position, _, packet, _, dev, after, rest⟩ := txChains_returns.mp returned
    exact ih (i + 1) (m.sent pfn position packet dev) _ t (packets m.dev packet dev before after) rest

theorem kick_keeps
    (packets : ∀ dev packet dev', holds dev → afterPacket dev packet = some dev' → holds dev') (q : Nat) :
    (handleQueueKick mode q).Keeps fun m => holds m.dev := by
  intro m _ t before returned
  by_cases tx : q = 1
  · subst tx
    have split := kick_returns.mp returned
    by_cases idle : m.dev.txPfn = 0 ∨ RingEmpty m.mem m.dev.txPfn
    · rw [if_pos idle] at split
      exact split ▸ before
    · rw [if_neg idle] at split
      obtain ⟨r, sent, rfl⟩ := split
      have kept : holds r.dev := txChains_keeps packets _ _ _ m _ r before sent
      exact kept
  · rw [kick_ignored tx, Traced.pure_returns] at returned
    exact returned.2 ▸ before

theorem deliver_keeps (lasting : Lasting mode holds) (packet : List UInt8) (fromTap : Bool) :
    (deliver pfn packet fromTap).Keeps fun m => holds m.dev := by
  intro m _ t before returned
  have split := deliver_returns.mp returned
  by_cases empty : RingEmpty m.mem pfn
  · rw [if_pos empty] at split
    exact split.2 ▸ before
  · rw [if_neg empty] at split
    obtain ⟨_, left, _, rfl⟩ := split
    exact lasting.raised m.dev _ before

theorem rxFrames_keeps {holds : Machine → Prop}
    (delivery : ∀ packet fromTap, (deliver pfn packet fromTap).Keeps holds)
    (input : ∀ m rest, holds m → holds { m with tapIncoming := rest }) (incoming : List (List UInt8)) :
    (rxFrames pfn incoming).Keeps holds := by
  induction incoming with
  | nil => exact .pure _
  | cons incoming rest ih =>
    unfold rxFrames
    refine .bind (modify_keeps fun m before => input m rest before) fun _ => ?_
    refine .ite (.pure _) (.ite ih (.bind (delivery _ _) fun _ => .ite ih (.pure _)))

theorem deliverPending_keeps {holds : Machine → Prop}
    (delivery : ∀ packet fromTap, (deliver pfn packet fromTap).Keeps holds) (reply : Option (List UInt8)) :
    (deliverPending pfn reply).Keeps holds := by
  cases reply with
  | none => exact .pure _
  | some packet => exact .bind (delivery _ _) fun _ => .pure _

theorem tryRx_keeps (lasting : Lasting mode holds) : tryRx.Keeps fun m => holds m.dev := by
  have delivery (pfn : UInt64) := @deliver_keeps mode pfn holds lasting
  unfold tryRx
  refine .bind .get fun _ => .ite (.pure _) ?_
  refine .bind .get fun _ => .bind (modify_keeps fun m before => lasting.tookSynack m.dev before) fun _ => ?_
  refine .bind (deliverPending_keeps (delivery _) _) fun _ => .bind .get fun _ => ?_
  refine .bind (modify_keeps fun m before => lasting.tookArp m.dev before) fun _ => ?_
  refine .bind (deliverPending_keeps (delivery _) _) fun _ => ?_
  exact .bind .get fun _ => .ite (.bind .get fun _ => rxFrames_keeps (delivery _) (fun _ _ same => same) _) (.pure _)

theorem mmioWrite_keeps (lasting : Lasting mode holds) (offset val : UInt32) :
    (mmioWrite mode offset val).Keeps fun m => holds m.dev := by
  intro m _ t before returned
  have split := mmioWrite_returns.mp returned
  by_cases kick : offset.toNat = 0x10 ∧ ∃ valid : val.toNat < 2, m.dev.queuePfns[val.toNat] ≠ 0
  · rw [if_pos kick] at split
    exact kick_keeps lasting.packet _ m _ t before split
  · rw [if_neg kick] at split
    exact split ▸ lasting.written m.dev offset val before

theorem leads_keeps (lasting : Lasting mode holds) {op : DeviceOp} {m t : Machine} (before : holds m.dev)
    (leads : op.Leads mode m t) : holds t.dev := by
  cases op with
  | guestWrites mem => exact leads ▸ before
  | mmioRead offset => exact leads ▸ lasting.read m.dev offset before
  | mmioWrite offset val => exact mmioWrite_keeps lasting offset val m _ t before leads
  | tryRx => exact tryRx_keeps lasting m _ t before leads
  | setTapFd fd => exact leads ▸ lasting.attached m.dev fd before
  | tapReceives frames => exact leads ▸ before

/-- A lasting property holds of the device wherever a run leads. -/
theorem Reachable.lasting {m : Machine} (reachable : Reachable mode m) (lasting : Lasting mode holds) :
    holds m.dev := by
  refine @System.Reached.invariant _ _ _ _ (fun m => holds m.dev) m reachable ?_ ?_
  · rintro m ⟨mmioBase, fresh⟩
    exact fresh ▸ lasting.fresh mmioBase
  · rintro m op t before - step
    exact leads_keeps lasting before (leads_iff.mp step)

end Keeping

section Registers
variable {dev dev' : VirtioNetPci} {packet : List UInt8}

/-- Dealing with a packet changes nothing but the pending replies. -/
theorem afterPacket_registers (after : afterPacket dev packet = some dev') :
    ∃ synack arp, dev' = { dev with synackPending := synack, arpReplyPending := arp } := by
  unfold afterPacket at after
  split at after
  · unfold afterFrame at after
    split at after
    · cases after
    · rw [intercept_eq] at after
      split at after
      · cases after
        exact ⟨_, _, rfl⟩
      · obtain ⟨synack, _, rfl⟩ := Option.map_eq_some_iff.mp after
        exact ⟨_, _, rfl⟩
  · cases after
    exact ⟨_, _, rfl⟩

/-- Reading a register changes nothing but what is raised. -/
theorem mmioRead_registers (dev : VirtioNetPci) (offset : UInt32) :
    ∃ isr intr, (dev.mmioRead offset).2 = { dev with isr := isr, intrPending := intr } := by
  unfold VirtioNetPci.mmioRead
  simp only
  split <;> exact ⟨_, _, rfl⟩

end Registers

/-! ## Page frame numbers -/

/-- Both queues are where a register write put them, or unset. -/
def QueuesProgrammed (m : Machine) : Prop := ∀ (q : Nat) (valid : q < 2), Programmed m.dev.queuePfns[q]

private theorem unset_programmed : ∀ (q : Nat) (valid : q < 2), Programmed (#v[0, 0] : Vector UInt64 2)[q] := by
  intro q valid
  have zero : (#v[0, 0] : Vector UInt64 2)[q] = 0 := by
    match q, valid with
    | 0, _ => rfl
    | 1, _ => rfl
  rw [zero]
  exact .zero

private theorem written_programmed {dev : VirtioNetPci} (offset val : UInt32)
    (programmed : ∀ (q : Nat) (valid : q < 2), Programmed dev.queuePfns[q]) :
    ∀ (q : Nat) (valid : q < 2), Programmed (dev.written offset val).queuePfns[q] := by
  unfold VirtioNetPci.written
  split
  case h_2 =>
    split
    · intro q valid
      rw [Vector.getElem_set]
      split
      · exact ⟨val, rfl⟩
      · exact programmed q valid
    · exact programmed
  case h_4 =>
    simp only
    split
    · exact unset_programmed
    · exact programmed
  all_goals exact programmed

/-- The queues of a device that was reached lie where register writes put them. -/
theorem reachable_programmed {mode : Overflow} {m : Machine} (reachable : Reachable mode m) :
    QueuesProgrammed m := by
  refine @Reachable.lasting mode (fun dev => ∀ (q : Nat) (valid : q < 2), Programmed dev.queuePfns[q]) m reachable ?_
  refine ⟨fun _ => unset_programmed, fun dev offset programmed => ?_, fun dev offset val programmed => ?_,
    fun dev packet dev' programmed after => ?_, fun _ _ same => same, fun _ same => same, fun _ same => same,
    fun _ _ same => same⟩
  · obtain ⟨isr, intr, same⟩ := mmioRead_registers dev offset
    exact same ▸ programmed
  · exact written_programmed offset val programmed
  · obtain ⟨synack, arp, rfl⟩ := afterPacket_registers after
    exact programmed

end TinyMachine.VirtioNet
