import TinyMachine.VirtioSnapshot
import TinyMachine.Lib.Ledger

/-! The frames the device is responsible for: a reply it crafted, from the
kick that made it craft it, and a frame it read from the TAP device, from that
read. A ledger beside the machine follows what was taken and what the
reception ring was given. -/
namespace TinyMachine.VirtioNet
open Lib

abbrev Frames := Ledger (List UInt8)

/-- The replies the device holds, in the order a poll turns to them. -/
def VirtioNetPci.held (dev : VirtioNetPci) : List (List UInt8) :=
  dev.synackPending.toList ++ dev.arpReplyPending.toList

/-- The replies that are held now and were not before. -/
def newlyHeld (before after : VirtioNetPci) : List (List UInt8) :=
  (if before.synackPending = none then after.synackPending.toList else []) ++
    if before.arpReplyPending = none then after.arpReplyPending.toList else []

/-! ## Records of the operations -/

/-- The loop over the chains that are sent, with the replies it takes. -/
def ChainsTake (mode : Overflow) (pfn : UInt64) (first : UInt16) :
    Nat → Nat → Machine → List (List UInt8) → Machine → Prop
  | _, 0, m, taken, t => taken = [] ∧ m = t
  | i, left + 1, m, taken, t => ∃ position, mode.add16 first (.ofNat i) = some position ∧
    ∃ packet, Yields m.mem pfn (availHead m.mem pfn position) packet ∧
      ∃ dev, afterPacket m.dev packet = some dev ∧
        ∃ later, ChainsTake mode pfn first (i + 1) left (m.sent pfn position packet dev) later t ∧
          taken = newlyHeld m.dev dev ++ later

/-- A kick, with the replies it takes. -/
def KickTakes (mode : Overflow) (m : Machine) (taken : List (List UInt8)) (t : Machine) : Prop :=
  let pfn := m.dev.txPfn
  if pfn = 0 ∨ RingEmpty m.mem pfn then taken = [] ∧ m = t
  else ∃ r, ChainsTake mode pfn (usedIdx m.mem pfn) 0 (outstanding m.mem pfn) m taken r ∧
    r.kicked pfn (availIdx m.mem pfn) = t

/-- A delivery, with what the ring was given of the packet. -/
def DeliveryPasses (pfn : UInt64) (packet : List UInt8) (m : Machine) (passed : List (List UInt8))
    (t : Machine) : Prop :=
  if RingEmpty m.mem pfn then passed = [] ∧ m = t
  else ∃ left, Fills m.mem pfn (nextHead m.mem pfn) packet left ∧ m.delivered pfn packet left = t ∧
    passed = [packet.take (packet.length - left.1)]

def PendingPasses (pfn : UInt64) (reply : Option (List UInt8)) (m : Machine) (passed : List (List UInt8))
    (t : Machine) : Prop :=
  match reply with
  | none => passed = [] ∧ m = t
  | some packet => DeliveryPasses pfn packet m passed t

/-- The loop over the TAP device. Every frame it does not skip is taken. -/
def FramesMove (pfn : UInt64) : List (List UInt8) → Machine → Frames → Machine → Prop
  | [], m, record, t => record = .empty ∧ m = t
  | incoming :: rest, m, record, t =>
    let frame := readFrame incoming
    let r := { m with tapIncoming := rest }
    if frame = [] then record = .empty ∧ r = t
    else if isIpv6 frame then FramesMove pfn rest r record t
    else ∃ r' passed, DeliveryPasses pfn (framePacket frame) r passed r' ∧
      ∃ later, (if RingEmpty r.mem pfn then later = .empty ∧ r' = t else FramesMove pfn rest r' later t) ∧
        record = Ledger.plus ⟨[framePacket frame], passed⟩ later

def PollMoves (m : Machine) (record : Frames) (t : Machine) : Prop :=
  let pfn := m.dev.rxPfn
  if pfn = 0 then record = .empty ∧ m = t
  else ∃ r r' synack arp, PendingPasses pfn m.dev.synackPending m.tookSynack synack r ∧
    PendingPasses pfn r.dev.arpReplyPending r.tookArp arp r' ∧
    ∃ later, (if r'.dev.tapFd.isSome then FramesMove pfn r'.tapIncoming r' later t
        else later = .empty ∧ r' = t) ∧
      record = Ledger.plus ⟨[], synack ++ arp⟩ later

/-- An operation of the machine, with its record. -/
def DeviceOp.Moves (mode : Overflow) (op : DeviceOp) (m : Machine) (record : Frames) (t : Machine) : Prop :=
  match op with
  | .tryRx => PollMoves m record t
  | .mmioWrite offset val =>
    if offset = 0x10 ∧ val = 1 then record.passed = [] ∧ KickTakes mode m record.taken t
    else record = .empty ∧ ∃ o, (op.run mode).Returns m o t
  | op => record = .empty ∧ ∃ o, (op.run mode).Returns m o t

/-- The runs of the device with a ledger beside the machine. -/
def ledgerRuns (mode : Overflow) : System (Machine × Frames) DeviceOp where
  start s := Fresh s.1 ∧ s.2 = .empty
  step s op s' := ∃ record, op.Moves mode s.1 record s'.1 ∧ s'.2 = s.2.plus record

section Records
variable {mode : Overflow} {pfn : UInt64} {m t : Machine} {u : Unit}

private theorem chainsTake_iff {first : UInt16} {i left : Nat} :
    (∃ taken, ChainsTake mode pfn first i left m taken t) ↔
      (txChains mode pfn first i left).Returns m () t := by
  induction left generalizing i m with
  | zero => simp [ChainsTake, txChains]
  | succ left ih =>
    rw [txChains_returns]
    constructor
    · rintro ⟨_, position, added, packet, yields, dev, after, later, rest, rfl⟩
      exact ⟨position, added, packet, yields, dev, after, ih.mp ⟨later, rest⟩⟩
    · rintro ⟨position, added, packet, yields, dev, after, rest⟩
      obtain ⟨later, rest⟩ := ih.mpr rest
      exact ⟨_, position, added, packet, yields, dev, after, later, rest, rfl⟩

theorem kickTakes_iff : (∃ taken, KickTakes mode m taken t) ↔ (handleQueueKick mode 1).Returns m () t := by
  rw [kick_returns]
  by_cases idle : m.dev.txPfn = 0 ∨ RingEmpty m.mem m.dev.txPfn
  · simp [KickTakes, idle]
  · simp only [KickTakes, idle, if_false, ← chainsTake_iff]
    constructor
    · rintro ⟨taken, r, chains, ended⟩
      exact ⟨r, ⟨taken, chains⟩, ended⟩
    · rintro ⟨r, ⟨taken, chains⟩, ended⟩
      exact ⟨taken, r, chains, ended⟩

private theorem deliveryPasses_iff {packet : List UInt8} {fromTap ok : Bool} :
    (deliver pfn packet fromTap).Returns m ok t ↔
      (ok = true ↔ ¬ RingEmpty m.mem pfn) ∧ ∃ passed, DeliveryPasses pfn packet m passed t := by
  rw [deliver_returns]
  by_cases empty : RingEmpty m.mem pfn
  · simp [DeliveryPasses, empty]
  · simp [DeliveryPasses, empty]

private theorem pendingPasses_iff {reply : Option (List UInt8)} :
    (∃ passed, PendingPasses pfn reply m passed t) ↔ (deliverPending pfn reply).Returns m () t := by
  cases reply with
  | none => simp [PendingPasses, deliverPending]
  | some packet => simp [PendingPasses, deliverPending, deliveryPasses_iff, em]

private theorem framesMove_iff {incoming : List (List UInt8)} :
    (∃ record, FramesMove pfn incoming m record t) ↔ (rxFrames pfn incoming).Returns m () t := by
  induction incoming generalizing m with
  | nil => simp [FramesMove, rxFrames]
  | cons incoming rest ih =>
    simp only [FramesMove, rxFrames, readFrame, Traced.bind_returns, Traced.modify_returns]
    by_cases nothing : incoming.take (maxPacketSize - virtioNetHdrSize) = []
    · simp [nothing]
    · by_cases ipv6 : isIpv6 (incoming.take (maxPacketSize - virtioNetHdrSize))
      · simp [nothing, ipv6, ih]
      · simp only [nothing, ipv6, if_false, Traced.bind_returns, Traced.ite_returns, Unique.exists_iff,
          deliveryPasses_iff, Traced.pure_returns, exists_eq_left', Bool.false_eq_true, framePacket, true_and]
        by_cases empty : RingEmpty m.mem pfn
        · simp only [empty, if_true, not_true, iff_false]
          constructor
          · rintro ⟨_, r', passed, delivery, _, ⟨-, ended⟩, rfl⟩
            exact ⟨false, r', ⟨Bool.false_ne_true, passed, delivery⟩, ended⟩
          · rintro ⟨ok, r', ⟨full, passed, delivery⟩, ended⟩
            rw [if_neg full] at ended
            exact ⟨_, r', passed, delivery, .empty, ⟨rfl, ended⟩, rfl⟩
        · simp only [empty, if_false, not_false_iff, iff_true]
          constructor
          · rintro ⟨_, r', passed, delivery, later, moves, rfl⟩
            exact ⟨true, r', ⟨rfl, passed, delivery⟩, ih.mp ⟨later, moves⟩⟩
          · rintro ⟨_, r', ⟨rfl, passed, delivery⟩, rest⟩
            obtain ⟨later, moves⟩ := ih.mpr rest
            exact ⟨_, r', passed, delivery, later, moves, rfl⟩

theorem pollMoves_iff : (∃ record, PollMoves m record t) ↔ tryRx.Returns m () t := by
  rw [tryRx_returns]
  by_cases unset : m.dev.rxPfn = 0
  · simp [PollMoves, unset]
  · simp only [PollMoves, unset, if_false, ← pendingPasses_iff]
    constructor
    · rintro ⟨_, r, r', synack, arp, first, second, later, last, rfl⟩
      refine ⟨r, r', ⟨synack, first⟩, ⟨arp, second⟩, ?_⟩
      by_cases tap : r'.dev.tapFd.isSome
      · rw [if_pos tap] at last ⊢
        exact framesMove_iff.mp ⟨later, last⟩
      · rw [if_neg tap] at last ⊢
        exact last.2
    · rintro ⟨r, r', ⟨synack, first⟩, ⟨arp, second⟩, last⟩
      by_cases tap : r'.dev.tapFd.isSome
      · rw [if_pos tap] at last
        obtain ⟨later, moves⟩ := framesMove_iff.mpr last
        exact ⟨_, r, r', synack, arp, first, second, later, by rwa [if_pos tap], rfl⟩
      · rw [if_neg tap] at last
        exact ⟨_, r, r', synack, arp, first, second, .empty, by rw [if_neg tap]; exact ⟨rfl, last⟩, rfl⟩

private theorem doorbell_returns :
    (mmioWrite mode 0x10 1).Returns m u t ↔ (handleQueueKick mode 1).Returns m u t := by
  have unfolded : mmioWrite mode 0x10 1 = Traced.get >>= fun s =>
      if s.dev.txPfn ≠ 0 then handleQueueKick mode 1 else pure () := rfl
  rw [unfolded]
  by_cases unset : m.dev.txPfn = 0
  · simp [unset, kick_returns]
  · simp [unset]

/-- The record is a record of the operation: it says nothing of when the
operation comes to its end, and where it leads. -/
theorem moves_iff {op : DeviceOp} :
    (∃ record, op.Moves mode m record t) ↔ ∃ o, (op.run mode).Returns m o t := by
  have quiet : (∃ record : Frames, record = .empty ∧ ∃ o, (op.run mode).Returns m o t) ↔
      ∃ o, (op.run mode).Returns m o t := by simp
  cases op with
  | tryRx => simp [DeviceOp.Moves, DeviceOp.run, pollMoves_iff, Unique.exists_iff]
  | mmioWrite offset val =>
    by_cases kick : offset = 0x10 ∧ val = 1
    · obtain ⟨rfl, rfl⟩ := kick
      simp only [DeviceOp.Moves, and_self, if_true, DeviceOp.run, Traced.bind_returns, Traced.pure_returns,
        Unique.exists_iff, doorbell_returns, PUnit.default_eq_unit, ← kickTakes_iff]
      constructor
      · rintro ⟨record, -, takes⟩
        exact ⟨0, t, ⟨_, takes⟩, rfl, rfl⟩
      · rintro ⟨_, _, ⟨taken, takes⟩, -, rfl⟩
        exact ⟨⟨taken, []⟩, rfl, takes⟩
    · simp only [DeviceOp.Moves, if_neg kick, quiet]
  | guestWrites mem => exact quiet
  | mmioRead offset => exact quiet
  | setTapFd fd => exact quiet
  | tapReceives frames => exact quiet

end Records

/-- The ledger only looks on: the machine runs as it does without. -/
theorem ledger_looks_on {mode : Overflow} {m : Machine} :
    Reachable mode m ↔ ∃ ledger, (ledgerRuns mode).Reached (fun _ _ => True) (m, ledger) := by
  constructor
  · intro reachable
    induction reachable with
    | start fresh => exact ⟨.empty, .start ⟨fresh, rfl⟩⟩
    | next _ _ step ih =>
      obtain ⟨ledger, reached⟩ := ih
      obtain ⟨record, moves⟩ := moves_iff.mpr step
      exact ⟨_, reached.next trivial ⟨record, moves, rfl⟩⟩
  · rintro ⟨ledger, reached⟩
    have follows : ∀ s, (ledgerRuns mode).Reached (fun _ _ => True) s → Reachable mode s.1 := by
      intro s reached
      induction reached with
      | start fresh => exact .start fresh.1
      | next _ _ step ih =>
        obtain ⟨record, moves, -⟩ := step
        exact ih.next trivial (moves_iff.mp ⟨record, moves⟩)
    exact follows _ reached

/-! ## What a step does to the account -/

section Taking
variable {mode : Overflow} {pfn : UInt64} {m t : Machine} {taken : List (List UInt8)}

/-- A reply is held where none was, and stays where one is. -/
private theorem afterPacket_stays {dev dev' : VirtioNetPci} {packet : List UInt8}
    (after : afterPacket dev packet = some dev') :
    (dev.synackPending ≠ none → dev'.synackPending = dev.synackPending) ∧
      (dev.arpReplyPending ≠ none → dev'.arpReplyPending = dev.arpReplyPending) := by
  unfold afterPacket at after
  split at after
  · unfold afterFrame at after
    split at after
    · cases after
    · rw [intercept_eq] at after
      split at after
      · cases after
        exact ⟨fun _ => rfl, fun _ => rfl⟩
      · obtain ⟨synack, crafted, rfl⟩ := Option.map_eq_some_iff.mp after
        constructor
        · intro pending
          simpa [pending] using crafted.symm
        · intro pending
          simp [pending]
  · cases after
    exact ⟨fun _ => rfl, fun _ => rfl⟩

/-- A packet adds to the replies that are held, and replaces none. -/
theorem afterPacket_holds {dev dev' : VirtioNetPci} {packet : List UInt8}
    (after : afterPacket dev packet = some dev') : dev'.held.Perm (dev.held ++ newlyHeld dev dev') := by
  obtain ⟨synack, arp⟩ := afterPacket_stays after
  by_cases first : dev.synackPending = none
  · by_cases second : dev.arpReplyPending = none
    · simp [VirtioNetPci.held, newlyHeld, first, second]
    · simp only [VirtioNetPci.held, newlyHeld, first, second, arp second, if_true, if_false,
        Option.toList_none, List.nil_append, List.append_nil]
      exact List.perm_append_comm
  · by_cases second : dev.arpReplyPending = none
    · simp [VirtioNetPci.held, newlyHeld, first, second, synack first]
    · simp [VirtioNetPci.held, newlyHeld, first, second, synack first, arp second]

theorem chainsTake_held {first : UInt16} {i left : Nat} (takes : ChainsTake mode pfn first i left m taken t) :
    t.dev.held.Perm (m.dev.held ++ taken) := by
  induction left generalizing i m taken with
  | zero =>
    obtain ⟨rfl, rfl⟩ := takes
    rw [List.append_nil]
  | succ left ih =>
    obtain ⟨position, -, packet, -, dev, after, later, rest, rfl⟩ := takes
    calc t.dev.held
      _ |>.Perm (dev.held ++ later) := ih rest
      _ |>.Perm ((m.dev.held ++ newlyHeld m.dev dev) ++ later) := (afterPacket_holds after).append_right later
      _ = m.dev.held ++ (newlyHeld m.dev dev ++ later) := List.append_assoc ..

theorem kickTakes_held (takes : KickTakes mode m taken t) : t.dev.held.Perm (m.dev.held ++ taken) := by
  by_cases idle : m.dev.txPfn = 0 ∨ RingEmpty m.mem m.dev.txPfn
  · simp only [KickTakes, idle, if_true] at takes
    obtain ⟨rfl, rfl⟩ := takes
    rw [List.append_nil]
  · simp only [KickTakes, idle, if_false] at takes
    obtain ⟨r, chains, rfl⟩ := takes
    have held : r.dev.held.Perm (m.dev.held ++ taken) := chainsTake_held chains
    exact held

end Taking

/-- A packet finds a chain, and the chain has room for all of it. -/
def Received (pfn : UInt64) (mem : Memory) (packet : List UInt8) : Prop :=
  ¬ RingEmpty mem pfn ∧ ∀ left, Fills mem pfn (nextHead mem pfn) packet left → left.1 = 0

section Passing
variable {pfn : UInt64} {m t : Machine} {packet : List UInt8} {passed : List (List UInt8)} {record : Frames}

private theorem delivery_whole (received : Received pfn m.mem packet)
    (passes : DeliveryPasses pfn packet m passed t) :
    passed = [packet] ∧ ∃ left, Fills m.mem pfn (nextHead m.mem pfn) packet left ∧
      t = m.delivered pfn packet left := by
  simp only [DeliveryPasses, received.1, if_false] at passes
  obtain ⟨left, fills, rfl, rfl⟩ := passes
  refine ⟨?_, left, fills, rfl⟩
  rw [received.2 left fills, Nat.sub_zero, List.take_length]

/-- Where every frame is received, the frames that are taken are passed on. -/
theorem frames_whole {incoming : List (List UInt8)}
    (whole : ForDeliveries pfn (fun mem packet _ => Received pfn mem packet) (frameQueue incoming) m.mem)
    (moves : FramesMove pfn incoming m record t) :
    record.passed = record.taken ∧ t.dev.held = m.dev.held := by
  induction incoming generalizing m record with
  | nil =>
    obtain ⟨rfl, rfl⟩ := moves
    exact ⟨rfl, rfl⟩
  | cons incoming rest ih =>
    simp only [FramesMove] at moves
    simp only [frameQueue] at whole
    by_cases nothing : readFrame incoming = []
    · rw [if_pos nothing] at moves
      obtain ⟨rfl, rfl⟩ := moves
      exact ⟨rfl, rfl⟩
    · rw [if_neg nothing] at moves whole
      let r : Machine := { m with tapIncoming := rest }
      by_cases ipv6 : isIpv6 (readFrame incoming)
      · rw [if_pos ipv6] at moves whole
        exact ih (m := r) whole moves
      · rw [if_neg ipv6] at moves whole
        obtain ⟨r', passed, delivery, later, last, rfl⟩ := moves
        obtain ⟨received, further⟩ := whole
        obtain ⟨rfl, left, fills, rfl⟩ := delivery_whole (m := r) received delivery
        rw [if_neg received.1] at last further
        obtain ⟨same, held⟩ := ih (further left fills) last
        exact ⟨congrArg (framePacket (readFrame incoming) :: ·) same, held⟩

/-- Where a pending reply is received, it is passed on, and the queue behind it
is what it was. -/
private theorem pending_whole {reply : Option (List UInt8)} {queue : List (List UInt8 × Bool)}
    (whole : ForDeliveries pfn (fun mem packet _ => Received pfn mem packet) (pendingQueue reply ++ queue) m.mem)
    (passes : PendingPasses pfn reply m passed t) :
    passed = reply.toList ∧ (∃ isr, t.dev = { m.dev with isr := isr }) ∧ t.tapIncoming = m.tapIncoming ∧
      ForDeliveries pfn (fun mem packet _ => Received pfn mem packet) queue t.mem := by
  cases reply with
  | none =>
    obtain ⟨rfl, rfl⟩ := passes
    exact ⟨rfl, ⟨m.dev.isr, rfl⟩, rfl, whole⟩
  | some packet =>
    obtain ⟨received, further⟩ := whole
    obtain ⟨rfl, left, fills, rfl⟩ := delivery_whole received passes
    rw [if_neg received.1] at further
    exact ⟨rfl, ⟨_, rfl⟩, rfl, further left fills⟩

/-- Where everything is received, a poll passes on the replies that were held
and the frames it takes. -/
theorem poll_whole (set : m.dev.rxPfn ≠ 0)
    (whole : ForDeliveries m.dev.rxPfn (fun mem packet _ => Received m.dev.rxPfn mem packet)
      (rxQueue m) m.mem)
    (moves : PollMoves m record t) : record.passed = m.dev.held ++ record.taken ∧ t.dev.held = [] := by
  simp only [PollMoves, set, if_false] at moves
  obtain ⟨r, r', synack, arp, first, second, later, last, rfl⟩ := moves
  rw [rxQueue, List.append_assoc] at whole
  obtain ⟨rfl, ⟨isr, device⟩, input, whole⟩ := pending_whole (m := m.tookSynack) whole first
  have kept : r.dev.arpReplyPending = m.dev.arpReplyPending := by rw [device]; rfl
  rw [kept] at second
  obtain ⟨rfl, ⟨isr', device'⟩, input', whole⟩ := pending_whole (m := r.tookArp) whole second
  have tap : r'.dev.tapFd = m.dev.tapFd := by rw [device', Machine.tookArp, device]; rfl
  have nothing : r'.dev.held = [] := by rw [device', Machine.tookArp, device]; rfl
  have incoming : r'.tapIncoming = m.tapIncoming := input'.trans input
  rw [tap, incoming] at last
  by_cases attached : m.dev.tapFd.isSome
  · rw [if_pos attached] at last whole
    obtain ⟨same, held⟩ := frames_whole whole last
    refine ⟨?_, held.trans nothing⟩
    rw [Ledger.plus, VirtioNetPci.held, same, List.nil_append]
  · rw [if_neg attached] at last
    obtain ⟨rfl, rfl⟩ := last
    refine ⟨?_, nothing⟩
    simp [Ledger.plus, Ledger.empty, VirtioNetPci.held]

end Passing

section Quiet
variable {mode : Overflow} {m t : Machine}

theorem mmioRead_held (dev : VirtioNetPci) (offset : UInt32) : (dev.mmioRead offset).2.held = dev.held := by
  obtain ⟨isr, intr, same⟩ := mmioRead_registers dev offset
  exact same ▸ rfl

theorem written_held (dev : VirtioNetPci) (offset val : UInt32) : (dev.written offset val).held = dev.held := by
  unfold VirtioNetPci.written
  split
  case h_2 => split <;> rfl
  case h_4 =>
    simp only
    split <;> rfl
  all_goals rfl

/-- A register write that is no kick leaves the replies that are held alone. -/
theorem mmioWrite_held {offset val : UInt32} {u : Unit} (other : ¬ (offset = 0x10 ∧ val = 1))
    (returned : (mmioWrite mode offset val).Returns m u t) : t.dev.held = m.dev.held := by
  have split := mmioWrite_returns.mp returned
  by_cases kick : offset.toNat = 0x10 ∧ ∃ valid : val.toNat < 2, m.dev.queuePfns[val.toNat] ≠ 0
  · have transmit : val.toNat ≠ 1 := by
      intro one
      exact other ⟨UInt32.toNat_inj.mp kick.1, UInt32.toNat_inj.mp one⟩
    rw [if_pos kick, kick_ignored transmit, Traced.pure_returns] at split
    rw [split.2]
  · rw [if_neg kick] at split
    rw [← split]
    exact written_held m.dev offset val

end Quiet

/-! ## Runs -/

/-- What waits is what the device holds, in the order a poll turns to it, and
the poll finds a chain with room for everything it turns to. -/
def ReceivesAll (s : Machine × Frames) (op : DeviceOp) : Prop :=
  let pfn := s.1.dev.rxPfn
  op = .tryRx → pfn ≠ 0 → s.2.taken.drop s.2.passed.length = s.1.dev.held ∧
    ForDeliveries pfn (fun mem packet _ => Received pfn mem packet) (rxQueue s.1) s.1.mem

/-- One step keeps the account. -/
theorem moves_balanced {mode : Overflow} {m t : Machine} {ledger record : Frames} {op : DeviceOp}
    (balanced : ledger.Balanced m.dev.held) (receives : ReceivesAll (m, ledger) op)
    (moves : op.Moves mode m record t) : (ledger.plus record).Balanced t.dev.held := by
  have quiet : record = .empty → t.dev.held = m.dev.held → (ledger.plus record).Balanced t.dev.held := by
    rintro rfl same
    rw [Ledger.plus_empty, same]
    exact balanced
  cases op with
  | tryRx =>
    by_cases unset : m.dev.rxPfn = 0
    · simp only [DeviceOp.Moves, PollMoves, unset, if_true] at moves
      obtain ⟨rfl, rfl⟩ := moves
      exact quiet rfl rfl
    · obtain ⟨ordered, whole⟩ := receives rfl unset
      obtain ⟨same, nothing⟩ := poll_whole unset whole moves
      obtain ⟨queue, waits, -⟩ := balanced
      have inOrder : queue = m.dev.held := by
        rw [← ordered, waits, List.drop_left]
      obtain ⟨taken, passed⟩ := record
      rw [nothing, show passed = queue ++ taken from inOrder ▸ same]
      exact waits.flushes
  | mmioWrite offset val =>
    by_cases kick : offset = 0x10 ∧ val = 1
    · simp only [DeviceOp.Moves, kick, and_self, if_true] at moves
      obtain ⟨nothing, takes⟩ := moves
      obtain ⟨taken, passed⟩ := record
      rw [show passed = [] from nothing]
      exact balanced.takes (kickTakes_held takes)
    · simp only [DeviceOp.Moves, kick, if_false, DeviceOp.run, Traced.bind_returns] at moves
      obtain ⟨empty, _, _, _, written, ended⟩ := moves
      rw [← (Traced.pure_returns.mp ended).2] at quiet ⊢
      exact quiet empty (mmioWrite_held kick written)
  | guestWrites mem =>
    simp only [DeviceOp.Moves, DeviceOp.run, Traced.bind_returns, Traced.modify_returns, Traced.pure_returns] at moves
    obtain ⟨empty, _, _, _, rfl, -, rfl⟩ := moves
    exact quiet empty rfl
  | mmioRead offset =>
    simp only [DeviceOp.Moves, DeviceOp.run, Traced.bind_returns, Traced.get_returns, modifyDev_returns,
      Traced.pure_returns] at moves
    obtain ⟨empty, _, _, _, ⟨rfl, rfl⟩, _, _, rfl, -, rfl⟩ := moves
    exact quiet empty (mmioRead_held _ _)
  | setTapFd fd =>
    simp only [DeviceOp.Moves, DeviceOp.run, Traced.bind_returns, modifyDev_returns, Traced.pure_returns] at moves
    obtain ⟨empty, _, _, _, rfl, -, rfl⟩ := moves
    exact quiet empty rfl
  | tapReceives frames =>
    simp only [DeviceOp.Moves, DeviceOp.run, Traced.bind_returns, Traced.modify_returns, Traced.pure_returns] at moves
    obtain ⟨empty, _, _, _, rfl, -, rfl⟩ := moves
    exact quiet empty rfl

/-- Every frame the device took was given to the ring, once and in the order
they were taken, or is held. -/
def Accounted (s : Machine × Frames) : Prop := s.2.Balanced s.1.dev.held

/-- Nothing is lost, doubled or overtaken in a run in which every poll finds
room for everything it turns to. -/
theorem reception_accounted {mode : Overflow} {s : Machine × Frames}
    (reached : (ledgerRuns mode).Reached ReceivesAll s) : Accounted s := by
  refine reached.invariant ?_ ?_
  · rintro ⟨m, ledger⟩ ⟨⟨mmioBase, fresh⟩, rfl⟩
    simp only at fresh
    rw [Accounted, fresh]
    exact Ledger.balanced_empty
  · rintro ⟨m, ledger⟩ op ⟨t, ledger'⟩ balanced receives ⟨record, moves, rfl⟩
    exact moves_balanced balanced receives moves

/-- A frame waits at the TAP device, and the reception queue is on page one. -/
def frameWaiting (mem : Memory) : Machine where
  dev := { VirtioNetPci.new 0 with tapFd := some 3, queuePfns := #v[0x1000, 0] }
  mem := mem
  tapWritten := []
  tapIncoming := [[1]]

theorem frameWaiting_reached (mode : Overflow) (mem : Memory) :
    (ledgerRuns mode).Reached ReceivesAll (frameWaiting mem, .empty) := by
  have quiet : ∀ s op, op ≠ .tryRx → ReceivesAll s op := fun _ _ other poll => absurd poll other
  have fresh : (ledgerRuns mode).Reached ReceivesAll (⟨VirtioNetPci.new 0, mem, [], []⟩, .empty) :=
    .start ⟨⟨0, rfl⟩, rfl⟩
  have attached : (ledgerRuns mode).Reached ReceivesAll
      (⟨{ VirtioNetPci.new 0 with tapFd := some 3 }, mem, [], []⟩, .empty) :=
    fresh.next (quiet _ (.setTapFd 3) nofun) ⟨.empty, ⟨rfl, 0, 0, rfl, rfl⟩, rfl⟩
  have waiting : (ledgerRuns mode).Reached ReceivesAll
      (⟨{ VirtioNetPci.new 0 with tapFd := some 3 }, mem, [], [[1]]⟩, .empty) :=
    attached.next (quiet _ (.tapReceives [[1]]) nofun) ⟨.empty, ⟨rfl, 0, 0, rfl, rfl⟩, rfl⟩
  exact waiting.next (quiet _ (.mmioWrite 0x08 1) nofun) ⟨.empty, ⟨rfl, 0, 0, rfl, rfl⟩, rfl⟩

/-- The machine when the frame was read. -/
def frameRead (mem : Memory) : Machine := { frameWaiting mem with tapIncoming := [] }

/-- With no reply held, a poll does no more than deliver the frame. -/
theorem frameWaiting_polls {mem : Memory} {t : Machine} {passed : List (List UInt8)}
    (delivery : DeliveryPasses 0x1000 (framePacket [1]) (frameRead mem) passed t) :
    PollMoves (frameWaiting mem) ⟨[framePacket [1]], passed⟩ t := by
  have frames : FramesMove 0x1000 [[1]] (frameWaiting mem) ⟨[framePacket [1]], passed⟩ t := by
    refine ⟨t, passed, delivery, .empty, ?_, ?_⟩
    · split
      · exact ⟨rfl, rfl⟩
      · exact ⟨rfl, rfl⟩
    · rw [Ledger.plus_empty]
      rfl
  have set : (frameWaiting mem).dev.rxPfn = 0x1000 := rfl
  simp only [PollMoves, set]
  rw [if_neg (by decide)]
  exact ⟨frameWaiting mem, frameWaiting mem, [], [], ⟨rfl, rfl⟩, ⟨rfl, rfl⟩, _, frames, rfl⟩

/-- One chain of one buffer that takes 2 KiB. -/
def bufferOffered : Memory :=
  (((Memory.zeroed.store 0x1000 (Memory.bytesLE 8 0x20000)).store 0x1008 (Memory.bytesLE 4 2048)).store
    0x100C [2]).store 0x2002 [1]

/-- The memory when the frame is in the buffer. -/
def bufferFilled : Memory :=
  ((Traced.iterate (scatterRound 0x1000 (framePacket [1])) (0, (framePacket [1]).length)).run 2
    (frameWaiting bufferOffered)).state.mem

theorem bufferOffered_fills (left : Nat × Memory) :
    Fills bufferOffered 0x1000 (nextHead bufferOffered 0x1000) (framePacket [1]) left ↔ left = (0, bufferFilled) := by
  have head : nextHead bufferOffered 0x1000 = 0 := by decide +kernel
  have ended : ((Traced.iterate (scatterRound 0x1000 (framePacket [1])) (0, (framePacket [1]).length)).run 2
      (frameWaiting bufferOffered)).outcome = .done 0 := by decide +kernel
  have returned := Traced.returns_of_run ended
  rw [head]
  constructor
  · intro fills
    have other := scatter_returns (m := frameWaiting bufferOffered).mpr ⟨left.2, fills, rfl⟩
    obtain ⟨same, state⟩ := other.unique returned
    exact Prod.ext same (congrArg Machine.mem state)
  · rintro rfl
    obtain ⟨mem, fills, state⟩ := scatter_returns.mp returned
    rw [bufferFilled, ← state]
    exact fills

theorem frame_reaches_buffer : Accounted
    ((frameRead bufferOffered).delivered 0x1000 (framePacket [1]) (0, bufferFilled),
      ⟨[framePacket [1]], [framePacket [1]]⟩) := by
  have offered : ¬ RingEmpty bufferOffered 0x1000 := by decide +kernel
  have whole : ForDeliveries 0x1000 (fun mem packet _ => Received 0x1000 mem packet)
      [(framePacket [1], true)] bufferOffered := by
    refine ⟨⟨offered, fun left fills => ?_⟩, ?_⟩
    · rw [(bufferOffered_fills left).mp fills]
    · rw [if_neg offered]
      exact fun _ _ => trivial
  have receives : ReceivesAll (frameWaiting bufferOffered, .empty) .tryRx := fun _ _ => ⟨rfl, whole⟩
  have delivery : DeliveryPasses 0x1000 (framePacket [1]) (frameRead bufferOffered) [framePacket [1]]
      ((frameRead bufferOffered).delivered 0x1000 (framePacket [1]) (0, bufferFilled)) := by
    refine (if_neg offered).mpr ⟨_, (bufferOffered_fills _).mpr rfl, rfl, rfl⟩
  exact reception_accounted ((frameWaiting_reached .wrapping bufferOffered).next receives
    ⟨_, frameWaiting_polls delivery, rfl⟩)

/-- A frame that is read while no chain is available is neither delivered nor
held. -/
theorem frame_without_buffer_is_lost :
    ¬ ∀ (mode : Overflow) (s : Machine × Frames), (ledgerRuns mode).Reached (fun _ _ => True) s →
      Accounted s := by
  intro law
  have waiting := (frameWaiting_reached .wrapping Memory.zeroed).mono (fun _ _ _ => trivial)
  have none : RingEmpty Memory.zeroed 0x1000 := by decide +kernel
  have delivery : DeliveryPasses 0x1000 (framePacket [1]) (frameRead Memory.zeroed) []
      (frameRead Memory.zeroed) := (if_pos none).mpr ⟨rfl, rfl⟩
  have polled : (ledgerRuns .wrapping).Reached (fun _ _ => True)
      (frameRead Memory.zeroed, ⟨[framePacket [1]], []⟩) :=
    waiting.next trivial (show (ledgerRuns .wrapping).step _ .tryRx _ from ⟨_, frameWaiting_polls delivery, rfl⟩)
  obtain ⟨queue, waits, same⟩ := law .wrapping _ polled
  rw [List.perm_nil.mp same] at waits
  cases waits

end TinyMachine.VirtioNet
