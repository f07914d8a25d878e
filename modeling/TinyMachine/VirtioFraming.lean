import TinyMachine.SynAck
import TinyMachine.VirtioReception
import TinyMachine.Lib.Pouring

/-! What a poll writes into a chain: the packet it was given, poured into the
buffers of the chain, and which packets have a header in front of the frame. -/
namespace TinyMachine.VirtioNet
open Lib

/-! ## The buffers of a chain -/

/-- The buffer of a descriptor, if the device may write to it. -/
def FillPoint.buffer (here : FillPoint) (pfn : UInt64) : Buffers :=
  if (here.desc pfn).Readable then [] else [((here.desc pfn).addr.toNat, (here.desc pfn).len.toNat)]

/-- What the loop writes at a descriptor. -/
def FillPoint.written (here : FillPoint) (pfn : UInt64) (packet : List UInt8) : Blocks :=
  if (here.desc pfn).Readable then [] else [((here.desc pfn).addr.toNat, (here.desc pfn).part packet here.remaining)]

/-- The loop came from one point to another through those in between. -/
inductive Trail (pfn : UInt64) (packet : List UInt8) (start : FillPoint) : List FillPoint → FillPoint → Prop where
  | start : Trail pfn packet start [] start
  | next {trail : List FillPoint} {here next : FillPoint} (before : Trail pfn packet start trail here)
      (leads : FillPoint.Leads pfn packet here next) : Trail pfn packet start (trail ++ [here]) next

/-- The chain is left at some point, after these were dealt with. -/
structure FillsThrough (mem : Memory) (pfn : UInt64) (head : UInt16) (packet : List UInt8) (before : List FillPoint)
    (last : FillPoint) : Prop where
  trail : Trail pfn packet ⟨head, packet.length, mem⟩ before last
  ends : last.Active → ¬ last.GoesOn pfn packet

/-- The points that were dealt with. -/
def dealtWith (before : List FillPoint) (last : FillPoint) : List FillPoint :=
  if last.Active then before ++ [last] else before

/-- What is left when the chain is left. -/
def FillPoint.leaves (last : FillPoint) (pfn : UInt64) (packet : List UInt8) : Nat × Memory :=
  if last.Active then last.after pfn packet else (last.remaining, last.mem)

/-- The chain goes no further. -/
def FillPoint.Exhausted (last : FillPoint) (pfn : UInt64) : Prop :=
  ¬ last.d < queueSize ∨ ¬ (last.desc pfn).Chained

def buffersOf (pfn : UInt64) (points : List FillPoint) : Buffers := points.flatMap (FillPoint.buffer · pfn)

def writesOf (pfn : UInt64) (packet : List UInt8) (points : List FillPoint) : Blocks :=
  points.flatMap (FillPoint.written · pfn packet)

section Chains
variable {mem : Memory} {pfn : UInt64} {head : UInt16} {packet : List UInt8} {before : List FillPoint}
  {here last : FillPoint}

theorem visits_iff_trail {start : FillPoint} :
    Relation.ReflTransGen (FillPoint.Leads pfn packet) start here ↔ ∃ trail, Trail pfn packet start trail here := by
  constructor
  · intro visits
    induction visits with
    | refl => exact ⟨[], .start⟩
    | tail _ leads ih =>
      obtain ⟨trail, before⟩ := ih
      exact ⟨_, before.next leads⟩
  · rintro ⟨trail, before⟩
    induction before with
    | start => exact .refl
    | next _ leads ih => exact ih.tail leads

theorem fills_iff {left : Nat × Memory} : Fills mem pfn head packet left ↔
    ∃ before last, FillsThrough mem pfn head packet before last ∧ left = last.leaves pfn packet := by
  constructor
  · rintro ⟨last, visits, leaves⟩
    obtain ⟨before, trail⟩ := visits_iff_trail.mp visits
    refine ⟨before, last, ⟨trail, fun active => ?_⟩, ?_⟩
    · rw [if_pos active] at leaves
      exact leaves.1
    · rw [FillPoint.leaves]
      split
      · rename_i active
        rw [if_pos active] at leaves
        exact leaves.2
      · rename_i inactive
        rwa [if_neg inactive] at leaves
  · rintro ⟨before, last, through, rfl⟩
    refine ⟨last, visits_iff_trail.mpr ⟨before, through.trail⟩, ?_⟩
    rw [FillPoint.leaves]
    split
    · rename_i active
      exact ⟨through.ends active, rfl⟩
    · rfl

/-- Some points have poured the packet into their buffers. -/
structure Poured (mem : Memory) (pfn : UInt64) (packet : List UInt8) (points : List FillPoint) (left : Nat × Memory) :
    Prop where
  writes : writesOf pfn packet points = Buffers.pour packet (buffersOf pfn points)
  remaining : left.1 = packet.length - Buffers.room (buffersOf pfn points)
  memory : left.2 = Buffers.storeAll mem (writesOf pfn packet points)

theorem Poured.next {points : List FillPoint} (poured : Poured mem pfn packet points (here.remaining, here.mem))
    (active : here.Active) : Poured mem pfn packet (points ++ [here]) (here.after pfn packet) := by
  obtain ⟨writes, remaining, memory⟩ := poured
  simp only at remaining memory
  have more : 0 < here.remaining := active.1
  have place : packet.length - here.remaining = Buffers.room (buffersOf pfn points) := by omega
  have buffers : buffersOf pfn (points ++ [here]) = buffersOf pfn points ++ here.buffer pfn := by
    simp [buffersOf]
  have all : writesOf pfn packet (points ++ [here]) = writesOf pfn packet points ++ here.written pfn packet := by
    simp [writesOf]
  by_cases readable : (here.desc pfn).Readable
  · have none : here.buffer pfn = [] := if_pos readable
    have nothing : here.written pfn packet = [] := if_pos readable
    have after : here.after pfn packet = (here.remaining, here.mem) := if_pos readable
    rw [after]
    constructor
    · rw [all, buffers, none, nothing, List.append_nil, List.append_nil, writes]
    · rw [buffers, none, List.append_nil, remaining]
    · rw [all, nothing, List.append_nil, memory]
  · have one : here.buffer pfn = [((here.desc pfn).addr.toNat, (here.desc pfn).len.toNat)] := if_neg readable
    have block : here.written pfn packet =
        [((here.desc pfn).addr.toNat, (here.desc pfn).part packet here.remaining)] := if_neg readable
    have part : here.written pfn packet = Buffers.pour (packet.drop (Buffers.room (buffersOf pfn points)))
        [((here.desc pfn).addr.toNat, (here.desc pfn).len.toNat)] := by
      have length : (packet.drop (Buffers.room (buffersOf pfn points))).length = here.remaining := by
        rw [List.length_drop]
        omega
      have taken : (here.desc pfn).part packet here.remaining =
          (packet.drop (Buffers.room (buffersOf pfn points))).take (here.desc pfn).len.toNat := by
        rw [VringDesc.part, place, ← List.take_take, ← length, List.take_length]
      rw [block, taken]
      simp only [Buffers.pour]
    have after : here.after pfn packet = (here.remaining - min (here.desc pfn).len.toNat here.remaining,
        here.mem.store (here.desc pfn).addr.toNat ((here.desc pfn).part packet here.remaining)) := if_neg readable
    rw [after]
    constructor
    · rw [all, buffers, one, Buffers.pour_append, ← part, writes]
    · rw [buffers, one, Buffers.room_append]
      simp only [Buffers.room, List.map_cons, List.map_nil, List.sum_cons, List.sum_nil]
      simp only [Buffers.room] at remaining
      omega
    · rw [all, Buffers.storeAll_append, ← memory, block, Buffers.storeAll, List.foldl_cons, List.foldl_nil]

theorem Trail.poured (trail : Trail pfn packet ⟨head, packet.length, mem⟩ before here) :
    Poured mem pfn packet before (here.remaining, here.mem) := by
  induction trail with
  | start => exact ⟨rfl, rfl, rfl⟩
  | next _ leads ih =>
    obtain ⟨active, -, rfl⟩ := leads
    exact ih.next active

/-- A chain that is left has been given the packet, as far as there is room. -/
theorem FillsThrough.poured (through : FillsThrough mem pfn head packet before last) :
    Poured mem pfn packet (dealtWith before last) (last.leaves pfn packet) := by
  have poured := through.trail.poured
  rw [dealtWith, FillPoint.leaves]
  split
  · rename_i active
    exact poured.next active
  · exact poured

/-- A delivery that finds a chain pours its packet into the buffers and puts the
used element behind it. -/
theorem deliver_pours {m t : Machine} {fromTap : Bool} : (deliver pfn packet fromTap).Returns m true t ↔
    ¬ RingEmpty m.mem pfn ∧ ∃ before last, FillsThrough m.mem pfn (nextHead m.mem pfn) packet before last ∧
      m.delivered pfn packet (last.leaves pfn packet) = t := by
  rw [deliver_returns]
  split
  · rename_i empty
    exact ⟨nofun, fun filled => absurd empty filled.1⟩
  · rename_i filled
    simp only [fills_iff, true_and, filled, not_false_iff]
    constructor
    · rintro ⟨_, ⟨before, last, through, rfl⟩, rfl⟩
      exact ⟨before, last, through, rfl⟩
    · rintro ⟨before, last, through, rfl⟩
      exact ⟨_, ⟨before, last, through, rfl⟩, rfl⟩

/-- Only a chain that goes no further is left with something remaining. -/
theorem FillsThrough.exhausted (through : FillsThrough mem pfn head packet before last)
    (short : Buffers.room (buffersOf pfn (dealtWith before last)) < packet.length) : last.Exhausted pfn := by
  have remaining := through.poured.remaining
  by_cases active : last.Active
  · right
    intro chained
    have whole := not_and.mp (through.ends active) chained
    rw [FillPoint.leaves, if_pos active] at remaining
    omega
  · left
    intro inside
    rw [FillPoint.leaves, if_neg active] at remaining
    exact active ⟨by simp only at remaining; omega, inside⟩

end Chains

/-! ## The replies that can be pending -/

/-- The frame has the first byte of an IPv4 or ARP ethertype in its place. -/
def Marked (reply : List UInt8) : Prop := reply[12]? = some 0x08

section Replies
variable {frame packet reply : List UInt8} {dev dev' : VirtioNetPci} {mode : Overflow} {m t : Machine} {u : Unit}

theorem craftSynack_marked (crafted : craftSynack frame = some (some reply)) : Marked reply := by
  have ipv4 := (craftSynack_some crafted).ipv4.1
  rw [octet, List.getD_eq_getElem?_getD] at ipv4
  cases found : reply[12]? with
  | none =>
    rw [found] at ipv4
    exact absurd ipv4 (by decide)
  | some byte =>
    rw [found] at ipv4
    exact found.trans (congrArg some ipv4)

theorem length_slice {start stop : Nat} {part : List UInt8} (cut : slice frame start stop = some part) :
    part.length = stop - start := by
  unfold slice at cut
  split at cut
  · rename_i inside
    rw [← Option.some.inj cut, List.length_drop, List.length_take]
    omega
  · cases cut

theorem arpReply_marked (crafted : arpReply frame = some reply) : Marked reply := by
  simp only [arpReply, Option.bind_eq_bind, Option.bind_none, Option.ite_none_left_eq_some, Option.bind_eq_some_iff,
    Option.pure_def, Option.some.injEq] at crafted
  obtain ⟨-, _, -, _, -, -, _, -, _, -, -, _, -, -, sha, cut, spa, -, rfl⟩ := crafted
  obtain ⟨_, _, _, _, _, _, rfl⟩ := exists_six (length_slice cut)
  rfl

/-- What is pending was pending before, or was crafted. -/
theorem afterPacket_marked (marked : ∀ reply ∈ dev.held, Marked reply) (after : afterPacket dev packet = some dev') :
    ∀ reply ∈ dev'.held, Marked reply := by
  unfold afterPacket at after
  split at after
  · unfold afterFrame at after
    split at after
    · cases after
    · rw [intercept_eq] at after
      split at after
      · cases after
        exact marked
      · obtain ⟨synack, crafted, rfl⟩ := Option.map_eq_some_iff.mp after
        simp only [VirtioNetPci.held, List.mem_append, Option.mem_toList] at marked ⊢
        rintro reply (first | second)
        · subst first
          split at crafted
          · exact craftSynack_marked crafted
          · exact marked reply (.inl (Option.some.inj crafted))
        · split at second
          · exact arpReply_marked second
          · exact marked reply (.inr second)
  · cases after
    exact marked

theorem marked_lasting (mode : Overflow) : Lasting mode fun dev => ∀ reply ∈ dev.held, Marked reply where
  fresh _ := fun reply member => absurd member List.not_mem_nil
  read dev offset marked := mmioRead_held dev offset ▸ marked
  written dev offset val marked := written_held dev offset val ▸ marked
  packet _ _ _ marked after := afterPacket_marked marked after
  raised _ _ marked := marked
  tookSynack dev marked := fun reply member => marked reply (List.mem_append_right _ member)
  tookArp dev marked := by
    intro reply member
    refine marked reply (List.mem_append_left _ ?_)
    rwa [VirtioNetPci.held, Option.toList_none, List.append_nil] at member
  attached _ _ marked := marked

/-- Every reply that is held in a state that a run leads to is marked. -/
theorem reachable_marked (reachable : Reachable mode m) : ∀ reply ∈ m.dev.held, Marked reply :=
  reachable.lasting (marked_lasting mode)

end Replies

/-! ## Framing -/

/-- The frame that is in a packet from the TAP device, or is a reply. -/
def frameOf (packet : List UInt8) (fromTap : Bool) : List UInt8 :=
  if fromTap then packet.drop virtioNetHdrSize else packet

/-- What is written along the chain is a header of zeros and the frame, as far
as the chain has room, and the used element tells how much. -/
structure Framed (pfn : UInt64) (mem : Memory) (packet frame : List UInt8) (points : List FillPoint)
    (last : FillPoint) : Prop where
  bytes : Buffers.contents (writesOf pfn packet points) =
    (framePacket frame).take (Buffers.room (buffersOf pfn points))
  short : Buffers.room (buffersOf pfn points) < (framePacket frame).length → last.Exhausted pfn
  used : (completed mem pfn packet (last.leaves pfn packet)).fetch (usedSlot pfn (usedIdx mem pfn)) 8 =
    usedElem (nextHead mem pfn) (Buffers.contents (writesOf pfn packet points)).length

/-- The next chain, if there is one, is given the packet as a framed one. -/
def DeliversFramed (pfn : UInt64) (mem : Memory) (packet : List UInt8) (fromTap : Bool) : Prop :=
  ¬ RingEmpty mem pfn → ∀ before last, FillsThrough mem pfn (nextHead mem pfn) packet before last →
    Framed pfn mem packet (frameOf packet fromTap) (dealtWith before last) last

/-- Everything that a poll delivers is framed. -/
def RxFramed (m : Machine) : Prop :=
  let pfn := m.dev.rxPfn
  pfn ≠ 0 → ForDeliveries pfn (DeliversFramed pfn) (rxQueue m) m.mem

/-- The next chain, if there is one, has room for zeros only of a reply. -/
def BlankReply (pfn : UInt64) (mem : Memory) (packet : List UInt8) (fromTap : Bool) : Prop :=
  fromTap = false → ¬ RingEmpty mem pfn →
    ∀ before last, FillsThrough mem pfn (nextHead mem pfn) packet before last →
      ∀ byte ∈ packet.take (Buffers.room (buffersOf pfn (dealtWith before last))), byte = 0

/-- What is shifted behind some zeros begins as it did only as far as it is
zero itself. -/
theorem take_shifted {bytes : List UInt8} {zeros count : Nat} (positive : 0 < zeros)
    (same : bytes.take count = (List.replicate zeros 0 ++ bytes).take count) : ∀ byte ∈ bytes.take count, byte = 0 := by
  have each (i : Nat) (byte : UInt8) (at' : (bytes.take count)[i]? = some byte) : byte = 0 := by
    induction i using Nat.strong_induction_on generalizing byte with
    | _ i ih =>
      have inside : i < count := by
        obtain ⟨bound, -⟩ := List.getElem?_eq_some_iff.mp at'
        rw [List.length_take] at bound
        omega
      rw [same, List.getElem?_take_of_lt inside] at at'
      rcases Nat.lt_or_ge i zeros with blank | behind
      · rw [List.getElem?_append_left (by simpa using blank), List.getElem?_replicate, if_pos blank] at at'
        exact (Option.some.inj at').symm
      · rw [List.getElem?_append_right (by simpa using behind), List.length_replicate] at at'
        refine ih (i - zeros) (by omega) byte ?_
        rw [List.getElem?_take_of_lt (by omega)]
        exact at'
  intro byte member
  obtain ⟨i, found⟩ := List.mem_iff_getElem?.mp member
  exact each i byte found

section Framing
variable {mem : Memory} {pfn : UInt64} {packet : List UInt8} {before : List FillPoint} {last : FillPoint}

/-- The used element tells how many bytes were written. -/
theorem used_tells (through : FillsThrough mem pfn (nextHead mem pfn) packet before last) :
    (completed mem pfn packet (last.leaves pfn packet)).fetch (usedSlot pfn (usedIdx mem pfn)) 8 =
      usedElem (nextHead mem pfn) (Buffers.contents (writesOf pfn packet (dealtWith before last))).length := by
  have poured := through.poured
  have count : packet.length - (last.leaves pfn packet).1 =
      (Buffers.contents (writesOf pfn packet (dealtWith before last))).length := by
    rw [poured.writes, Buffers.contents_pour, List.length_take, poured.remaining]
    omega
  rw [completed, count, Memory.fetch_store_disjoint (by rw [usedSlot, Memory.length_bytesLE]; omega)]
  exact length_usedElem _ _ ▸ Memory.fetch_store_self _ _ _

theorem framed_from_tap (through : FillsThrough mem pfn (nextHead mem pfn) packet before last) {frame : List UInt8}
    (framed : packet = framePacket frame) : Framed pfn mem packet frame (dealtWith before last) last := by
  refine ⟨?_, fun short => ?_, used_tells through⟩
  · rw [through.poured.writes, Buffers.contents_pour, framed]
  · exact through.exhausted (framed ▸ short)

/-- A reply is framed as far as it is zero. -/
theorem framed_reply_iff (through : FillsThrough mem pfn (nextHead mem pfn) packet before last)
    (marked : Marked packet) : Framed pfn mem packet packet (dealtWith before last) last ↔
      ∀ byte ∈ packet.take (Buffers.room (buffersOf pfn (dealtWith before last))), byte = 0 := by
  have writes : Buffers.contents (writesOf pfn packet (dealtWith before last)) =
      packet.take (Buffers.room (buffersOf pfn (dealtWith before last))) := by
    rw [through.poured.writes, Buffers.contents_pour]
  generalize count : Buffers.room (buffersOf pfn (dealtWith before last)) = room at writes
  constructor
  · intro framed
    have bytes := framed.bytes
    rw [writes, count] at bytes
    exact take_shifted (by decide) bytes
  · intro blank
    have few : room ≤ 12 := by
      by_contra more
      have held : (packet.take room)[12]? = some 0x08 := by
        rw [List.getElem?_take_of_lt (by omega)]
        exact marked
      exact absurd (blank 0x08 (List.mem_of_getElem? held)) (by decide)
    have long : 12 < packet.length := (List.getElem?_eq_some_iff.mp marked).1
    have zeros : packet.take room = List.replicate room 0 :=
      List.eq_replicate_iff.mpr ⟨by rw [List.length_take]; omega, blank⟩
    refine ⟨?_, fun _ => through.exhausted (by omega), used_tells through⟩
    rw [writes, count, zeros]
    refine (List.eq_replicate_iff.mpr ⟨?_, fun byte member => ?_⟩).symm
    · rw [List.length_take, framePacket, List.length_append, List.length_replicate]
      omega
    · rw [framePacket, List.take_append, List.mem_append] at member
      rcases member with header | front
      · exact List.eq_of_mem_replicate (List.mem_of_mem_take header)
      · refine blank byte ?_
        rw [← Nat.min_eq_left (Nat.sub_le room (List.replicate virtioNetHdrSize (0 : UInt8)).length),
          ← List.take_take] at front
        exact List.mem_of_mem_take front

theorem forDeliveries_congr {holds holds' : Memory → List UInt8 → Bool → Prop} {queue : List (List UInt8 × Bool)}
    (same : ∀ entry ∈ queue, ∀ mem, holds mem entry.1 entry.2 ↔ holds' mem entry.1 entry.2) (mem : Memory) :
    ForDeliveries pfn holds queue mem ↔ ForDeliveries pfn holds' queue mem := by
  induction queue generalizing mem with
  | nil => exact Iff.rfl
  | cons entry rest ih =>
    have later := ih fun other member => same other (List.mem_cons_of_mem entry member)
    rw [ForDeliveries, ForDeliveries, same entry List.mem_cons_self]
    refine and_congr_right fun _ => ?_
    split
    · exact later mem
    · exact forall_congr' fun left => forall_congr' fun _ => later _

theorem mem_frameQueue {incoming : List (List UInt8)} :
    ∀ entry ∈ frameQueue incoming, ∃ frame, entry = (framePacket frame, true) := by
  induction incoming with
  | nil => exact fun entry member => absurd member List.not_mem_nil
  | cons incoming rest ih =>
    rw [frameQueue]
    split
    · exact fun entry member => absurd member List.not_mem_nil
    · split
      · exact ih
      · exact List.forall_mem_cons.mpr ⟨⟨_, rfl⟩, ih⟩

/-- A poll turns to replies that are held and to framed packets. -/
theorem mem_rxQueue {m : Machine} {entry : List UInt8 × Bool} (member : entry ∈ rxQueue m) :
    entry.2 = false ∧ entry.1 ∈ m.dev.held ∨ ∃ frame, entry = (framePacket frame, true) := by
  have pending {reply : Option (List UInt8)} (queued : entry ∈ pendingQueue reply) :
      entry.2 = false ∧ entry.1 ∈ reply.toList := by
    obtain ⟨packet, held, rfl⟩ := List.mem_map.mp queued
    exact ⟨rfl, held⟩
  rw [rxQueue, List.mem_append, List.mem_append] at member
  rcases member with (synack | arp) | tap
  · obtain ⟨reply, held⟩ := pending synack
    exact .inl ⟨reply, List.mem_append_left _ held⟩
  · obtain ⟨reply, held⟩ := pending arp
    exact .inl ⟨reply, List.mem_append_right _ held⟩
  · split at tap
    · exact .inr (mem_frameQueue entry tap)
    · exact absurd tap List.not_mem_nil

end Framing

/-- Whatever a poll delivers is framed exactly if the chains have room for no
more of a pending reply than the zeros it begins with. -/
theorem rx_framing_iff {mode : Overflow} {m : Machine} (reachable : Reachable mode m) :
    RxFramed m ↔ (m.dev.rxPfn ≠ 0 → ForDeliveries m.dev.rxPfn (BlankReply m.dev.rxPfn) (rxQueue m) m.mem) := by
  refine forall_congr' fun _ => forDeliveries_congr (fun entry member mem => ?_) m.mem
  rcases mem_rxQueue member with ⟨reply, held⟩ | ⟨frame, rfl⟩
  · have marked := reachable_marked reachable entry.1 held
    have frame : frameOf entry.1 entry.2 = entry.1 := by rw [frameOf, reply, if_neg Bool.false_ne_true]
    rw [DeliversFramed, BlankReply, frame]
    constructor
    · intro framed _ filled before last through
      exact (framed_reply_iff through marked).mp (framed filled before last through)
    · exact fun blank filled before last through =>
        (framed_reply_iff through marked).mpr (blank reply filled before last through)
  · refine iff_of_true (fun _ before last through => ?_) nofun
    exact framed_from_tap through rfl

theorem frame_from_tap_is_framed : RxFramed (frameWaiting bufferOffered) := by
  have reached := (frameWaiting_reached .wrapping bufferOffered).mono fun _ _ _ => trivial
  refine (rx_framing_iff (ledger_looks_on.mpr ⟨_, reached⟩)).mpr fun _ => ⟨nofun, ?_⟩
  split
  · trivial
  · exact fun _ _ => trivial

/-- The device holds an ARP reply back, and the guest offers a buffer of 2 KiB
on page one. -/
def replyOffered : Machine :=
  { replyHeld with
    dev := { replyHeld.dev with
      selectedQueue := 0
      queuePfns := replyHeld.dev.queuePfns.set 0 0x1000 Nat.zero_lt_two }
    mem := bufferOffered }

theorem replyOffered_reachable : Reachable .wrapping replyOffered := by
  have selected : Reachable .wrapping { replyHeld with dev := { replyHeld.dev with selectedQueue := 0 } } :=
    replyHeld_reachable.next trivial (show (deviceRuns .wrapping).step _ (.mmioWrite 0x0E 0) _ from ⟨0, 0, rfl, rfl⟩)
  have programmed := selected.next trivial
    (show (deviceRuns .wrapping).step _ (.mmioWrite 0x08 1) _ from ⟨0, 0, rfl, rfl⟩)
  exact programmed.next trivial
    (show (deviceRuns .wrapping).step _ (.guestWrites bufferOffered) _ from ⟨0, 0, rfl, rfl⟩)

def heldReply : List UInt8 := replyHeld.dev.arpReplyPending.getD []

/-- The ARP reply is written without a header. -/
theorem held_reply_is_not_framed :
    ¬ ∀ (mode : Overflow) (m : Machine), Reachable mode m → RxFramed m := by
  intro law
  have framed := law .wrapping replyOffered replyOffered_reachable (by decide +kernel)
  have idle : replyOffered.dev.synackPending = none := by decide +kernel
  have pending : replyOffered.dev.arpReplyPending = some heldReply := by decide +kernel
  have marked : Marked heldReply := by unfold Marked; decide +kernel
  have filled : ¬ RingEmpty bufferOffered 0x1000 := by decide +kernel
  have head : nextHead bufferOffered 0x1000 = 0 := by decide +kernel
  have ended : ((Traced.iterate (scatterRound 0x1000 heldReply) (0, heldReply.length)).run 2
      replyOffered).outcome = .done 0 := by decide +kernel
  obtain ⟨mem, fills, -⟩ := scatter_returns.mp (Traced.returns_of_run ended)
  obtain ⟨before, last, through, left⟩ := fills_iff.mp fills
  have remaining := through.poured.remaining
  rw [← left] at remaining
  rw [rxQueue, idle, pending] at framed
  have delivers : DeliversFramed 0x1000 bufferOffered heldReply false := framed.1
  rw [← head] at through
  have blank := (framed_reply_iff through marked).mp (delivers filled before last through)
  have whole : heldReply.take (Buffers.room (buffersOf 0x1000 (dealtWith before last))) = heldReply :=
    List.take_of_length_le (by omega)
  rw [whole] at blank
  exact absurd (blank 0x08 (List.mem_of_getElem? marked)) (by decide)

end TinyMachine.VirtioNet
