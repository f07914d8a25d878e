import TinyMachine.Lib.ByteMemory
import TinyMachine.Lib.Overflow
import TinyMachine.Lib.Traced

/-! The virtio network device: its registers, and the two paths that move
packets between guest memory and the TAP device. Guest memory is what lies at
each offset from `guest_mem`, inside the mapping or not, and every access to
it is an event of the run. -/
namespace TinyMachine.VirtioNet
open Lib

def virtioNetFMac : UInt32 := 5
def vringDescFNext : UInt16 := 1
def vringDescFWrite : UInt16 := 2
def queueSize : UInt16 := 256
def maxPacketSize : Nat := 2048
def virtioNetHdrSize : Nat := 10
def mac : List UInt8 := [0x52, 0x54, 0x00, 0x12, 0x34, 0x56]

structure VringDesc where
  addr : UInt64
  len : UInt32
  flags : UInt16
  next : UInt16

/-- The descriptor laid out at an address. -/
def VringDesc.at (mem : Memory) (address : Nat) : VringDesc where
  addr := .ofNat (mem.readLE address 8)
  len := .ofNat (mem.readLE (address + 8) 4)
  flags := .ofNat (mem.readLE (address + 12) 2)
  next := .ofNat (mem.readLE (address + 14) 2)

structure VirtioNetPci where
  selectedQueue : UInt32
  queuePfns : Vector UInt64 2
  queueSizes : Vector UInt16 2
  guestFeatures : UInt32
  deviceFeatures : UInt32
  status : UInt8
  isr : UInt8
  irqLine : UInt8
  bar0Shadow : UInt32
  tapFd : Option Int32
  nextRxIdx : UInt16
  intrPending : Bool
  synackPending : Option (List UInt8)
  arpReplyPending : Option (List UInt8)

/-- The page of the receive queue. -/
abbrev VirtioNetPci.rxPfn (dev : VirtioNetPci) : UInt64 := dev.queuePfns[0]

/-- The page of the transmit queue. -/
abbrev VirtioNetPci.txPfn (dev : VirtioNetPci) : UInt64 := dev.queuePfns[1]

def VirtioNetPci.new (mmioBase : UInt32) : VirtioNetPci where
  selectedQueue := 0
  queuePfns := #v[0, 0]
  queueSizes := #v[queueSize, queueSize]
  guestFeatures := 0
  deviceFeatures := 1 <<< virtioNetFMac
  status := 0
  isr := 0
  irqLine := 11
  bar0Shadow := mmioBase
  tapFd := none
  nextRxIdx := 0
  intrPending := false
  synackPending := none
  arpReplyPending := none

/-- One access of the device to guest memory. -/
inductive Access where
  | read (addr len : Nat)
  | write (addr len : Nat)
  deriving DecidableEq, Repr

/-- The device with what it works on: guest memory, the frames it has written
to the TAP device, and what its next reads from there will return. -/
structure Machine where
  dev : VirtioNetPci
  mem : Memory
  tapWritten : List (List UInt8)
  tapIncoming : List (List UInt8)

abbrev Guest (α : Type) := Traced Machine Access α

def readU16 (addr : Nat) : Guest UInt16 := do
  Traced.emit (.read addr 2)
  return .ofNat ((← Traced.get).mem.readLE addr 2)

def readDesc (addr : Nat) : Guest VringDesc := do
  Traced.emit (.read addr 16)
  return .at (← Traced.get).mem addr

def readBytes (addr len : Nat) : Guest (List UInt8) := do
  Traced.emit (.read addr len)
  return (← Traced.get).mem.fetch addr len

def writeBytes (addr : Nat) (bytes : List UInt8) : Guest Unit := do
  Traced.emit (.write addr bytes.length)
  Traced.modify fun m => { m with mem := m.mem.store addr bytes }

def modifyDev (change : VirtioNetPci → VirtioNetPci) : Guest Unit :=
  Traced.modify fun m => { m with dev := change m.dev }

/-- The eight bytes of a used-ring element. -/
def usedElem (id : UInt16) (len : Nat) : List UInt8 :=
  Memory.bytesLE 4 id.toNat ++ Memory.bytesLE 4 len

def availOffset (pfn : UInt64) : UInt64 := pfn + queueSize.toUInt64 * 16

/-- The used ring starts on the page behind the available ring. -/
def usedOffset (pfn : UInt64) : UInt64 :=
  let availSize := 6 + queueSize.toUInt64 * 2
  let off := pfn + queueSize.toUInt64 * 16 + availSize
  (off + 4095) &&& ~~~ 4095

def descOffset (pfn : UInt64) (dI : UInt16) : UInt64 := pfn + dI.toUInt64 * 16

/-! ## Synthetic replies -/

def be16 (high low : UInt8) : UInt16 := high.toUInt16 <<< 8 ||| low.toUInt16

/-- `bytes[start..stop]`, which panics outside. -/
def slice (bytes : List UInt8) (start stop : Nat) : Option (List UInt8) :=
  if stop ≤ bytes.length then some ((bytes.take stop).drop start) else none

/-- `bytes[start..].copy_from_slice(part)`, which panics outside. -/
def setBytes (bytes : List UInt8) (start : Nat) (part : List UInt8) : Option (List UInt8) :=
  if start + part.length ≤ bytes.length then
    some (bytes.take start ++ part ++ bytes.drop (start + part.length))
  else none

/-- The sum of a slice taken as big-endian 16-bit words. -/
def wordSum : List UInt8 → Nat
  | high :: low :: rest => (be16 high low).toNat + wordSum rest
  | [high] => (be16 high 0).toNat
  | [] => 0

def foldCarries (sum : Nat) : Nat :=
  if sum / 2 ^ 16 = 0 then sum else foldCarries (sum % 2 ^ 16 + sum / 2 ^ 16)
termination_by sum
decreasing_by omega

/-- Ones' complement checksum over a slice of bytes. -/
def checksum (data : List UInt8) : UInt16 := ~~~ UInt16.ofNat (foldCarries (wordSum data))

def highByte (word : UInt16) : UInt8 := (word >>> 8).toUInt8

/-- The SYN/ACK for an IPv4 TCP SYN to port 80 or 443; the inner `none` is any
other packet, the outer one a panic. The reply has room for a 20-byte IP
header only. -/
def craftSynack (packet : List UInt8) : Option (Option (List UInt8)) := do
  if packet.length < 54 then return none
  if (← packet[12]?) ≠ 0x08 ∨ (← packet[13]?) ≠ 0x00 then return none
  let ipIhl := (← packet[14]?) &&& 0x0F
  if ipIhl < 5 then return none
  let ipTotal := (be16 (← packet[16]?) (← packet[17]?)).toNat
  if packet.length < ipTotal then return none
  if (← packet[14 + 9]?) ≠ 6 then return none
  let tcpOff := 14 + ipIhl.toNat * 4
  if tcpOff + 20 > packet.length then return none
  let tcpFlags ← packet[tcpOff + 13]?
  if tcpFlags &&& 0x02 = 0 ∨ tcpFlags &&& 0x10 ≠ 0 then return none
  let dstPort := be16 (← packet[tcpOff + 2]?) (← packet[tcpOff + 3]?)
  if dstPort ≠ 80 ∧ dstPort ≠ 443 then return none
  let ethDst ← slice packet 0 6
  let ethSrc ← slice packet 6 12
  let ipSrc ← slice packet 26 30
  let ipDst ← slice packet 30 34
  let tcpSrcPort ← slice packet tcpOff (tcpOff + 2)
  let tcpDstPort ← slice packet (tcpOff + 2) (tcpOff + 4)
  let theirSeq ← slice packet (tcpOff + 4) (tcpOff + 8)
  let ackSeq := theirSeq.foldl (fun seq byte => seq * 256 + byte.toNat) 0 + 1
  let reply := List.replicate 54 0
  let reply ← setBytes reply 0 (ethSrc ++ ethDst ++ [0x08, 0x00])
  let reply ← setBytes reply 14 [0x45, 0, 0, 40, 0, 0, 0x40, 0, 64, 6, 0, 0]
  let reply ← setBytes reply 26 (ipDst ++ ipSrc)
  let ipCsum := checksum (← slice reply 14 34)
  let reply ← setBytes reply 24 [highByte ipCsum, ipCsum.toUInt8]
  let reply ← setBytes reply tcpOff (tcpDstPort ++ tcpSrcPort)
  let reply ← setBytes reply (tcpOff + 4) [0x10, 0, 0, 0]
  let reply ← setBytes reply (tcpOff + 8) (Memory.bytesLE 4 ackSeq).reverse
  let reply ← setBytes reply (tcpOff + 12) [0x50, 0x12, 0xFF, 0xFF, 0, 0, 0, 0]
  let tcpHeader ← slice reply tcpOff (tcpOff + 20)
  let tcpBuf := (← slice reply 26 30) ++ (← slice reply 30 34) ++ [0, 6, 0, 20] ++ tcpHeader
  let tcpCsum := checksum tcpBuf
  let reply ← setBytes reply (tcpOff + 16) [highByte tcpCsum, tcpCsum.toUInt8]
  return some reply

def gatewayMac : List UInt8 := [0xce, 0x37, 0x22, 0x5e, 0xe0, 0xb9]
def gatewayIp : List UInt8 := [10, 0, 2, 1]

/-- The reply to an ARP request for the gateway's address. -/
def arpReply (ethPkt : List UInt8) : Option (List UInt8) := do
  if ethPkt.length < 42 then none
  if (← ethPkt[12]?) ≠ 0x08 ∨ (← ethPkt[13]?) ≠ 0x06 then none
  let opcode := be16 (← ethPkt[20]?) (← ethPkt[21]?)
  if opcode ≠ 1 then none
  let tpa ← slice ethPkt 38 42
  if tpa ≠ gatewayIp then none
  let sha ← slice ethPkt 22 28
  let spa ← slice ethPkt 28 32
  return sha ++ gatewayMac ++ [0x08, 0x06, 0x00, 0x01, 0x08, 0x00, 6, 4, 0x00, 0x02] ++
    gatewayMac ++ gatewayIp ++ sha ++ spa

/-! ## Transmission -/

/-- The ports and flags of the TCP header in a long frame, read for the log at
the place the IP header length names. -/
def loggedTcpHeader (ethPkt : List UInt8) : Option (UInt16 × UInt16 × UInt8) := do
  let tcpOff := 14 + ((← ethPkt[14]?) &&& 0x0F).toNat * 4
  let tcpFlags ← ethPkt[tcpOff + 13]?
  let tcpSrc := be16 (← ethPkt[tcpOff]?) (← ethPkt[tcpOff + 1]?)
  let tcpDst := be16 (← ethPkt[tcpOff + 2]?) (← ethPkt[tcpOff + 3]?)
  return (tcpSrc, tcpDst, tcpFlags)

/-- Without a TAP device a SYN or an ARP request is answered by the device
itself, one of each kind at a time. -/
def VirtioNetPci.intercept (dev : VirtioNetPci) (ethPkt : List UInt8) : Option VirtioNetPci := do
  if dev.tapFd.isSome then return dev
  let synack ← if dev.synackPending.isNone then craftSynack ethPkt else some dev.synackPending
  let arp := if dev.arpReplyPending.isNone then arpReply ethPkt else dev.arpReplyPending
  return { dev with synackPending := synack, arpReplyPending := arp }

/-- What happens to the frame behind a header. -/
def sendFrame (ethPkt : List UInt8) : Guest Unit := do
  if 54 ≤ ethPkt.length then
    let _ ← Traced.checked (loggedTcpHeader ethPkt)
  if (← Traced.get).dev.tapFd.isSome then
    Traced.modify fun m => { m with tapWritten := m.tapWritten ++ [ethPkt] }
  let dev ← Traced.checked ((← Traced.get).dev.intercept ethPkt)
  modifyDev fun _ => dev

/-- A packet that is no longer than its header is skipped. -/
def sendPacket (packet : List UInt8) : Guest Unit :=
  if virtioNetHdrSize < packet.length then sendFrame (packet.drop virtioNetHdrSize) else pure ()

/-- One descriptor of a chain that is being sent: the bytes of a readable
buffer join the packet, as far as there is room. -/
def gatherRound (pfn : UInt64) : UInt16 × List UInt8 → Guest (UInt16 × List UInt8 ⊕ List UInt8)
  | (dI, packet) => do
    let desc ← readDesc (descOffset pfn dI).toNat
    let packet ← if desc.flags &&& vringDescFWrite = 0 then do
        let copyLen := min desc.len.toNat (maxPacketSize - packet.length)
        let bytes ← readBytes desc.addr.toNat copyLen
        pure (packet ++ bytes)
      else pure packet
    if desc.flags &&& vringDescFNext = 0 then return .inr packet
    return .inl (desc.next, packet)

/-- The loop over the outstanding chains, from the `i`-th. -/
def txChains (mode : Overflow) (pfn : UInt64) (usedIdx : UInt16) : Nat → Nat → Guest Unit
  | _, 0 => pure ()
  | i, left + 1 => do
    let slot := (← Traced.checked (mode.add16 usedIdx (.ofNat i))) % queueSize
    let descIdx ← readU16 ((availOffset pfn).toNat + 4 + slot.toNat * 2)
    let packet ← Traced.iterate (gatherRound pfn) (descIdx, [])
    sendPacket packet
    writeBytes ((usedOffset pfn).toNat + 4 + slot.toNat * 8) (usedElem descIdx packet.length)
    txChains mode pfn usedIdx (i + 1) left

def handleQueueKick (mode : Overflow) (q : Nat) : Guest Unit := do
  if q ≠ 1 then return
  let pfn := (← Traced.get).dev.txPfn
  if pfn = 0 then return
  let availIdx ← readU16 ((availOffset pfn).toNat + 2)
  let usedIdx ← readU16 ((usedOffset pfn).toNat + 2)
  let numAvail := availIdx - usedIdx
  if numAvail = 0 then return
  txChains mode pfn usedIdx 0 numAvail.toNat
  writeBytes ((usedOffset pfn).toNat + 2) (Memory.bytesLE 2 (usedIdx + numAvail).toNat)

/-! ## Reception -/

/-- One descriptor of a chain that is being filled. -/
def scatterRound (pfn : UInt64) (packet : List UInt8) : UInt16 × Nat → Guest (UInt16 × Nat ⊕ Nat)
  | (dI, remaining) => do
    if ¬ (0 < remaining ∧ dI < queueSize) then return .inr remaining
    let desc ← readDesc (descOffset pfn dI).toNat
    let copyLen := min desc.len.toNat remaining
    let remaining ← if desc.flags &&& vringDescFWrite ≠ 0 then do
        writeBytes desc.addr.toNat ((packet.drop (packet.length - remaining)).take copyLen)
        pure (remaining - copyLen)
      else pure remaining
    if desc.flags &&& vringDescFNext = 0 ∨ remaining = 0 then return .inr remaining
    return .inl (desc.next, remaining)

/-- The first descriptor is read for the log when a frame comes from the TAP
device. -/
def logFirstDesc (pfn : UInt64) (descIdx : UInt16) (fromTap : Bool) : Guest Unit := do
  if fromTap then
    let _ ← readDesc (descOffset pfn descIdx).toNat

/-- Puts a packet into the next available chain, if there is one. -/
def deliver (pfn : UInt64) (packet : List UInt8) (fromTap : Bool) : Guest Bool := do
  let availIdx ← readU16 ((availOffset pfn).toNat + 2)
  let usedIdx ← readU16 ((usedOffset pfn).toNat + 2)
  if availIdx - usedIdx = 0 then return false
  let slot := usedIdx % queueSize
  let descIdx ← readU16 ((availOffset pfn).toNat + 4 + slot.toNat * 2)
  logFirstDesc pfn descIdx fromTap
  let remaining ← Traced.iterate (scatterRound pfn packet) (descIdx, packet.length)
  writeBytes ((usedOffset pfn).toNat + 4 + slot.toNat * 8)
    (usedElem descIdx (packet.length - remaining))
  writeBytes ((usedOffset pfn).toNat + 2) (Memory.bytesLE 2 (usedIdx + 1).toNat)
  modifyDev fun dev => { dev with isr := dev.isr ||| 1 }
  return true

def isIpv6 (frame : List UInt8) : Bool := (frame.drop 12).take 2 == [0x86, 0xDD] && 14 ≤ frame.length

/-- Reads frames until nothing is left to read or no chain is available. -/
def rxFrames (pfn : UInt64) : List (List UInt8) → Guest Unit
  | [] => pure ()
  | incoming :: rest => do
    Traced.modify fun m => { m with tapIncoming := rest }
    let frame := incoming.take (maxPacketSize - virtioNetHdrSize)
    if frame = [] then return
    if isIpv6 frame then
      rxFrames pfn rest
    else
      if ← deliver pfn (List.replicate virtioNetHdrSize 0 ++ frame) true then
        rxFrames pfn rest

/-- Delivers a pending reply, which is gone afterwards either way. -/
def deliverPending (pfn : UInt64) : Option (List UInt8) → Guest Unit
  | none => pure ()
  | some reply => do
    let _ ← deliver pfn reply false

def tryRx : Guest Unit := do
  let pfn := (← Traced.get).dev.rxPfn
  if pfn = 0 then return
  let synack := (← Traced.get).dev.synackPending
  modifyDev fun dev => { dev with synackPending := none }
  deliverPending pfn synack
  let arp := (← Traced.get).dev.arpReplyPending
  modifyDev fun dev => { dev with arpReplyPending := none }
  deliverPending pfn arp
  if (← Traced.get).dev.tapFd.isSome then
    rxFrames pfn (← Traced.get).tapIncoming

/-! ## Registers -/

def VirtioNetPci.setTapFd (dev : VirtioNetPci) (fd : Int32) : VirtioNetPci := { dev with tapFd := some fd }

def VirtioNetPci.reset (dev : VirtioNetPci) : VirtioNetPci :=
  { dev with
    selectedQueue := 0
    queuePfns := #v[0, 0]
    guestFeatures := 0
    status := 0
    isr := 0
    nextRxIdx := 0
    intrPending := false }

def VirtioNetPci.mmioRead (dev : VirtioNetPci) (offset : UInt32) : UInt32 × VirtioNetPci :=
  let q := dev.selectedQueue.toNat
  match offset.toNat with
  | 0x00 => (dev.deviceFeatures, dev)
  | 0x04 => (dev.guestFeatures, dev)
  | 0x08 => (if valid : q < 2 then (dev.queuePfns[q] >>> 12).toUInt32 else 0, dev)
  | 0x0C => (if valid : q < 2 then dev.queueSizes[q].toUInt32 else 0, dev)
  | 0x0E => (dev.selectedQueue, dev)
  | 0x12 => (dev.status.toUInt32, dev)
  | 0x13 => (dev.isr.toUInt32, { dev with isr := 0, intrPending := false })
  | 0x1A => (1, dev)
  | n => (if 0x14 ≤ n then (mac[n - 0x14]?.getD 0).toUInt32 else 0, dev)

def mmioWrite (mode : Overflow) (offset val : UInt32) : Guest Unit := do
  match offset.toNat with
  | 0x04 => modifyDev fun dev => { dev with guestFeatures := val &&& dev.deviceFeatures }
  | 0x08 => modifyDev fun dev =>
      if valid : dev.selectedQueue.toNat < 2 then
        { dev with queuePfns := dev.queuePfns.set dev.selectedQueue.toNat (val.toUInt64 <<< 12) }
      else dev
  | 0x0E => modifyDev fun dev => { dev with selectedQueue := val }
  | 0x10 =>
    if valid : val.toNat < 2 then
      if (← Traced.get).dev.queuePfns[val.toNat] ≠ 0 then
        handleQueueKick mode val.toNat
  | 0x12 =>
    modifyDev fun dev =>
      let dev := { dev with status := val.toUInt8 }
      if dev.status = 0 then dev.reset else dev
  | 0x13 => modifyDev fun dev => { dev with isr := 0, intrPending := false }
  | _ => pure ()

/-! ## Snapshots -/

/-- What a snapshot keeps of the device. -/
structure VirtioNetState where
  selectedQueue : UInt32
  queuePfns : Vector UInt64 2
  queueSizes : Vector UInt16 2
  guestFeatures : UInt32
  deviceFeatures : UInt32
  status : UInt8
  isr : UInt8
  irqLine : UInt8
  bar0Shadow : UInt32
  nextRxIdx : UInt16
  intrPending : Bool
  deriving DecidableEq

def VirtioNetPci.captureState (dev : VirtioNetPci) : VirtioNetState where
  selectedQueue := dev.selectedQueue
  queuePfns := dev.queuePfns
  queueSizes := dev.queueSizes
  guestFeatures := dev.guestFeatures
  deviceFeatures := dev.deviceFeatures
  status := dev.status
  isr := dev.isr
  irqLine := dev.irqLine
  bar0Shadow := dev.bar0Shadow
  nextRxIdx := dev.nextRxIdx
  intrPending := dev.intrPending

def VirtioNetPci.fromState (state : VirtioNetState) (tapFd : Option Int32) : VirtioNetPci where
  selectedQueue := state.selectedQueue
  queuePfns := state.queuePfns
  queueSizes := state.queueSizes
  guestFeatures := state.guestFeatures
  deviceFeatures := state.deviceFeatures
  status := state.status
  isr := state.isr
  irqLine := state.irqLine
  bar0Shadow := state.bar0Shadow
  tapFd := tapFd
  nextRxIdx := state.nextRxIdx
  intrPending := state.intrPending
  synackPending := none
  arpReplyPending := none

end TinyMachine.VirtioNet
