import TinyMachine.Lib.Transducer
import TinyMachine.PciRootPort
import TinyMachine.VirtioNet

/-! The two copies of PCI configuration mechanism #1: the exits of the main
run loop, and the inline handlers used while the VBIOS runs. Both decode the
address register alike and then ask the host bridge, the root port or the
forwarded VFIO device. -/
namespace TinyMachine.PciConfig
open Lib PciRootPort VirtioNet

/-- The widths of a port access. -/
inductive Width where
  | byte
  | word
  | dword
  deriving DecidableEq, Repr

def Width.bytes : Width → Nat
  | .byte => 1
  | .word => 2
  | .dword => 4

/-- The file a VFIO device's configuration space is read and written through.
A call fails, or moves some of the bytes asked for, and may change the device;
calls are taken as not interrupted by a signal. -/
structure ConfigFd (δ : Type) where
  readAt : UInt64 → Nat → δ → Option (List UInt8) × δ
  writeAt : UInt64 → List UInt8 → δ → Option Nat × δ

structure VfioPciInfo where
  bus : UInt8
  devfn : UInt8
  configRegionOffset : UInt64
  deriving DecidableEq, Repr

/-- What the address register names. -/
structure Target where
  bus : UInt8
  dev : UInt8
  func : UInt8
  reg : UInt32
  deriving DecidableEq, Repr

def Target.devfn (target : Target) : UInt8 :=
  (target.dev <<< 3) ||| target.func

structure PciState (δ : Type) where
  configAddr : UInt32
  rootPort : Option PcieRootPort
  virtioNet : Option VirtioNetPci
  device : δ

/-- The bytes of a read, lowest first, as one value. -/
def composeLE (bytes : List UInt8) : UInt32 :=
  (bytes.take 4).zipIdx.foldl
    (fun val entry => val ||| (entry.1.toUInt32 <<< UInt32.ofNat (entry.2 * 8))) 0

/-- The low bytes of a value, lowest first. -/
def bytesLE (size : Nat) (val : UInt32) : List UInt8 :=
  (List.range (min size 4)).map (byteOf val)

theorem width_positive (size : Width) : size.bytes ≠ 0 := by
  cases size <;> decide

theorem bytesLE_length (size : Width) (val : UInt32) :
    (bytesLE size.bytes val).length = size.bytes := by
  cases size <;> rfl

section Vfio
variable {δ : Type} (fd : ConfigFd δ)

/-- One positioned read; a failed one answers zero and a short one leaves zeros. -/
def VfioPciInfo.configRead (info : VfioPciInfo) (offset : UInt16) (len : Nat) (device : δ) :
    UInt32 × δ :=
  match fd.readAt (info.configRegionOffset + offset.toUInt64) len device with
  | (none, after) => (0, after)
  | (some bytes, after) => (composeLE (bytes.take len), after)

def VfioPciInfo.configWrite (info : VfioPciInfo) (offset : UInt16) (len : Nat) (val : UInt32)
    (device : δ) : δ :=
  (fd.writeAt (info.configRegionOffset + offset.toUInt64) (bytesLE len val) device).2

/-- `read_exact_at`: read on until every byte is there, or a call fails or moves
nothing. -/
def readExactAt (offset : UInt64) (len : Nat) (device : δ) : Option (List UInt8) × δ :=
  if len = 0 then
    (some [], device)
  else
    match fd.readAt offset len device with
    | (none, after) => (none, after)
    | (some bytes, after) =>
      if (bytes.take len).length = 0 then
        (none, after)
      else
        let got := bytes.take len
        let rest := readExactAt (offset + .ofNat got.length) (len - got.length) after
        (rest.1.map (got ++ ·), rest.2)
  termination_by len
  decreasing_by omega

/-- `write_all_at`: write on until every byte is taken, or a call fails or takes
nothing. -/
def writeAllAt (offset : UInt64) (bytes : List UInt8) (device : δ) : δ :=
  if bytes.length = 0 then
    device
  else
    match fd.writeAt offset bytes device with
    | (none, after) => after
    | (some 0, after) => after
    | (some (n + 1), after) =>
      writeAllAt (offset + .ofNat (n + 1)) (bytes.drop (n + 1)) after
  termination_by bytes.length
  decreasing_by simp only [List.length_drop]; omega

end Vfio

/-- The VFIO device, when the target is the one it is forwarded for. -/
def forwarded (vfio : Option VfioPciInfo) (target : Target) : Option VfioPciInfo :=
  vfio.filter fun info => target.bus = info.bus ∧ target.devfn = info.devfn

/-- The byte lane of a data port. -/
def laneOf (port : UInt16) : UInt32 := (port &&& 3).toUInt32

/-- The registers of an emulated function that has no storage. -/
structure Identity where
  vendor : UInt32
  device : UInt32
  classCode : UInt32
  hdrType : UInt32
  subId : UInt32
  intPin : UInt32

def hostBridge : Identity where
  vendor := 0x8086
  device := 0x7000
  classCode := 0x060000
  hdrType := 0x00
  subId := 0x0000
  intPin := 0

def isaBridge : Identity where
  vendor := 0x8086
  device := 0x7010
  classCode := 0x060100
  hdrType := 0x80
  subId := 0x0000
  intPin := 1

def Identity.read (identity : Identity) (reg : UInt32) (port : UInt16) : UInt32 :=
  let shift := laneOf port * 8
  if reg = 0x00 then ((identity.device <<< 16) ||| identity.vendor) >>> shift
  else if reg = 0x04 then (0x00100007 : UInt32) >>> shift
  else if reg = 0x08 then identity.classCode >>> shift
  else if reg = 0x0C then (identity.hdrType <<< 16) >>> shift
  else if 0x10 ≤ reg ∧ reg ≤ 0x24 then 0
  else if reg = 0x2C then ((identity.subId <<< 16) ||| identity.vendor) >>> shift
  else if reg = 0x30 then 0
  else if reg = 0x34 then 0
  else if reg = 0x3C then (identity.intPin <<< 8) >>> shift
  else 0

/-- The virtio-net function as the main path shows it. -/
def virtioNetRead (virtioNet : Option VirtioNetPci) (reg : UInt32) (port : UInt16) : UInt32 :=
  let shift := laneOf port * 8
  if reg = 0x00 then (((0x1000 : UInt32) <<< 16) ||| 0x1af4) >>> shift
  else if reg = 0x04 then (0x00100003 : UInt32) >>> shift
  else if reg = 0x08 then (0x020000 : UInt32) >>> shift
  else if reg = 0x0C then ((0x00 : UInt32) <<< 16) >>> shift
  else if reg = 0x10 then ((virtioNet.map (·.bar0Shadow)).getD 0xFEBF0000) >>> shift
  else if 0x14 ≤ reg ∧ reg ≤ 0x24 then 0
  else if reg = 0x2C then (((0x0001 : UInt32) <<< 16) ||| 0x1af4) >>> shift
  else if reg = 0x30 then 0
  else if reg = 0x34 then 0
  else if reg = 0x3C then
    match virtioNet with
    | some net => (((1 : UInt32) <<< 8) ||| net.irqLine.toUInt32) >>> shift
    | none => 0
  else 0

/-- The functions of bus 0 that either copy knows. -/
inductive Slot where
  | hostBridge
  | rootPort
  | virtioNet
  | empty
  deriving DecidableEq, Repr

def slotOf (target : Target) : Slot :=
  match target.dev.toNat, target.func.toNat with
  | 0, 0 => .hostBridge
  | 1, 0 => .rootPort
  | 2, 0 => .virtioNet
  | _, _ => .empty

section Handlers
variable {δ : Type} (fd : ConfigFd δ) (vfio : Option VfioPciInfo)

def pciConfigRead (target : Target) (port : UInt16) (size : Width) (state : PciState δ) :
    UInt32 × PciState δ :=
  match forwarded vfio target with
  | some info =>
    let offset := (target.reg + laneOf port).toUInt16
    let len := min (4 - (laneOf port).toNat) size.bytes
    let read := info.configRead fd offset len state.device
    (read.1, { state with device := read.2 })
  | none =>
    if target.bus ≠ 0 then
      (0xFFFFFFFF, state)
    else
      match slotOf target with
      | .hostBridge => (hostBridge.read target.reg port, state)
      | .rootPort =>
        match state.rootPort with
        | some rootPort => (rootPort.configRead (target.reg + laneOf port).toUInt16 4, state)
        | none => (isaBridge.read target.reg port, state)
      | .virtioNet => (virtioNetRead state.virtioNet target.reg port, state)
      | .empty => (0xFFFFFFFF, state)

def pciConfigWrite (target : Target) (port : UInt16) (size : Width) (val : UInt32)
    (state : PciState δ) : PciState δ :=
  match forwarded vfio target with
  | some info =>
    let offset := (target.reg + laneOf port).toUInt16
    { state with device := info.configWrite fd offset size.bytes val state.device }
  | none =>
    if target.bus ≠ 0 then
      state
    else
      match slotOf target with
      | .rootPort =>
        let offset := (target.reg + laneOf port).toUInt16
        let written := fun rootPort : PcieRootPort => (rootPort.configWrite offset size.bytes val).2
        { state with rootPort := state.rootPort.map written }
      | .virtioNet =>
        -- Only a dword write of BAR0 is shadowed; the low twelve bits stay.
        if target.reg = 0x10 ∧ size = .dword then
          let shadowed := fun net : VirtioNetPci => { net with
            bar0Shadow := (val &&& 0xFFFFF000) ||| (net.bar0Shadow &&& 0x00000FFF) }
          { state with virtioNet := state.virtioNet.map shadowed }
        else
          state
      | _ => state

/-- The inline copy of the host bridge. -/
def hostBridgeInline (reg : UInt32) : UInt32 :=
  if reg = 0x00 then 0x70008086
  else if reg = 0x04 then 0x00100007
  else if reg = 0x08 then 0x00060000
  else if reg = 0x0C then 0x00000000
  else 0

/-- What the inline copy answers where no VFIO device does. -/
def emulatedReadInline (target : Target) (state : PciState δ) : UInt32 :=
  if target.bus ≠ 0 then
    0xFFFFFFFF
  else
    match slotOf target with
    | .hostBridge => hostBridgeInline target.reg
    | .rootPort =>
      match state.rootPort with
      | some rootPort => rootPort.configRead target.reg.toUInt16 4
      | none => 0xFFFFFFFF
    | _ => 0xFFFFFFFF

/-- The port is taken and not looked at. A VFIO read that fails falls through to
the emulated devices. -/
def pciConfigReadInline (target : Target) (_port : UInt16) (size : Width) (state : PciState δ) :
    UInt32 × PciState δ :=
  match forwarded vfio target with
  | some info =>
    match readExactAt fd (info.configRegionOffset + target.reg.toUInt16.toUInt64) size.bytes
        state.device with
    | (some bytes, device) => (composeLE bytes, { state with device := device })
    | (none, device) =>
      (emulatedReadInline target { state with device := device }, { state with device := device })
  | none => (emulatedReadInline target state, state)

def pciConfigWriteInline (target : Target) (_port : UInt16) (size : Width) (val : UInt32)
    (state : PciState δ) : PciState δ :=
  match forwarded vfio target with
  | some info =>
    let offset := info.configRegionOffset + target.reg.toUInt16.toUInt64
    { state with device := writeAllAt fd offset (bytesLE size.bytes val) state.device }
  | none =>
    if target.bus = 0 ∧ slotOf target = .rootPort then
      let offset := target.reg.toUInt16
      let written := fun rootPort : PcieRootPort => (rootPort.configWrite offset size.bytes val).2
      { state with rootPort := state.rootPort.map written }
    else
      state

end Handlers

/-- The accesses of the mechanism: the address register, and the data ports
0xCFC to 0xCFF by their lane. -/
inductive PortAccess where
  | addressIn (size : Width)
  | addressOut (size : Width) (val : UInt32)
  | dataIn (lane : Fin 4) (size : Width)
  | dataOut (lane : Fin 4) (size : Width) (val : UInt32)
  deriving DecidableEq, Repr

def pciConfigPortStart : UInt16 := 0xCFC

def dataPort (lane : Fin 4) : UInt16 := pciConfigPortStart + .ofNat lane

/-- The enable bit of the address register, and the function and register it names. -/
def decode (addr : UInt32) : Option Target :=
  if addr &&& 0x80000000 ≠ 0 then
    some {
      bus := ((addr >>> 16) &&& 0xFF).toUInt8
      dev := ((addr >>> 11) &&& 0x1F).toUInt8
      func := ((addr >>> 8) &&& 0x07).toUInt8
      reg := addr &&& 0xFC }
  else
    none

section Exits
variable {δ : Type}

/-- An I/O exit on these ports over a pair of handlers: the bytes put into the
exit's data area, and the state left behind. -/
def ioExit (read : Target → UInt16 → Width → PciState δ → UInt32 × PciState δ)
    (write : Target → UInt16 → Width → UInt32 → PciState δ → PciState δ)
    (state : PciState δ) : PortAccess → List UInt8 × PciState δ
  | .addressIn size => (bytesLE size.bytes state.configAddr, state)
  | .addressOut _ val => ([], { state with configAddr := val })
  | .dataIn lane size =>
    match decode state.configAddr with
    | some target =>
      let answer := read target (dataPort lane) size state
      (bytesLE size.bytes answer.1, answer.2)
    | none => (bytesLE size.bytes 0xFFFFFFFF, state)
  | .dataOut lane size val =>
    match decode state.configAddr with
    | some target => ([], write target (dataPort lane) size val state)
    | none => ([], state)

variable (fd : ConfigFd δ) (vfio : Option VfioPciInfo)

def mainExit : PciState δ → PortAccess → List UInt8 × PciState δ :=
  ioExit (pciConfigRead fd vfio) (pciConfigWrite fd vfio)

def inlineExit : PciState δ → PortAccess → List UInt8 × PciState δ :=
  ioExit (pciConfigReadInline fd vfio) (pciConfigWriteInline fd vfio)

end Exits
end TinyMachine.PciConfig
