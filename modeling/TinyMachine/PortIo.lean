import TinyMachine.PciConfig

/-! Port I/O exits. The loop that boots a VM and the loop of a forked one each
decode the exit record and answer for the ports themselves. -/
namespace TinyMachine.PortIo
open Lib PciConfig PciRootPort

/-! ## The serial port -/

structure Uart16550 where
  lcr : UInt8
  scr : UInt8
  ier : UInt8
  fcr : UInt8
  mcr : UInt8
  dll : UInt8
  dlm : UInt8
  outputBuf : List UInt8
  maxCapture : Nat
  deriving DecidableEq, Repr

namespace Uart16550

def new : Uart16550 where
  lcr := 0x03
  scr := 0x00
  ier := 0x00
  fcr := 0x00
  mcr := 0x00
  dll := 0x01
  dlm := 0x00
  outputBuf := []
  maxCapture := 2000

/-- The divisor latch stands in for the first two registers. -/
def dlab (uart : Uart16550) : Bool := uart.lcr &&& 0x80 ≠ 0

def readReg (uart : Uart16550) (offset : UInt16) : UInt8 :=
  match offset.toNat with
  | 0 => if uart.dlab then uart.dll else 0x00
  | 1 => if uart.dlab then uart.dlm else uart.ier
  | 2 => 0x01 ||| if uart.fcr &&& 0x01 ≠ 0 then 0xC0 else 0x00
  | 3 => uart.lcr
  | 4 => uart.mcr
  | 5 => 0x20 ||| 0x40
  | 6 => 0x80 ||| 0x40 ||| 0x20 ||| 0x10
  | 7 => uart.scr
  | _ => 0x00

def outputChar (uart : Uart16550) (c : UInt8) : Uart16550 :=
  if uart.outputBuf.length < uart.maxCapture then { uart with outputBuf := uart.outputBuf ++ [c] } else uart

/-- Whether a character is transmitted, and the port afterwards. -/
def writeReg (uart : Uart16550) (offset : UInt16) (value : UInt8) : Bool × Uart16550 :=
  match offset.toNat with
  | 0 => if uart.dlab then (false, { uart with dll := value }) else (true, uart.outputChar value)
  | 1 => (false, if uart.dlab then { uart with dlm := value } else { uart with ier := value })
  | 2 => (false, { uart with fcr := value })
  | 3 => (false, { uart with lcr := value })
  | 4 => (false, { uart with mcr := value })
  | 7 => (false, { uart with scr := value })
  | _ => (false, uart)

/-- The bytes of an access one after another into one register, and which of
them are transmitted. -/
def writeBytes (uart : Uart16550) (offset : UInt16) : List UInt8 → List UInt8 × Uart16550
  | [] => ([], uart)
  | byte :: rest =>
    let written := uart.writeReg offset byte
    let later := written.2.writeBytes offset rest
    (if written.1 then byte :: later.1 else later.1, later.2)

end Uart16550

/-! ## Exits -/

def com1Base : UInt16 := 0x3F8
def pciConfigAddrPort : UInt16 := 0xCF8

/-- The range of the serial port ends one behind its last register. -/
def IsUart (port : UInt16) : Prop := 0x3F8 ≤ port.toNat ∧ port.toNat ≤ 0x400

def IsPciData (port : UInt16) : Prop := 0xCFC ≤ port.toNat ∧ port.toNat ≤ 0xCFF

def IsPic (port : UInt16) : Prop :=
  (0x20 ≤ port.toNat ∧ port.toNat ≤ 0x21) ∨ (0xA0 ≤ port.toNat ∧ port.toNat ≤ 0xA1)

instance decidableIsUart (port : UInt16) : Decidable (IsUart port) := inferInstanceAs (Decidable (_ ∧ _))
instance decidableIsPciData (port : UInt16) : Decidable (IsPciData port) := inferInstanceAs (Decidable (_ ∧ _))
instance decidableIsPic (port : UInt16) : Decidable (IsPic port) := inferInstanceAs (Decidable (_ ∨ _))

/-- The lane of a data port. -/
def lane (port : UInt16) : Fin 4 := ⟨(port.toNat - 0xCFC) % 4, Nat.mod_lt _ (Nat.succ_pos 3)⟩

inductive Direction where
  | input
  | output
  deriving DecidableEq, Repr

/-- The exit record. Its data area has a unit for each repetition, of which
there is one at least. -/
structure IoExit where
  direction : Direction
  size : Width
  port : UInt16
  count : UInt32
  data : List UInt8
  whole : data.length = size.bytes * count.toNat
  positive : count ≠ 0

structure Devices (δ : Type) where
  uart : Uart16550
  pci : PciState δ

/-- What a loop made of an exit: how many bytes it took from the data area, the
bytes it put there, and what it added to the serial output. -/
structure Handled (δ : Type) where
  taken : Nat
  given : List UInt8
  serial : List UInt8
  devices : Devices δ

def Handled.moved {δ : Type} (handled : Handled δ) : Nat := handled.taken + handled.given.length

section Loops
variable {δ : Type} (fd : ConfigFd δ) (vfio : Option VfioPciInfo) (devices : Devices δ) (exit : IoExit)

/-- The exit in the loop that boots. -/
def bootIo : Handled δ :=
  let configure (access : PortAccess) := mainExit fd vfio devices.pci access
  match exit.direction with
  | .input =>
    if exit.port = pciConfigAddrPort then
      ⟨0, (configure (.addressIn exit.size)).1, [], devices⟩
    else if IsPciData exit.port then
      let answer := configure (.dataIn (lane exit.port) exit.size)
      ⟨0, answer.1, [], { devices with pci := answer.2 }⟩
    else if IsUart exit.port then
      ⟨0, List.replicate exit.size.bytes (devices.uart.readReg (exit.port - com1Base)), [], devices⟩
    else if IsPic exit.port then
      ⟨0, bytesLE exit.size.bytes 0xFFFF, [], devices⟩
    else
      -- The PIT, port B and every other port answer zero.
      ⟨0, bytesLE exit.size.bytes 0, [], devices⟩
  | .output =>
    let val := composeLE (exit.data.take exit.size.bytes)
    if exit.port = pciConfigAddrPort then
      ⟨exit.size.bytes, [], [], { devices with pci := (configure (.addressOut exit.size val)).2 }⟩
    else if IsPciData exit.port then
      ⟨exit.size.bytes, [], [], { devices with pci := (configure (.dataOut (lane exit.port) exit.size val)).2 }⟩
    else if IsUart exit.port then
      let written := devices.uart.writeBytes (exit.port - com1Base) (bytesLE exit.size.bytes val)
      ⟨exit.size.bytes, [], written.1, { devices with uart := written.2 }⟩
    else
      ⟨exit.size.bytes, [], [], devices⟩

/-- A byte that the loop of a fork answers with. There is no device to
configure. -/
def forkPort (uart : Uart16550) (port : UInt16) : UInt8 :=
  if IsPciData port then 0xFF
  else if IsUart port then uart.readReg (port - com1Base)
  else if IsPic port then 0xFF
  else 0x00

/-- The exit in the loop of a fork, whose serial output is what the port
captures. -/
def forkIo : Handled δ :=
  match exit.direction with
  | .input => ⟨0, List.replicate exit.size.bytes (forkPort devices.uart exit.port), [], devices⟩
  | .output =>
    let val := exit.data.headD 0
    let uart := if IsUart exit.port then (devices.uart.writeReg (exit.port - com1Base) val).2 else devices.uart
    ⟨1, [], uart.outputBuf.drop devices.uart.outputBuf.length, { devices with uart := uart }⟩

/-- Both loops move every byte of the exit, and neither serial output nor data
tells them apart. -/
structure Alike : Prop where
  boot : (bootIo fd vfio devices exit).moved = exit.size.bytes * exit.count.toNat
  fork : (forkIo devices exit).moved = exit.size.bytes * exit.count.toNat
  serial : (bootIo fd vfio devices exit).serial = (forkIo devices exit).serial
  given : (bootIo fd vfio devices exit).given = (forkIo devices exit).given

/-- A byte is written, and one that is transmitted can be captured. -/
def ServedOut : Prop :=
  exit.size = .byte ∧
  (exit.port = com1Base → devices.uart.dlab = false → devices.uart.outputBuf.length < devices.uart.maxCapture)

/-- No double word is read of the interrupt controllers, and the configuration
mechanism has nothing to tell. -/
def ServedIn : Prop :=
  (IsPic exit.port → exit.size ≠ .dword) ∧
  (exit.port = pciConfigAddrPort →
    bytesLE exit.size.bytes devices.pci.configAddr = List.replicate exit.size.bytes 0x00) ∧
  (IsPciData exit.port → ∀ target, decode devices.pci.configAddr = some target →
    bytesLE exit.size.bytes (pciConfigRead fd vfio target (dataPort (lane exit.port)) exit.size devices.pci).1 =
      List.replicate exit.size.bytes 0xFF)

/-- One unit that both loops serve. -/
def Served : Prop :=
  exit.count = 1 ∧
    match exit.direction with
    | .input => ServedIn fd vfio devices exit
    | .output => ServedOut devices exit

end Loops

/-! ## What an exit moves -/

section Moved
variable {δ : Type} {fd : ConfigFd δ} {vfio : Option VfioPciInfo} {devices : Devices δ} {exit : IoExit}

theorem configure_given (pci : PciState δ) :
    (mainExit fd vfio pci (.addressIn exit.size)).1.length = exit.size.bytes ∧
      (mainExit fd vfio pci (.dataIn (lane exit.port) exit.size)).1.length = exit.size.bytes := by
  refine ⟨bytesLE_length _ _, ?_⟩
  rw [mainExit, ioExit]
  split
  · exact bytesLE_length _ _
  · exact bytesLE_length _ _

/-- The loop that boots moves one unit, whatever the count. -/
theorem boot_moved : (bootIo fd vfio devices exit).moved = exit.size.bytes := by
  obtain ⟨address, data⟩ := @configure_given δ fd vfio exit devices.pci
  unfold bootIo Handled.moved
  cases exit.direction with
  | input =>
    dsimp only
    split_ifs
    · exact (Nat.zero_add _).trans address
    · exact (Nat.zero_add _).trans data
    · exact (Nat.zero_add _).trans List.length_replicate
    · exact (Nat.zero_add _).trans (bytesLE_length _ _)
    · exact (Nat.zero_add _).trans (bytesLE_length _ _)
  | output =>
    dsimp only
    split_ifs <;> rfl

/-- That of a fork moves one unit to the guest, and takes one byte from it. -/
theorem fork_moved : (forkIo devices exit).moved =
    match exit.direction with
    | .input => exit.size.bytes
    | .output => 1 := by
  unfold forkIo Handled.moved
  cases exit.direction with
  | input => exact (Nat.zero_add _).trans List.length_replicate
  | output => rfl

theorem moved_whole_iff : exit.size.bytes = exit.size.bytes * exit.count.toNat ↔ exit.count = 1 := by
  have positive := width_positive exit.size
  rw [eq_comm, Nat.mul_eq_left positive, ← UInt32.toNat_inj]
  rfl

/-! ## What a guest reads -/

theorem zeros (size : Width) : bytesLE size.bytes 0 = List.replicate size.bytes 0x00 := by
  cases size <;> rfl

theorem ones (size : Width) : bytesLE size.bytes 0xFFFFFFFF = List.replicate size.bytes 0xFF := by
  cases size <;> rfl

theorem masked_iff {size : Width} : bytesLE size.bytes 0xFFFF = List.replicate size.bytes 0xFF ↔ size ≠ .dword := by
  cases size <;> decide

theorem IsUart.apart {port : UInt16} (uart : IsUart port) :
    port ≠ pciConfigAddrPort ∧ ¬ IsPciData port ∧ ¬ IsPic port := by
  unfold IsUart at uart
  unfold IsPciData IsPic
  refine ⟨?_, by omega, by omega⟩
  rintro rfl
  exact absurd uart (by decide)

theorem given_iff (input : exit.direction = .input) :
    (bootIo fd vfio devices exit).given = (forkIo devices exit).given ↔ ServedIn fd vfio devices exit := by
  unfold bootIo forkIo ServedIn forkPort
  simp only [input]
  by_cases address : exit.port = pciConfigAddrPort
  · have data : ¬ IsPciData pciConfigAddrPort := by decide
    have uart : ¬ IsUart pciConfigAddrPort := by decide
    have pic : ¬ IsPic pciConfigAddrPort := by decide
    simp only [address, data, uart, pic, if_true, if_false, false_implies, true_implies, true_and, and_true]
    exact Iff.rfl
  by_cases data : IsPciData exit.port
  · have pic : ¬ IsPic exit.port := by
      unfold IsPciData at data
      unfold IsPic
      omega
    simp only [address, data, pic, if_true, if_false, false_implies, true_implies, true_and, mainExit, ioExit]
    cases decode devices.pci.configAddr with
    | none => simp only [ones, reduceCtorEq, false_implies, implies_true]
    | some target => simp only [Option.some.injEq, forall_eq']
  by_cases uart : IsUart exit.port
  · have pic := uart.apart.2.2
    simp only [address, data, uart, pic, if_true, if_false, false_implies, true_and]
  by_cases pic : IsPic exit.port
  · simp only [address, data, uart, pic, if_true, if_false, false_implies, true_implies, and_true, masked_iff]
  · simp only [address, data, uart, pic, if_false, false_implies, and_true, zeros]

/-! ## What a guest writes -/

theorem bytesLE_single (byte : UInt8) : bytesLE 1 (composeLE [byte]) = [byte] := by
  have composed : composeLE [byte] = byte.toUInt32 := by
    have unshifted : (0 : UInt32) ||| byte.toUInt32 <<< UInt32.ofNat (0 * 8) = byte.toUInt32 := by simp
    exact unshifted
  have low : bytesLE 1 byte.toUInt32 = [byteOf byte.toUInt32 0] := rfl
  rw [composed, low, byteOf_zero, UInt8.toUInt8_toUInt32]

/-- A character is transmitted from the first register, and only one that can
be captured is kept. -/
theorem writeReg_captures (uart : Uart16550) (offset : UInt16) (value : UInt8) :
    (uart.writeReg offset value).1 = decide (offset.toNat = 0 ∧ uart.dlab = false) ∧
      (uart.writeReg offset value).2.outputBuf.drop uart.outputBuf.length =
        if offset.toNat = 0 ∧ uart.dlab = false ∧ uart.outputBuf.length < uart.maxCapture then [value] else [] := by
  by_cases first : offset.toNat = 0
  · unfold Uart16550.writeReg Uart16550.outputChar
    cases uart.dlab with
    | true => simp [first]
    | false =>
      simp only [first, Bool.false_eq_true, if_false, true_and, and_true, decide_true]
      split <;> simp
  · have silent : (uart.writeReg offset value).1 = false ∧
        (uart.writeReg offset value).2.outputBuf = uart.outputBuf := by
      unfold Uart16550.writeReg
      split
      · next zero => exact absurd zero first
      · cases uart.dlab <;> exact ⟨rfl, rfl⟩
      all_goals exact ⟨rfl, rfl⟩
    rw [silent.1, silent.2, List.drop_length]
    simp [first]

theorem data_single (single : exit.size = .byte) (once : exit.count = 1) : ∃ byte, exit.data = [byte] := by
  refine List.length_eq_one_iff.mp ?_
  rw [exit.whole, single, once]
  rfl

theorem serial_iff (output : exit.direction = .output) (single : exit.size = .byte) (once : exit.count = 1) :
    (bootIo fd vfio devices exit).serial = (forkIo devices exit).serial ↔
      (exit.port = com1Base → devices.uart.dlab = false →
        devices.uart.outputBuf.length < devices.uart.maxCapture) := by
  obtain ⟨byte, data⟩ := data_single single once
  unfold bootIo forkIo
  simp only [output, single, data]
  by_cases uart : IsUart exit.port
  · obtain ⟨address, pci, -⟩ := uart.apart
    have first : (exit.port - com1Base).toNat = 0 ↔ exit.port = com1Base := by
      rw [← UInt16.toNat_inj]
      have base : com1Base.toNat = 0x3F8 := rfl
      have bound := exit.port.toNat_lt
      unfold IsUart at uart
      rw [UInt16.toNat_sub, base]
      omega
    obtain ⟨sent, captured⟩ := writeReg_captures devices.uart (exit.port - com1Base) byte
    have alone : List.take Width.byte.bytes [byte] = [byte] := rfl
    have bytes : bytesLE Width.byte.bytes (composeLE [byte]) = [byte] := bytesLE_single byte
    simp only [address, pci, uart, if_true, if_false, alone, bytes, Uart16550.writeBytes, List.headD_cons,
      sent, captured, first, decide_eq_true_eq]
    by_cases transmits : exit.port = com1Base ∧ devices.uart.dlab = false
    · simp [transmits]
    · have quiet : ¬ (exit.port = com1Base ∧ devices.uart.dlab = false ∧
          devices.uart.outputBuf.length < devices.uart.maxCapture) := fun all => transmits ⟨all.1, all.2.1⟩
      rw [if_neg transmits, if_neg quiet]
      exact iff_of_true rfl fun port latch => absurd ⟨port, latch⟩ transmits
  · have elsewhere : exit.port ≠ com1Base := by
      rintro same
      rw [same] at uart
      exact uart (by decide)
    simp only [uart, if_false, List.drop_length, elsewhere, false_implies, iff_true]
    split_ifs <;> rfl

/-! ## Both loops -/

/-- The loops are alike on one unit that both serve, and on nothing else. -/
theorem alike_iff (fd : ConfigFd δ) (vfio : Option VfioPciInfo) (devices : Devices δ) (exit : IoExit) :
    Alike fd vfio devices exit ↔ Served fd vfio devices exit := by
  unfold Served
  constructor
  · rintro ⟨boot, fork, serial, given⟩
    rw [boot_moved, moved_whole_iff] at boot
    refine ⟨boot, ?_⟩
    cases direction : exit.direction with
    | input => exact (given_iff direction).mp given
    | output =>
      have single : exit.size = .byte := by
        rw [fork_moved, direction, boot] at fork
        cases size : exit.size with
        | byte => rfl
        | word =>
          rw [size] at fork
          exact absurd fork (by decide)
        | dword =>
          rw [size] at fork
          exact absurd fork (by decide)
      exact ⟨single, (serial_iff direction single boot).mp serial⟩
  · rintro ⟨once, served⟩
    have boot : (bootIo fd vfio devices exit).moved = exit.size.bytes * exit.count.toNat :=
      boot_moved.trans (moved_whole_iff.mpr once)
    cases direction : exit.direction with
    | input =>
      rw [direction] at served
      refine ⟨boot, ?_, ?_, (given_iff direction).mpr served⟩
      · rw [fork_moved, direction]
        exact moved_whole_iff.mpr once
      · unfold bootIo forkIo
        simp only [direction]
        split_ifs <;> rfl
    | output =>
      rw [direction] at served
      obtain ⟨single, captured⟩ := served
      refine ⟨boot, ?_, (serial_iff direction single once).mpr captured, ?_⟩
      · rw [fork_moved, direction, single, once]
        rfl
      · unfold bootIo forkIo
        simp only [direction]
        split_ifs <;> rfl

/-- What both serve leaves the serial port the same. -/
theorem uart_alike (served : Served fd vfio devices exit) :
    (bootIo fd vfio devices exit).devices.uart = (forkIo devices exit).devices.uart := by
  obtain ⟨once, served⟩ := served
  unfold bootIo forkIo
  cases direction : exit.direction with
  | input =>
    dsimp only
    split_ifs <;> rfl
  | output =>
    rw [direction] at served
    obtain ⟨byte, data⟩ := data_single served.1 once
    have alone : List.take Width.byte.bytes [byte] = [byte] := rfl
    have bytes : bytesLE Width.byte.bytes (composeLE [byte]) = [byte] := bytesLE_single byte
    simp only [served.1, data, alone, bytes, Uart16550.writeBytes, List.headD_cons]
    by_cases uart : IsUart exit.port
    · obtain ⟨address, pci, -⟩ := uart.apart
      simp only [address, pci, uart, if_true, if_false]
    · simp only [uart, if_false]
      split_ifs <;> rfl

end Moved
/-! ## Runs -/

section Runs
variable {δ : Type} (fd : ConfigFd δ) (vfio : Option VfioPciInfo)

def bootStep (devices : Devices δ) (exit : IoExit) : (List UInt8 × List UInt8) × Devices δ :=
  let handled := bootIo fd vfio devices exit
  ((handled.given, handled.serial), handled.devices)

def forkStep (devices : Devices δ) (exit : IoExit) : (List UInt8 × List UInt8) × Devices δ :=
  let handled := forkIo devices exit
  ((handled.given, handled.serial), handled.devices)

/-- Only the serial port tells in the loop of a fork. -/
theorem forkIo_uart {one two : Devices δ} (same : one.uart = two.uart) (exit : IoExit) :
    (forkStep one exit).1 = (forkStep two exit).1 ∧ (forkStep one exit).2.uart = (forkStep two exit).2.uart := by
  unfold forkStep forkIo
  rw [same]
  cases exit.direction with
  | input => exact ⟨rfl, same⟩
  | output => exact ⟨rfl, rfl⟩

/-- From the same serial port, exits that both loops serve are answered alike in
both, with the same output. -/
theorem run_alike (exits : List IoExit) {boot fork : Devices δ} (same : boot.uart = fork.uart)
    (served : Throughout (bootStep fd vfio) (Served fd vfio) exits boot) :
    (answers (bootStep fd vfio) exits boot).1 = (answers forkStep exits fork).1 := by
  induction exits generalizing boot fork with
  | nil => rfl
  | cons exit rest ih =>
    obtain ⟨here, later⟩ := served
    obtain ⟨-, -, serial, given⟩ := (alike_iff fd vfio boot exit).mpr here
    obtain ⟨answer, uart⟩ := forkIo_uart same exit
    have first : (bootStep fd vfio boot exit).1 = (forkStep fork exit).1 := (Prod.ext given serial).trans answer
    exact congrArg₂ List.cons first (ih ((uart_alike here).trans uart) later)

end Runs

/-- Two characters in one string instruction. -/
def outsb : IoExit where
  direction := .output
  size := .byte
  port := com1Base
  count := 2
  data := [0x4F, 0x4B]
  whole := rfl
  positive := by decide

/-- No VFIO device is forwarded. -/
def noFd : ConfigFd Unit where
  readAt _ _ device := (none, device)
  writeAt _ _ device := (none, device)

def startDevices : Devices Unit := ⟨.new, ⟨0, none, none, ()⟩⟩

/-- The second character of a string instruction is lost. -/
theorem repeated_output_is_lost :
    ¬ ∀ (fd : ConfigFd Unit) (vfio : Option VfioPciInfo) (devices : Devices Unit) (exit : IoExit),
      Alike fd vfio devices exit := by
  intro law
  have moved := (law noFd none startDevices outsb).boot
  rw [boot_moved] at moved
  exact absurd moved (by decide)

end TinyMachine.PortIo
