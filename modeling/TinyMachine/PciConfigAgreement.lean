import TinyMachine.PciConfig

/-! When the inline handlers stand in for the main ones. They drop the byte
lane of the data port, so they agree where the lane is zero or does not
matter; the functions they do not know and VFIO calls that fail or fall short
are the other differences. -/
namespace TinyMachine.PciConfig
open Lib PciRootPort VirtioNet

section Condition
variable {δ : Type} (fd : ConfigFd δ) (vfio : Option VfioPciInfo)

/-- A data read on which the lane does not matter, answered in full by whoever
is asked. -/
def PlainRead (target : Target) (lane : Fin 4) (size : Width) (state : PciState δ) : Prop :=
  match forwarded vfio target with
  | some info =>
    lane = 0 ∧ (fd.readAt (info.configRegionOffset + target.reg.toUInt16.toUInt64) size.bytes
      state.device).1.map List.length = some size.bytes
  | none =>
    target.bus = 0 →
      match slotOf target with
      | .hostBridge => target.reg ≠ 0x2C ∧ (lane = 0 ∨ target.reg ∉ [0x00, 0x04, 0x08])
      | .rootPort => lane = 0 ∧ state.rootPort.isSome
      | .virtioNet => False
      | .empty => True

/-- A data write on which the lane does not matter, and that a VFIO device
takes whole or refuses. -/
def PlainWrite (target : Target) (lane : Fin 4) (size : Width) (val : UInt32)
    (state : PciState δ) : Prop :=
  match forwarded vfio target with
  | some info =>
    lane = 0 ∧ (fd.writeAt (info.configRegionOffset + target.reg.toUInt16.toUInt64)
      (bytesLE size.bytes val) state.device).1 ∈ [none, some 0, some size.bytes]
  | none =>
    target.bus = 0 →
      match slotOf target with
      | .rootPort => lane = 0 ∨ state.rootPort = none
      | .virtioNet => ¬ (target.reg = 0x10 ∧ size = .dword) ∨ state.virtioNet = none
      | _ => True

/-- An access both copies serve alike; the address register always is. -/
def Plain (state : PciState δ) : PortAccess → Prop
  | .addressIn _ => True
  | .addressOut _ _ => True
  | .dataIn lane size => ∀ target, decode state.configAddr = some target →
      PlainRead fd vfio target lane size state
  | .dataOut lane size val => ∀ target, decode state.configAddr = some target →
      PlainWrite fd vfio target lane size val state

end Condition

section Files
variable {δ : Type} {fd : ConfigFd δ}

/-- A read answered in full at once is the whole of `read_exact_at`. -/
theorem read_exact_of_full {offset : UInt64} {len : Nat} {device : δ} (nonempty : len ≠ 0)
    (full : (fd.readAt offset len device).1.map List.length = some len) :
    ∃ bytes, bytes.length = len ∧
      fd.readAt offset len device = (some bytes, (fd.readAt offset len device).2) ∧
      readExactAt fd offset len device = (some bytes, (fd.readAt offset len device).2) := by
  rw [Option.map_eq_some_iff] at full
  obtain ⟨bytes, answered, long⟩ := full
  have result : fd.readAt offset len device = (some bytes, (fd.readAt offset len device).2) :=
    Prod.ext answered rfl
  refine ⟨bytes, long, result, ?_⟩
  have whole : bytes.take len = bytes := List.take_of_length_le (Nat.le_of_eq long)
  rw [readExactAt, if_neg nonempty, result]
  simp only [whole, long, nonempty, if_false, Nat.sub_self]
  rw [readExactAt, if_pos rfl]
  simp

/-- A write taken whole, or refused, at the first call is the whole of
`write_all_at`. -/
theorem write_all_of_once {offset : UInt64} {bytes : List UInt8} {device : δ}
    (nonempty : bytes.length ≠ 0)
    (once : (fd.writeAt offset bytes device).1 ∈ [none, some 0, some bytes.length]) :
    writeAllAt fd offset bytes device = (fd.writeAt offset bytes device).2 := by
  rw [writeAllAt, if_neg nonempty]
  generalize fd.writeAt offset bytes device = result at once ⊢
  obtain ⟨taken, after⟩ := result
  cases taken with
  | none => rfl
  | some count =>
    cases count with
    | zero => rfl
    | succ n =>
      have whole : n + 1 = bytes.length := by simpa using once
      simp only [whole, List.drop_length]
      rw [writeAllAt, if_pos List.length_nil]

end Files

private theorem lane_zero : laneOf (dataPort 0) = 0 := by decide

/-- The inline table is the host bridge seen through the first lane; the
subsystem register is missing from it. -/
theorem host_bridge_agrees (reg : UInt32) (lane : Fin 4) (known : reg ≠ 0x2C)
    (laneless : lane = 0 ∨ reg ∉ [0x00, 0x04, 0x08]) :
    hostBridgeInline reg = hostBridge.read reg (dataPort lane) := by
  rcases laneless with rfl | zero
  · simp only [Identity.read, lane_zero, hostBridgeInline, known, if_false]
    repeat' split
    all_goals rfl
  · simp only [List.mem_cons, List.not_mem_nil, or_false, not_or] at zero
    obtain ⟨notIdentity, notCommand, notClass⟩ := zero
    simp only [Identity.read, hostBridgeInline, notIdentity, notCommand, notClass, known, if_false]
    have empty : ∀ shift : UInt32, (0 : UInt32) >>> shift = 0 := by
      intro shift
      simp
    have typeless : hostBridge.hdrType <<< 16 = 0 := by decide
    have pinless : hostBridge.intPin <<< 8 = 0 := by decide
    simp only [typeless, pinless, empty, ite_self]

section Agreement
variable {δ : Type} {fd : ConfigFd δ} {vfio : Option VfioPciInfo}

theorem plain_read_agrees {target : Target} {lane : Fin 4} {size : Width} {state : PciState δ}
    (plain : PlainRead fd vfio target lane size state) :
    pciConfigReadInline fd vfio target (dataPort lane) size state =
      pciConfigRead fd vfio target (dataPort lane) size state := by
  unfold PlainRead at plain
  unfold pciConfigReadInline pciConfigRead
  cases addressed : forwarded vfio target with
  | some info =>
    simp only [addressed] at plain ⊢
    obtain ⟨rfl, full⟩ := plain
    obtain ⟨bytes, long, once, exact_⟩ := read_exact_of_full (width_positive size) full
    have unshifted : target.reg + laneOf (dataPort 0) = target.reg := by
      rw [lane_zero, UInt32.add_zero]
    have whole : min (4 - (laneOf (dataPort 0)).toNat) size.bytes = size.bytes := by
      rw [lane_zero]
      cases size <;> rfl
    simp only [VfioPciInfo.configRead, unshifted, whole, exact_]
    rw [once]
    simp only [List.take_of_length_le (Nat.le_of_eq long)]
  | none =>
    simp only [addressed] at plain ⊢
    unfold emulatedReadInline
    by_cases elsewhere : target.bus = 0
    · have plain := plain elsewhere
      simp only [elsewhere, ne_eq, not_true_eq_false, if_false]
      cases slot : slotOf target with
      | hostBridge =>
        simp only [slot] at plain ⊢
        rw [host_bridge_agrees target.reg lane plain.1 plain.2]
      | rootPort =>
        simp only [slot] at plain ⊢
        obtain ⟨rfl, present⟩ := plain
        obtain ⟨rootPort, held⟩ := Option.isSome_iff_exists.mp present
        simp only [held, lane_zero, UInt32.add_zero]
      | virtioNet => simp only [slot] at plain
      | empty => rfl
    · simp only [elsewhere, ne_eq, not_false_eq_true, if_true]

theorem plain_write_agrees {target : Target} {lane : Fin 4} {size : Width} {val : UInt32}
    {state : PciState δ} (plain : PlainWrite fd vfio target lane size val state) :
    pciConfigWriteInline fd vfio target (dataPort lane) size val state =
      pciConfigWrite fd vfio target (dataPort lane) size val state := by
  unfold PlainWrite at plain
  unfold pciConfigWriteInline pciConfigWrite
  cases addressed : forwarded vfio target with
  | some info =>
    simp only [addressed] at plain ⊢
    obtain ⟨rfl, once⟩ := plain
    rw [← bytesLE_length size val] at once
    have nonempty : (bytesLE size.bytes val).length ≠ 0 := by
      rw [bytesLE_length]
      exact width_positive size
    simp only [VfioPciInfo.configWrite, lane_zero, UInt32.add_zero]
    rw [write_all_of_once nonempty]
    simpa only [bytesLE_length] using once
  | none =>
    simp only [addressed] at plain ⊢
    by_cases elsewhere : target.bus = 0
    · have plain := plain elsewhere
      simp only [elsewhere, ne_eq, not_true_eq_false, if_false, true_and]
      cases slot : slotOf target with
      | hostBridge => rfl
      | rootPort =>
        simp only [slot] at plain ⊢
        rcases plain with rfl | absent
        · simp only [lane_zero, UInt32.add_zero, if_true]
        · simp only [absent, Option.map_none, if_true]
      | virtioNet =>
        simp only [slot] at plain ⊢
        rcases plain with small | absent
        · simp only [small, if_false, reduceCtorEq]
        · have same : ({ state with virtioNet := none } : PciState δ) = state := by
            rw [← absent]
          simp only [absent, Option.map_none, same, ite_self, reduceCtorEq, if_false]
      | empty => rfl
    · simp only [elsewhere, ne_eq, not_false_eq_true, if_true, false_and, if_false]

theorem plain_exit_agrees (state : PciState δ) (access : PortAccess)
    (plain : Plain fd vfio state access) :
    inlineExit fd vfio state access = mainExit fd vfio state access := by
  cases access with
  | addressIn size => rfl
  | addressOut size val => rfl
  | dataIn lane size =>
    simp only [inlineExit, mainExit, ioExit]
    cases decoded : decode state.configAddr with
    | none => rfl
    | some target => simp only [plain_read_agrees (plain target decoded)]
  | dataOut lane size val =>
    simp only [inlineExit, mainExit, ioExit]
    cases decoded : decode state.configAddr with
    | none => rfl
    | some target => simp only [plain_write_agrees (plain target decoded)]

/-- Along accesses that are plain where they happen, the inline handlers put
the same bytes into the data area as the main ones and leave the same state. -/
theorem inline_exits_agree (fd : ConfigFd δ) (vfio : Option VfioPciInfo)
    (accesses : List PortAccess) (state : PciState δ)
    (plain : Throughout (mainExit fd vfio) (Plain fd vfio) accesses state) :
    answers (inlineExit fd vfio) accesses state = answers (mainExit fd vfio) accesses state :=
  answers_eq_of_steps plain_exit_agrees accesses state plain

end Agreement

/-- A VFIO configuration file whose region starts at 0x6000, held as its bytes. -/
private def regionFd : ConfigFd (List UInt8) where
  readAt offset len device := (some ((device.drop (offset.toNat - 0x6000)).take len), device)
  writeAt offset bytes device :=
    let start := offset.toNat - 0x6000
    (some bytes.length, device.take start ++ bytes ++ device.drop (start + bytes.length))

private def gpu : VfioPciInfo where
  bus := 1
  devfn := 0
  configRegionOffset := 0x6000

private def bridged (device : List UInt8) : PciState (List UInt8) where
  configAddr := 0
  rootPort := some new
  virtioNet := none
  device := device

/-- Identifying the GPU, enabling it and reading the root port's identity agree. -/
theorem probing_agrees :
    let accesses := [.addressOut .dword 0x80010000, .dataIn 0 .dword, .addressOut .dword 0x80010004,
      .dataOut 0 .word 0x0007, .addressOut .dword 0x80000800, .dataIn 0 .dword]
    let device := [0xde, 0x10, 0x84, 0x26, 0x00, 0x00, 0x10, 0x00]
    answers (inlineExit regionFd (some gpu)) accesses (bridged device) =
      answers (mainExit regionFd (some gpu)) accesses (bridged device) := by
  refine inline_exits_agree regionFd (some gpu) _ _ ⟨trivial, ?_, trivial, ?_, trivial, ?_, trivial⟩
  · intro target decoded
    cases decoded
    exact ⟨rfl, rfl⟩
  · intro target decoded
    cases decoded
    exact ⟨rfl, by decide⟩
  · intro target decoded
    cases decoded
    exact fun _ => ⟨rfl, rfl⟩

/-- A word read from port 0xCFE at the root port's first register: the main path
answers the device id, the inline one the vendor id. -/
theorem lane_is_dropped :
    let accesses := [.addressOut .dword 0x80000800, .dataIn 2 .word]
    (answers (mainExit regionFd none) accesses (bridged [])).1 = [[], [0x0c, 0x00]] ∧
      (answers (inlineExit regionFd none) accesses (bridged [])).1 = [[], [0x36, 0x1b]] := by
  decide +kernel

end TinyMachine.PciConfig
