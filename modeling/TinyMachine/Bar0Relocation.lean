import TinyMachine.InterruptLine
import TinyMachine.PortIo

/-! BAR0 of the network device: what a guest writes to it through the
configuration ports, what it reads back, and where the loops decode it. -/
namespace TinyMachine.Bar0Relocation
open Lib VirtioNet PciConfig PciRootPort InterruptLine

/-! ## The loops -/

/-- `VirtioNetPci::mmio_base` -/
def mmioBase (dev : VirtioNetPci) : UInt32 := dev.bar0Shadow &&& 0xFFFFF000

/-- The register that the loop that boots takes an access for. -/
def bootRoute (virtioNet : Option VirtioNetPci) (access : MmioExit) : Option UInt32 :=
  match virtioNet with
  | some _ => if access.InWindow then some access.offset else none
  | none => none

/-- The register that the loop of a fork takes it for. -/
def forkRoute (virtioNet : Option VirtioNetPci) (access : MmioExit) : Option UInt32 :=
  if access.InWindow then virtioNet.map fun _ => access.offset else none

/-- The function and register of BAR0, and the address register that names it. -/
def bar0Target : Target := ⟨0, 2, 0, 0x10⟩
def bar0Addr : UInt32 := 0x80001010

/-- The guest names BAR0 and reads one of its lanes. -/
def readBar0 {δ : Type} (fd : ConfigFd δ) (vfio : Option VfioPciInfo) (state : PciState δ) (lane : Fin 4)
    (size : Width) : List UInt8 :=
  (mainExit fd vfio (mainExit fd vfio state (.addressOut .dword bar0Addr)).2 (.dataIn lane size)).1

/-! ## The guest -/

/-- The address register, the register BAR0 with all that was written to it, and
the page in the last double word of these. -/
structure GuestView where
  addr : UInt32
  bar0 : UInt32
  dword : UInt32
  deriving DecidableEq, Repr

namespace GuestView

/-- The bytes of the lanes are replaced. -/
def merge (old : UInt32) (lane size : Nat) (val : UInt32) : UInt32 :=
  composeLE ((List.range 4).map fun k => if lane ≤ k ∧ k < lane + size then byteOf val (k - lane) else byteOf old k)

/-- A BAR of one page keeps no bit below. -/
def step (view : GuestView) : PortAccess → GuestView
  | .addressOut _ val => { view with addr := val }
  | .dataOut lane size val =>
    if decode view.addr = some bar0Target then
      { view with
        bar0 := merge view.bar0 lane size.bytes val &&& 0xFFFFF000
        dword := if size = .dword then val &&& 0xFFFFF000 else view.dword }
    else
      view
  | _ => view

end GuestView

/-- An access goes to the register at its distance from the base, in the page
there, and elsewhere to none. -/
def decoded (base : UInt32) (access : MmioExit) : Option UInt32 :=
  if base.toNat ≤ access.physAddr.toNat ∧ access.physAddr.toNat < base.toNat + 0x1000 then
    some (access.physAddr - base.toUInt64).toUInt32
  else
    none

/-- Both loops decode the page that BAR0 is set to, and it reads as written. -/
structure Honoured {δ : Type} (fd : ConfigFd δ) (vfio : Option VfioPciInfo) (state : PciState δ)
    (view : GuestView) : Prop where
  boot : ∀ dev access, state.virtioNet = some dev → bootRoute state.virtioNet access = decoded (mmioBase dev) access
  fork : ∀ dev access, state.virtioNet = some dev → forkRoute state.virtioNet access = decoded (mmioBase dev) access
  read : ∀ (lane : Fin 4) (size : Width), lane.val + size.bytes ≤ 4 →
    readBar0 fd vfio state lane size = ((bytesLE 4 view.bar0).drop lane).take size.bytes

/-- A VFIO device is forwarded behind the root port only. -/
def BehindRootPort (vfio : Option VfioPciInfo) : Prop := ∀ info, vfio = some info → info.bus = 1 ∧ info.devfn = 0

/-! ## What the loop tracks -/

def window : UInt32 := .ofNat FreshBackend.virtioMmioAddr

/-- The shadow is the page of the last double word. -/
structure Tracks {δ : Type} (state : PciState δ) (view : GuestView) : Prop where
  addr : state.configAddr = view.addr
  shadow : ∃ dev, state.virtioNet = some dev ∧ dev.bar0Shadow = view.dword
  page : view.dword &&& 0xFFFFF000 = view.dword

section Tracking
variable {δ : Type} {fd : ConfigFd δ} {vfio : Option VfioPciInfo} {state : PciState δ} {view : GuestView}

theorem not_forwarded (behind : BehindRootPort vfio) : forwarded vfio bar0Target = none := by
  rw [forwarded, Option.filter_eq_none_iff]
  intro info there
  rw [decide_eq_true_eq, (behind info there).1]
  exact fun both => absurd both.1 (by decide)

theorem masked_again (val : UInt32) : (val &&& 0xFFFFF000) &&& 0xFFFFF000 = val &&& 0xFFFFF000 := by
  rw [UInt32.and_assoc, UInt32.and_self]

/-- A page has no low bits to put into another. -/
theorem masked_or_page {page : UInt32} (aligned : page &&& 0xFFFFF000 = page) (val : UInt32) :
    (val &&& 0xFFFFF000) ||| (page &&& 0x00000FFF) = val &&& 0xFFFFF000 := by
  have apart : (0xFFFFF000 : UInt32) &&& 0x00000FFF = 0 := by decide
  rw [← aligned, UInt32.and_assoc, apart, UInt32.and_zero, UInt32.or_zero]

theorem virtio_slot {target : Target} (bus : target.bus = 0) (slot : slotOf target = .virtioNet)
    (reg : target.reg = 0x10) : target = bar0Target := by
  obtain ⟨_, dev, func, _⟩ := target
  obtain rfl : _ = 0 := bus
  obtain rfl : _ = 0x10 := reg
  unfold slotOf at slot
  dsimp only at slot
  split at slot
  · cases slot
  · cases slot
  · next two zero =>
    have two : dev = 2 := UInt8.toNat_inj.mp two
    have zero : func = 0 := UInt8.toNat_inj.mp zero
    rw [two, zero, bar0Target]
  · cases slot

/-- Writes elsewhere leave the device alone. -/
theorem write_elsewhere {target : Target} {port : UInt16} {size : Width} {val : UInt32}
    (other : ¬ (target = bar0Target ∧ size = .dword)) :
    (pciConfigWrite fd vfio target port size val state).virtioNet = state.virtioNet := by
  unfold pciConfigWrite
  split
  · rfl
  by_cases bus : target.bus = 0
  · rw [if_neg (not_not.mpr bus)]
    split
    · rfl
    · next slot =>
      split
      · next bar => exact absurd ⟨virtio_slot bus slot bar.1, bar.2⟩ other
      · rfl
    · rfl
  · rw [if_pos bus]

theorem write_addr {target : Target} {port : UInt16} {size : Width} {val : UInt32} :
    (pciConfigWrite fd vfio target port size val state).configAddr = state.configAddr := by
  unfold pciConfigWrite
  split
  · rfl
  split
  · rfl
  split
  · rfl
  · split <;> rfl
  · rfl

theorem read_keeps {target : Target} {port : UInt16} {size : Width} :
    (pciConfigRead fd vfio target port size state).2.virtioNet = state.virtioNet ∧
      (pciConfigRead fd vfio target port size state).2.configAddr = state.configAddr := by
  unfold pciConfigRead
  split
  · exact ⟨rfl, rfl⟩
  split
  · exact ⟨rfl, rfl⟩
  split
  · exact ⟨rfl, rfl⟩
  · split <;> exact ⟨rfl, rfl⟩
  · exact ⟨rfl, rfl⟩
  · exact ⟨rfl, rfl⟩

/-- A double word to BAR0 is shadowed. -/
theorem write_bar0 (behind : BehindRootPort vfio) {port : UInt16} {val : UInt32} :
    (pciConfigWrite fd vfio bar0Target port .dword val state).virtioNet = state.virtioNet.map fun net =>
      { net with bar0Shadow := (val &&& 0xFFFFF000) ||| (net.bar0Shadow &&& 0x00000FFF) } := by
  unfold pciConfigWrite
  rw [not_forwarded behind]
  rfl

theorem Tracks.step (behind : BehindRootPort vfio) (tracks : Tracks state view) (access : PortAccess) :
    Tracks (mainExit fd vfio state access).2 (view.step access) := by
  obtain ⟨addr, ⟨dev, present, shadow⟩, page⟩ := tracks
  cases access with
  | addressIn size => exact ⟨addr, ⟨dev, present, shadow⟩, page⟩
  | addressOut size val => exact ⟨rfl, ⟨dev, present, shadow⟩, page⟩
  | dataIn lane size =>
    rw [mainExit, ioExit]
    split
    · exact ⟨read_keeps.2.trans addr, ⟨dev, read_keeps.1.trans present, shadow⟩, page⟩
    · exact ⟨addr, ⟨dev, present, shadow⟩, page⟩
  | dataOut lane size val =>
    rw [mainExit, ioExit, GuestView.step, addr]
    cases named : decode view.addr with
    | none => exact ⟨addr, ⟨dev, present, shadow⟩, page⟩
    | some target =>
      by_cases bar0 : target = bar0Target
      · rw [bar0, if_pos rfl]
        by_cases dword : size = .dword
        · subst dword
          have shadowed := @write_bar0 δ fd vfio state behind (dataPort lane) val
          rw [present, Option.map_some, shadow, masked_or_page page] at shadowed
          exact ⟨write_addr.trans addr, ⟨_, shadowed, rfl⟩, masked_again val⟩
        · have kept : (pciConfigWrite fd vfio bar0Target (dataPort lane) size val state).virtioNet = state.virtioNet :=
            write_elsewhere fun both => dword both.2
          exact ⟨write_addr.trans addr, ⟨dev, kept.trans present, by rw [if_neg dword]; exact shadow⟩,
            by rw [if_neg dword]; exact page⟩
      · have kept : (pciConfigWrite fd vfio target (dataPort lane) size val state).virtioNet = state.virtioNet :=
          write_elsewhere fun both => bar0 both.1
        rw [if_neg fun same => bar0 (Option.some.inj same)]
        exact ⟨write_addr.trans addr, ⟨dev, kept.trans present, shadow⟩, page⟩

theorem Tracks.run (behind : BehindRootPort vfio) (tracks : Tracks state view) (accesses : List PortAccess) :
    Tracks (answers (mainExit fd vfio) accesses state).2 (accesses.foldl GuestView.step view) := by
  induction accesses generalizing state view with
  | nil => exact tracks
  | cons access rest ih => exact ih (tracks.step behind access)

end Tracking

/-! ## Bytes that are read -/

theorem bytes_injective {one two : UInt32} (same : bytesLE 4 one = bytesLE 4 two) : one = two := by
  have byte (k : Nat) (low : k < 4) : byteOf one k = byteOf two k := by
    have there := congrArg (fun bytes : List UInt8 => bytes[k]?) same
    simpa [bytesLE, low] using there
  have digit (k : Nat) (low : k < 4) : one.toNat / 2 ^ (8 * k) % 256 = two.toNat / 2 ^ (8 * k) % 256 := by
    rw [← byteOf_toNat low, ← byteOf_toNat low, byte k low]
  have first := digit 0 (by decide)
  have second := digit 1 (by decide)
  have third := digit 2 (by decide)
  have fourth := digit 3 (by decide)
  have bound := one.toNat_lt
  have also := two.toNat_lt
  refine UInt32.toNat_inj.mp ?_
  omega

theorem byteOf_shift {val : UInt32} {lane k : Nat} (inside : lane + k < 4) :
    byteOf (val >>> UInt32.ofNat (8 * lane)) k = byteOf val (lane + k) := by
  have shift : (UInt32.ofNat (8 * lane)).toNat % 32 = 8 * lane := by
    rw [UInt32.toNat_ofNat']
    omega
  refine UInt8.toNat_inj.mp ?_
  rw [byteOf_toNat (by omega), byteOf_toNat inside, UInt32.toNat_shiftRight, shift, Nat.shiftRight_eq_div_pow,
    Nat.div_div_eq_div_mul, ← Nat.pow_add, ← Nat.mul_add]

theorem read_lane {val : UInt32} {lane : Fin 4} {size : Width} (inside : lane.val + size.bytes ≤ 4) :
    bytesLE size.bytes (val >>> (laneOf (dataPort lane) * 8)) = ((bytesLE 4 val).drop lane).take size.bytes := by
  have shift : ∀ lane : Fin 4, laneOf (dataPort lane) * 8 = UInt32.ofNat (8 * lane.val) := by decide
  have four : size.bytes ≤ 4 := by omega
  rw [shift, bytesLE, bytesLE, Nat.min_eq_left four]
  refine List.ext_getElem ?_ fun k one two => ?_
  · simp
    omega
  · simp only [List.length_map, List.length_range] at one
    simp only [List.getElem_map, List.getElem_range, List.getElem_take, List.getElem_drop]
    exact byteOf_shift (by omega)

section Decoding
variable {δ : Type} {fd : ConfigFd δ} {vfio : Option VfioPciInfo} {state : PciState δ} {view : GuestView}
  {dev : VirtioNetPci} {base : UInt32}

theorem readBar0_eq (behind : BehindRootPort vfio) (present : state.virtioNet = some dev) (lane : Fin 4)
    (size : Width) :
    readBar0 fd vfio state lane size = bytesLE size.bytes (dev.bar0Shadow >>> (laneOf (dataPort lane) * 8)) := by
  have names : decode bar0Addr = some bar0Target := by decide
  unfold readBar0 mainExit ioExit
  simp only [names, pciConfigRead, not_forwarded behind]
  rw [present]
  rfl

/-- The windows of both loops are the page at one base alone. -/
theorem window_iff : (∀ access : MmioExit, (if access.InWindow then some access.offset else none) = decoded base access) ↔
    base = window := by
  have place : window.toNat = FreshBackend.virtioMmioAddr := rfl
  constructor
  · intro same
    have here := same ⟨.ofNat FreshBackend.virtioMmioAddr, 4, false, Vector.replicate 8 0⟩
    have inside : MmioExit.InWindow ⟨.ofNat FreshBackend.virtioMmioAddr, 4, false, Vector.replicate 8 0⟩ := by decide
    have first : MmioExit.offset ⟨.ofNat FreshBackend.virtioMmioAddr, 4, false, Vector.replicate 8 0⟩ = 0 := by decide
    rw [if_pos inside, first, decoded] at here
    split at here
    · next page =>
      have apart := congrArg UInt32.toNat (Option.some.inj here)
      have addr : (UInt64.ofNat FreshBackend.virtioMmioAddr).toNat = FreshBackend.virtioMmioAddr := rfl
      have zero : (0 : UInt32).toNat = 0 := rfl
      rw [zero, UInt64.toNat_toUInt32, UInt64.toNat_sub, UInt32.toNat_toUInt64, addr] at apart
      rw [addr] at page
      have bound := base.toNat_lt
      have least : FreshBackend.virtioMmioAddr = 0xFEBF0000 := rfl
      refine UInt32.toNat_inj.mp ?_
      rw [place]
      omega
    · cases here
  · rintro rfl access
    rw [decoded, place]
    rfl

theorem honoured_tracked (behind : BehindRootPort vfio) (tracks : Tracks state view) :
    Honoured fd vfio state view ↔ view.bar0 = window ∧ view.dword = window := by
  obtain ⟨-, ⟨dev, present, shadow⟩, page⟩ := tracks
  have base : mmioBase dev = view.dword := by rw [mmioBase, shadow, page]
  constructor
  · rintro ⟨boot, -, read⟩
    have decodes : view.dword = window := by
      refine base.symm.trans (window_iff.mp fun access => ?_)
      rw [← boot dev access present, present]
      rfl
    have back := read 0 .dword (by decide)
    rw [readBar0_eq behind present, read_lane (by decide)] at back
    have same : dev.bar0Shadow = view.bar0 := bytes_injective back
    exact ⟨same.symm.trans (shadow.trans decodes), decodes⟩
  · rintro ⟨written, decodes⟩
    refine ⟨fun other access there => ?_, fun other access there => ?_, fun lane size inside => ?_⟩
    · obtain rfl := Option.some.inj (present.symm.trans there)
      rw [present, base]
      exact window_iff.mpr decodes access
    · obtain rfl := Option.some.inj (present.symm.trans there)
      rw [present, base]
      exact window_iff.mpr decodes access
    · rw [readBar0_eq behind present, read_lane inside, shadow, decodes, written]

/-- The state in which a VM is booted, and the guest that has written nothing. -/
def AtBoot (state : PciState δ) : Prop := ∃ dev, state.virtioNet = some dev ∧ dev.bar0Shadow = window

def viewAtBoot (state : PciState δ) : GuestView := ⟨state.configAddr, window, window⟩

/-- After any accesses BAR0 is honoured exactly if what was written amounts to
the address it had, and so does the last double word. -/
theorem honoured_iff (behind : BehindRootPort vfio) (booted : AtBoot state) (accesses : List PortAccess) :
    Honoured fd vfio (answers (mainExit fd vfio) accesses state).2
        (accesses.foldl GuestView.step (viewAtBoot state)) ↔
      (accesses.foldl GuestView.step (viewAtBoot state)).bar0 = window ∧
        (accesses.foldl GuestView.step (viewAtBoot state)).dword = window :=
  have start : Tracks state (viewAtBoot state) := ⟨rfl, booted, (by decide : window &&& 0xFFFFF000 = window)⟩
  honoured_tracked behind (start.run behind accesses)

end Decoding

/-- The guest names BAR0, asks for its size, and puts it back. -/
def sizing : List PortAccess :=
  [ .addressOut .dword bar0Addr,
    .dataOut (PortIo.lane 0xCFC) .dword 0xFFFFFFFF,
    .dataIn (PortIo.lane 0xCFC) .dword,
    .dataOut (PortIo.lane 0xCFC) .dword 0xFEBF0000 ]

/-- The guest moves BAR0. -/
def moving : List PortAccess :=
  [ .addressOut .dword bar0Addr,
    .dataOut (PortIo.lane 0xCFC) .dword 0xE0000000 ]

def bootState : PciState Unit := ⟨0, none, some (.new window), ()⟩

def noFd : ConfigFd Unit where
  readAt _ _ device := (none, device)
  writeAt _ _ device := (none, device)

theorem sizing_honoured_iff :
    Honoured noFd none (answers (mainExit noFd none) sizing bootState).2
        (sizing.foldl GuestView.step (viewAtBoot bootState)) ↔
      (sizing.foldl GuestView.step (viewAtBoot bootState)).bar0 = window ∧
        (sizing.foldl GuestView.step (viewAtBoot bootState)).dword = window :=
  honoured_iff (fun _ none => by cases none) ⟨_, rfl, rfl⟩ sizing

/-- What is sized and put back is honoured. -/
example : (sizing.foldl GuestView.step (viewAtBoot bootState)) = ⟨bar0Addr, window, window⟩ := by decide

/-- The loops go on at the old address when BAR0 is moved. -/
theorem moved_bar0_is_not_decoded :
    ¬ ∀ (fd : ConfigFd Unit) (vfio : Option VfioPciInfo) (state : PciState Unit) (accesses : List PortAccess),
      BehindRootPort vfio → AtBoot state →
        Honoured fd vfio (answers (mainExit fd vfio) accesses state).2
          (accesses.foldl GuestView.step (viewAtBoot state)) := by
  intro law
  obtain ⟨boot, -, -⟩ := law noFd none bootState moving (fun _ none => by cases none) ⟨_, rfl, rfl⟩
  have here := boot { VirtioNetPci.new window with bar0Shadow := 0xE0000000 }
    ⟨.ofNat FreshBackend.virtioMmioAddr, 4, false, Vector.replicate 8 0⟩ rfl
  revert here
  decide

end TinyMachine.Bar0Relocation
