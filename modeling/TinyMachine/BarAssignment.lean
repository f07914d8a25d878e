import TinyMachine.DeviceWindows
import TinyMachine.Lib.Bump
import TinyMachine.Lib.Fallible
import TinyMachine.Lib.Overflow
import TinyMachine.Lib.Words
import TinyMachine.PciRootPort

/-! The addresses that the BARs of the GPU are given before the guest boots: one
cursor for 64-bit BARs and one for 32-bit BARs, moved over the list of regions,
and the windows of the root port that the addresses are meant to lie in. -/
namespace TinyMachine.Vfio
open Lib Fallible

inductive VfioError where
  | notAvailable
  deriving DecidableEq

/-- A region of the device: a BAR, if the index is at most 5. -/
structure BarRegionInfo where
  index : UInt32
  size : UInt64
  offset : UInt64
  canMmap : Bool
  deriving DecidableEq

/-- Where the device file has the configuration space; the scan for it has read there. -/
structure ConfigRegion where
  offset : UInt64
  readable : offset.toNat < 2 ^ 63

structure Session where
  deviceFd : Option Int32
  configRegion : Option ConfigRegion

/-- What the accesses to the registers of a BAR come back with: the two reads,
nothing where they do not give four bytes, and the writes of the two halves. -/
structure Answers where
  probe : Option UInt32
  current : Option UInt32
  lower : Bool
  upper : Bool

/-- A write to the device file that is tried. -/
structure FileWrite where
  position : UInt64
  value : UInt32
  deriving DecidableEq

/-- The register of a BAR; at most 0x24, as the index is at most 5. -/
def barReg (index : UInt32) : UInt32 := 0x10 + index * 4

def barType (raw : UInt32) : UInt32 := (raw >>> 1) &&& 0x3

def writeGuestBarAddr (mode : Overflow) (configOff : UInt64) (answers : Answers) (barIndex : UInt32)
    (guestAddr : UInt64) : Option (Bool × List FileWrite) := do
  let position ← mode.add64 configOff (barReg barIndex).toUInt64
  match answers.current with
  | none => return (false, [])
  | some rawVal =>
    if rawVal &&& 1 ≠ 0 then return (false, [])
    let lower := (guestAddr &&& 0xFFFFFFF0).toUInt32 ||| (rawVal &&& 0xF)
    if ¬ answers.lower then return (false, [⟨position, lower⟩])
    if barType rawVal = 2 then
      let upper := (guestAddr >>> 32).toUInt32
      let behind ← mode.add64 configOff (barReg barIndex + 4).toUInt64
      return (answers.upper, [⟨position, lower⟩, ⟨behind, upper⟩])
    return (true, [⟨position, lower⟩])

/-- `u64::next_power_of_two` -/
def nextPowerOfTwo (mode : Overflow) (a : UInt64) : Option UInt64 :=
  let power := if a.toNat ≤ 1 then 1 else 2 ^ (Nat.log2 (a.toNat - 1) + 1)
  mode.fit (power < 2 ^ 64) (.ofNat power)

/-- The address that a cursor gives, at a multiple of the size and of `least`. -/
def alignedFrom (mode : Overflow) (least size next : UInt64) : Option UInt64 := do
  let align ← nextPowerOfTwo mode (max least size)
  let base := if next < align then align else next
  let sum ← mode.add64 base align
  let last ← mode.sub64 sum 1
  let mask ← mode.sub64 align 1
  return last &&& ~~~ mask

/-- The two cursors, the addresses given, and the writes tried so far. -/
structure Assignment where
  next64bit : UInt64
  next32bit : UInt64
  assigned : List (UInt32 × UInt64 × UInt64)
  writes : List FileWrite

/-- The address for a BAR and the cursor behind it; none for a 32-bit BAR beyond 4 GiB. -/
def placeBar (mode : Overflow) (state : Assignment) (is64bit : Bool) (size : UInt64) :
    Option (Option (UInt64 × UInt64)) :=
  if is64bit then do
    let addr ← alignedFrom mode 0x40000000 size state.next64bit
    return some (addr, ← mode.add64 addr size)
  else do
    let addr ← alignedFrom mode 0x1000 size state.next32bit
    if addr > 0xFFFFFFFF then return none
    return some (addr, ← mode.add64 addr size)

/-- One turn of the loop. -/
def preassignBar (mode : Overflow) (configOff : UInt64) (state : Assignment) (region : BarRegionInfo × Answers) :
    Option Assignment := do
  let (bar, answers) := region
  if bar.index > 5 ∨ ¬ bar.canMmap ∨ bar.size = 0 then return state
  let _ ← mode.add64 configOff (barReg bar.index).toUInt64
  match answers.probe with
  | none => return state
  | some rawBar =>
    if rawBar &&& 1 ≠ 0 then return state
    let is64bit := barType rawBar = 2
    match ← placeBar mode state is64bit bar.size with
    | none => return state
    | some (addr, nextAddr) =>
      let (written, tried) ← writeGuestBarAddr mode configOff answers bar.index addr
      if ¬ written then return { state with writes := state.writes ++ tried }
      return {
        next64bit := if is64bit then nextAddr else state.next64bit
        next32bit := if is64bit then state.next32bit else nextAddr
        assigned := state.assigned ++ [(bar.index, addr, bar.size)]
        writes := state.writes ++ tried }

def Assignment.start : Assignment := ⟨0x1000000000, 0xE0000000, [], []⟩

/-- `preassign_guest_bar_addresses`, over the regions of the device with what the
accesses to each come back with. -/
def preassignGuestBarAddresses (mode : Overflow) (session : Session) (regions : List (BarRegionInfo × Answers)) :
    Fallible VfioError (List (UInt32 × UInt64 × UInt64) × List FileWrite) := do
  let some _ := session.deviceFd | throw .notAvailable
  let some config := session.configRegion | throw .notAvailable
  let final ← .checked (regions.foldlM (preassignBar mode config.offset) .start)
  return (final.assigned, final.writes)

/-! ## The windows -/

def wideStart : Nat := 0x1000000000
def narrowStart : Nat := 0xE0000000
def fourGiB : Nat := 2 ^ 32

/-- The windows of a bridge. The addresses given begin in them or above them. -/
structure Windows where
  nonPrefetchable : Span
  prefetchable : Span
  narrowBegun : nonPrefetchable.start ≤ narrowStart
  clear : nonPrefetchable.stop ≤ FreshBackend.virtioMmioAddr
  wideBegun : prefetchable.start ≤ wideStart
  above : fourGiB ≤ prefetchable.start
  bounded : prefetchable.stop ≤ 2 ^ 62

/-- A base or limit register of a bridge: its bits 15 to 4 are bits 31 to 20 of an address. -/
def windowAddress (low high : UInt8) : Nat := (low.toNat + 2 ^ 8 * high.toNat) / 2 ^ 4 * 2 ^ 20

/-- Four bytes, lowest first. -/
def upperAddress (a b c d : UInt8) : Nat := (a.toNat + 2 ^ 8 * b.toNat + 2 ^ 16 * c.toNat + 2 ^ 24 * d.toNat) * 2 ^ 32

open PciRootPort in
def memoryWindow (port : PcieRootPort) : Span where
  start := windowAddress (port.byteAt 0x20) (port.byteAt 0x21)
  stop := windowAddress (port.byteAt 0x22) (port.byteAt 0x23) + 2 ^ 20

open PciRootPort in
def prefetchableWindow (port : PcieRootPort) : Span where
  start := upperAddress (port.byteAt 0x28) (port.byteAt 0x29) (port.byteAt 0x2A) (port.byteAt 0x2B) +
    windowAddress (port.byteAt 0x24) (port.byteAt 0x25)
  stop := upperAddress (port.byteAt 0x2C) (port.byteAt 0x2D) (port.byteAt 0x2E) (port.byteAt 0x2F) +
    windowAddress (port.byteAt 0x26) (port.byteAt 0x27) + 2 ^ 20

/-- Where the windows of the root port are taken from: the ranges that its comments
name, the limits that they compute, or the bytes in its registers, which a bridge's
reader takes for a window of 2 MiB below 16 MiB. -/
inductive Reading where
  | ranges
  | limits
  | registers

theorem memoryWindow_new : memoryWindow PciRootPort.new = ⟨0xE00000, 0x1000000⟩ := by decide +kernel

theorem prefetchableWindow_new : prefetchableWindow PciRootPort.new = ⟨0x1000000000, 0x2000100000⟩ := by decide +kernel

def Reading.windows : Reading → Windows
  | .ranges => ⟨⟨0xE0000000, 0xF0000000⟩, ⟨0x1000000000, 0x2000000000⟩,
    by decide, by decide, by decide, by decide, by decide⟩
  | .limits => ⟨⟨0xE0000000, 0xF1000000⟩, ⟨0x1000000000, 0x2000100000⟩,
    by decide, by decide, by decide, by decide, by decide⟩
  | .registers => ⟨memoryWindow PciRootPort.new, prefetchableWindow PciRootPort.new,
    by rw [memoryWindow_new]; decide, by rw [memoryWindow_new]; decide,
    by rw [prefetchableWindow_new]; decide, by rw [prefetchableWindow_new]; decide,
    by rw [prefetchableWindow_new]; decide⟩

/-! ## A valid layout -/

def rangeSpan (range : UInt32 × UInt64 × UInt64) : Span := ⟨range.2.1.toNat, range.2.1.toNat + range.2.2.toNat⟩

/-- The register of a memory BAR that the loop comes to, as it is read. -/
def probed (region : BarRegionInfo × Answers) : Option UInt32 :=
  if region.1.index > 5 ∨ ¬ region.1.canMmap ∨ region.1.size = 0 then none
  else region.2.probe.filter fun raw => raw &&& 1 = 0

/-- The BAR has the range, at a multiple of its size and inside the window for its kind. -/
structure Has (windows : Windows) (region : BarRegionInfo × Answers) (range : UInt32 × UInt64 × UInt64) : Prop where
  index : range.1 = region.1.index
  size : range.2.2 = region.1.size
  aligned : region.1.size.toNat ∣ range.2.1.toNat
  inside : ∃ raw, probed region = some raw ∧
    if barType raw = 2 then
      windows.prefetchable.start ≤ (rangeSpan range).start ∧ (rangeSpan range).stop ≤ windows.prefetchable.stop
    else
      windows.nonPrefetchable.start ≤ (rangeSpan range).start ∧
        (rangeSpan range).stop ≤ windows.nonPrefetchable.stop ∧ (rangeSpan range).stop ≤ fourGiB

/-- The ranges are those of some of the regions, in their order. -/
structure Layout (windows : Windows) (regions : List (BarRegionInfo × Answers))
    (assigned : List (UInt32 × UInt64 × UInt64)) : Prop where
  disjoint : assigned.Pairwise fun one other => (rangeSpan one).Disjoint (rangeSpan other)
  ranges : ∃ chosen, chosen.Sublist regions ∧ List.Forall₂ (Has windows) chosen assigned
  devices : ∀ range ∈ assigned, ∀ window ∈ MemoryMap.deviceWindows, (rangeSpan range).Disjoint window

/-- No address overflows, and what is returned is a layout. -/
structure Valid (reading : Reading) (session : Session) (regions : List (BarRegionInfo × Answers)) : Prop where
  total : ¬ (preassignGuestBarAddresses .checked session regions).Panics
  layout : ∀ mode assigned writes, (preassignGuestBarAddresses mode session regions).Returns (assigned, writes) →
    Layout reading.windows regions assigned

/-! ## When there is one -/

/-- Whether the registers of the BAR take an address. -/
def Answers.written (answers : Answers) : Bool :=
  match answers.current with
  | none => false
  | some raw => raw &&& 1 = 0 && answers.lower && (barType raw ≠ 2 || answers.upper)

def piece (least : Nat) (positive : 0 < least) (size : Nat) : Piece :=
  ⟨size, max least size, Nat.lt_of_lt_of_le positive (Nat.le_max_left ..)⟩

/-- The 64-bit BARs that take an address. -/
def widePieces (regions : List (BarRegionInfo × Answers)) : List Piece :=
  regions.filterMap fun region => do
    let raw ← probed region
    if barType raw = 2 ∧ region.2.written then some (piece 0x40000000 (by decide) region.1.size.toNat) else none

/-- The 32-bit BARs that take an address. -/
def narrowPieces (regions : List (BarRegionInfo × Answers)) : List Piece :=
  regions.filterMap fun region => do
    let raw ← probed region
    if barType raw ≠ 2 ∧ region.2.written then some (piece 0x1000 (by decide) region.1.size.toNat) else none

/-- There is room in the windows for the 64-bit BARs, and for those 32-bit BARs
that find room below 4 GiB. -/
structure Roomy (windows : Windows) (regions : List (BarRegionInfo × Answers)) : Prop where
  sizes : ∀ region ∈ regions, (probed region).isSome → region.1.size.toNat < 2 ^ 63
  wide : Room windows.prefetchable.stop wideStart (widePieces regions)
  narrow : Room windows.nonPrefetchable.stop narrowStart (admitted fourGiB narrowStart (narrowPieces regions))

/-! ## The loop -/

section Aligned
variable {least size next : UInt64} {k : Nat}

theorem nextPowerOfTwo_eq (mode : Overflow) {a : UInt64} (power : a.toNat = 2 ^ k) : nextPowerOfTwo mode a = some a := by
  have same : (if a.toNat ≤ 1 then 1 else 2 ^ (Nat.log2 (a.toNat - 1) + 1)) = a.toNat := by
    cases k with
    | zero => rw [power]; rfl
    | succ k =>
      have positive := Nat.two_pow_pos k
      have double : 2 ^ (k + 1) = 2 * 2 ^ k := Nat.pow_succ'
      have exponent : Nat.log2 (a.toNat - 1) = k := (Nat.log2_eq_iff (by omega)).mpr ⟨by omega, by omega⟩
      rw [if_neg (by omega), exponent, power]
  rw [nextPowerOfTwo, same]
  rw [Overflow.fit_of_fits a.toNat_lt, UInt64.ofNat_toNat]

theorem toNat_base (next align : UInt64) : (if next < align then align else next).toNat = max next.toNat align.toNat := by
  have order : next < align ↔ next.toNat < align.toNat := UInt64.lt_iff_toNat_lt
  split
  next before =>
    have := order.mp before
    omega
  next behind =>
    have := mt order.mpr behind
    omega

/-- A cursor before the first multiple is at no other. -/
theorem alignUp_max {align addr : Nat} (begun : 0 < addr) : alignUp align (max addr align) = alignUp align addr := by
  rcases Nat.lt_or_ge addr align with before | behind
  · have once : (addr + align - 1) / align = 1 := by
      rw [Nat.div_eq_iff (by omega)]
      omega
    have same : (align + align - 1) / align = 1 := by
      rw [Nat.div_eq_iff (by omega)]
      omega
    rw [Nat.max_eq_right (Nat.le_of_lt before), alignUp, alignUp, once, same]
  · rw [Nat.max_eq_left behind]

/-- Nothing overflows, and the address is the least behind the cursor. -/
theorem alignedFrom_fits (mode : Overflow) (power : (max least size).toNat = 2 ^ k) (begun : 0 < next.toNat)
    (fits : max next.toNat (2 ^ k) + 2 ^ k < 2 ^ 64) :
    ∃ addr, alignedFrom mode least size next = some addr ∧ addr.toNat = alignUp (2 ^ k) next.toNat := by
  have positive := Nat.two_pow_pos k
  have small : k ≤ 64 := Nat.le_of_lt ((Nat.pow_lt_pow_iff_right (by decide)).mp (by omega : 2 ^ k < 2 ^ 64))
  have one : (1 : UInt64).toNat = 1 := rfl
  rw [alignedFrom, nextPowerOfTwo_eq mode power]
  generalize whole : max least size = align at power
  have base := toNat_base next align
  rw [power] at base
  have sumFits : (if next < align then align else next).toNat + align.toNat < 2 ^ 64 := by omega
  have added : mode.add64 (if next < align then align else next) align = some _ := Overflow.add64_of_fits sumFits
  have sum : ((if next < align then align else next) + align).toNat = max next.toNat (2 ^ k) + 2 ^ k := by
    rw [UInt64.toNat_add, Nat.mod_eq_of_lt sumFits, base, power]
  have lastTaken : mode.sub64 ((if next < align then align else next) + align) 1 = some _ :=
    Overflow.fit_of_fits (by omega)
  have maskTaken : mode.sub64 align 1 = some _ := Overflow.fit_of_fits (by omega)
  have last : ((if next < align then align else next) + align - 1).toNat = max next.toNat (2 ^ k) + 2 ^ k - 1 := by
    rw [UInt64.toNat_sub_of_le _ _ (UInt64.le_iff_toNat_le.mpr (by omega)), sum, one]
  have mask : (align - 1).toNat = 2 ^ k - 1 := by
    rw [UInt64.toNat_sub_of_le _ _ (UInt64.le_iff_toNat_le.mpr (by omega)), power, one]
  refine ⟨((if next < align then align else next) + align - 1) &&& ~~~ (align - 1), ?_, ?_⟩
  · simp only [Option.bind_eq_bind, Option.bind_some, added, lastTaken, maskTaken]
    rfl
  · rw [toNat_clear_low small mask, last, ← alignUp_max begun]
    rfl

theorem fits_of_alignedFrom {addr : UInt64} (power : (max least size).toNat = 2 ^ k)
    (aligned : alignedFrom .checked least size next = some addr) : max next.toNat (2 ^ k) + 2 ^ k < 2 ^ 64 := by
  rw [alignedFrom, nextPowerOfTwo_eq .checked power] at aligned
  obtain ⟨_, ⟨⟩, rest⟩ := Option.bind_eq_some_iff.mp aligned
  obtain ⟨sum, added, -⟩ := Option.bind_eq_some_iff.mp rest
  have fits := Overflow.fits_of_add64 added
  rw [toNat_base, power] at fits
  exact fits

end Aligned

section Turn
variable {mode : Overflow} {config : ConfigRegion} {state : Assignment} {region : BarRegionInfo × Answers}
  {raw : UInt32}

theorem position_fits (mode : Overflow) (config : ConfigRegion) (register : UInt32) :
    ∃ position, mode.add64 config.offset register.toUInt64 = some position := by
  have small : register.toUInt64.toNat < 2 ^ 32 := by
    rw [UInt32.toNat_toUInt64]
    exact register.toNat_lt
  have readable := config.readable
  exact ⟨_, Overflow.add64_of_fits (by omega)⟩

theorem writeGuestBarAddr_eq (mode : Overflow) (config : ConfigRegion) (answers : Answers) (barIndex : UInt32)
    (guestAddr : UInt64) : ∃ tried, writeGuestBarAddr mode config.offset answers barIndex guestAddr =
      some (answers.written, tried) := by
  obtain ⟨position, found⟩ := position_fits mode config (barReg barIndex)
  obtain ⟨behind, foundBehind⟩ := position_fits mode config (barReg barIndex + 4)
  rw [writeGuestBarAddr, found, Answers.written]
  cases answers.current with
  | none => exact ⟨_, rfl⟩
  | some raw =>
    dsimp only [Option.bind_eq_bind, Option.bind_some]
    by_cases io : raw &&& 1 ≠ 0
    · rw [if_pos io]
      exact ⟨[], by simp [io]⟩
    have memory : decide (raw &&& 1 = 0) = true := decide_eq_true (not_not.mp io)
    rw [if_neg io, memory, Bool.true_and]
    cases answers.lower with
    | false => exact ⟨_, rfl⟩
    | true =>
      by_cases wide : barType raw = 2
      · rw [if_pos wide, foundBehind, decide_eq_false (not_not.mpr wide)]
        exact ⟨_, rfl⟩
      · rw [if_neg wide, decide_eq_true wide]
        exact ⟨_, rfl⟩

theorem turn_unprobed (unprobed : probed region = none) : preassignBar mode config.offset state region = some state := by
  obtain ⟨position, found⟩ := position_fits mode config (barReg region.1.index)
  obtain ⟨bar, answers⟩ := region
  rw [probed] at unprobed
  rw [preassignBar]
  dsimp only at *
  split at unprobed
  next skipped => rw [if_pos skipped]; rfl
  next considered =>
    rw [if_neg considered, found]
    cases read : answers.probe with
    | none => rfl
    | some raw =>
      have io : raw &&& 1 ≠ 0 := by simpa [read] using unprobed
      simp [io]

theorem turn_probed (found : probed region = some raw) : preassignBar mode config.offset state region =
    (placeBar mode state (barType raw = 2) region.1.size).bind fun placed =>
      match placed with
      | none => some state
      | some (addr, nextAddr) =>
        (writeGuestBarAddr mode config.offset region.2 region.1.index addr).bind fun (written, tried) =>
          if ¬ written then some { state with writes := state.writes ++ tried }
          else some {
            next64bit := if barType raw = 2 then nextAddr else state.next64bit
            next32bit := if barType raw = 2 then state.next32bit else nextAddr
            assigned := state.assigned ++ [(region.1.index, addr, region.1.size)]
            writes := state.writes ++ tried } := by
  obtain ⟨position, added⟩ := position_fits mode config (barReg region.1.index)
  obtain ⟨bar, answers⟩ := region
  rw [probed] at found
  rw [preassignBar]
  dsimp only at *
  split at found
  next => cases found
  next considered =>
    obtain ⟨read, memory⟩ := Option.filter_eq_some_iff.mp found
    have memory : ¬ raw &&& 1 ≠ 0 := not_not.mpr (by simpa using memory)
    rw [if_neg considered, added, read]
    dsimp only [Option.bind_eq_bind, Option.bind_some]
    rw [if_neg memory]
    rfl

end Turn

section Placing
variable {mode : Overflow} {state : Assignment} {is64bit : Bool} {size : UInt64} {placed : Option (UInt64 × UInt64)}

def Assignment.next (state : Assignment) (is64bit : Bool) : UInt64 :=
  if is64bit then state.next64bit else state.next32bit

/-- A BAR as a piece for its cursor. -/
def barPiece (is64bit : Bool) (size : UInt64) : Piece :=
  if is64bit then piece 0x40000000 (by decide) size.toNat else piece 0x1000 (by decide) size.toNat

/-- The cursor gives the least address, and a 32-bit BAR none beyond 4 GiB. -/
def Places (state : Assignment) (is64bit : Bool) (size : UInt64) (placed : Option (UInt64 × UInt64)) : Prop :=
  let least := alignUp (barPiece is64bit size).align (state.next is64bit).toNat
  match placed with
  | none => is64bit = false ∧ fourGiB ≤ least
  | some (addr, nextAddr) =>
    addr.toNat = least ∧ nextAddr.toNat = least + size.toNat ∧ (is64bit = false → least < fourGiB)

theorem placeBar_eq : placeBar mode state is64bit size =
    (alignedFrom mode (if is64bit then 0x40000000 else 0x1000) size (state.next is64bit)).bind fun addr =>
      if is64bit = false ∧ addr > 0xFFFFFFFF then some none
      else (mode.add64 addr size).map fun nextAddr => some (addr, nextAddr) := by
  have bound (addr : UInt64) : (do return some (addr, ← mode.add64 addr size)) =
      (mode.add64 addr size).map fun nextAddr => some (addr, nextAddr) := by
    cases mode.add64 addr size <;> rfl
  cases is64bit with
  | true =>
    rw [placeBar, if_pos rfl, if_pos rfl]
    refine bind_congr fun addr => ?_
    rw [if_neg fun both => Bool.noConfusion both.1]
    exact bound addr
  | false =>
    rw [placeBar, if_neg (by decide), if_neg (by decide)]
    refine bind_congr fun addr => ?_
    by_cases beyond : addr > 0xFFFFFFFF
    · rw [if_pos beyond, if_pos ⟨rfl, beyond⟩]
      rfl
    · rw [if_neg beyond, if_neg fun both => beyond both.2]
      exact bound addr

theorem toNat_max (a b : UInt64) : (max a b).toNat = max a.toNat b.toNat := by
  have order : a ≤ b ↔ a.toNat ≤ b.toNat := UInt64.le_iff_toNat_le
  show (if a ≤ b then b else a).toNat = _
  split
  next before => exact (Nat.max_eq_right (order.mp before)).symm
  next behind => exact (Nat.max_eq_left (Nat.le_of_not_le (mt order.mpr behind))).symm

/-- The alignment is a power of two, where the size is. -/
theorem align_power (is64bit : Bool) {j : Nat} (power : size.toNat = 2 ^ j) : ∃ k, (barPiece is64bit size).align = 2 ^ k ∧
    (max (if is64bit then 0x40000000 else 0x1000) size).toNat = 2 ^ k := by
  have larger (e : Nat) : max (2 ^ e) (2 ^ j) = 2 ^ max e j := by
    rcases Nat.le_total e j with below | above
    · rw [Nat.max_eq_right below, Nat.max_eq_right (Nat.pow_le_pow_right (by decide) below)]
    · rw [Nat.max_eq_left above, Nat.max_eq_left (Nat.pow_le_pow_right (by decide) above)]
  cases is64bit with
  | true =>
    have whole : max (0x40000000 : UInt64).toNat size.toNat = 2 ^ max 30 j := by
      rw [power]
      exact larger 30
    exact ⟨max 30 j, whole, by rw [toNat_max]; exact whole⟩
  | false =>
    have whole : max (0x1000 : UInt64).toNat size.toNat = 2 ^ max 12 j := by
      rw [power]
      exact larger 12
    exact ⟨max 12 j, whole, by rw [toNat_max]; exact whole⟩

theorem size_le_align (is64bit : Bool) (size : UInt64) : size.toNat ≤ (barPiece is64bit size).align := by
  cases is64bit <;> exact Nat.le_max_right ..

/-- Once the address is there, so is what follows from it. -/
theorem places_of_aligned (mode : Overflow) {addr : UInt64}
    (found : addr.toNat = alignUp (barPiece is64bit size).align (state.next is64bit).toNat)
    (rest : (if is64bit = false ∧ addr > 0xFFFFFFFF then some none
      else (mode.add64 addr size).map fun nextAddr => some (addr, nextAddr)) = some placed)
    (fits : mode = .checked ∨ addr.toNat + size.toNat < 2 ^ 64) : Places state is64bit size placed := by
  have order : addr > 0xFFFFFFFF ↔ 0xFFFFFFFF < addr.toNat := UInt64.lt_iff_toNat_lt
  split at rest
  next beyond =>
    cases rest
    refine ⟨beyond.1, ?_⟩
    rw [← found]
    exact order.mp beyond.2
  next inside =>
    obtain ⟨nextAddr, added, rfl⟩ := Option.map_eq_some_iff.mp rest
    have fits : addr.toNat + size.toNat < 2 ^ 64 := by
      rcases fits with rfl | fits
      · exact Overflow.fits_of_add64 added
      · exact fits
    cases (Overflow.add64_of_fits fits).symm.trans added
    refine ⟨found, ?_, fun narrow => ?_⟩
    · rw [UInt64.toNat_add, Nat.mod_eq_of_lt fits, found]
    · rw [← found]
      exact Nat.lt_succ_of_le (Nat.not_lt.mp fun beyond => inside ⟨narrow, order.mpr beyond⟩)

/-- A cursor far from the end of the addresses overflows for no size but the largest. -/
theorem placeBar_fits (mode : Overflow) {j : Nat} (power : size.toNat = 2 ^ j) (small : size.toNat < 2 ^ 63)
    (begun : 0 < (state.next is64bit).toNat) (low : (state.next is64bit).toNat ≤ 2 ^ 62) :
    ∃ placed, placeBar mode state is64bit size = some placed ∧ Places state is64bit size placed := by
  have exponent : j < 63 := (Nat.pow_lt_pow_iff_right (by decide)).mp (power ▸ small)
  have half : size.toNat ≤ 2 ^ 62 := power ▸ Nat.pow_le_pow_right (by decide) (by omega)
  have alignHalf : (barPiece is64bit size).align ≤ 2 ^ 62 := by
    cases is64bit <;> exact Nat.max_le.mpr ⟨by decide, half⟩
  obtain ⟨k, align, whole⟩ := align_power is64bit power
  rw [align] at alignHalf
  obtain ⟨addr, aligned, found⟩ := alignedFrom_fits mode whole begun (by omega)
  have below : alignUp (2 ^ k) (state.next is64bit).toNat < (state.next is64bit).toNat + 2 ^ k :=
    alignUp_lt (Nat.two_pow_pos k)
  rw [← align] at found
  rw [placeBar_eq, aligned, Option.bind_some]
  have fits : addr.toNat + size.toNat < 2 ^ 64 := by
    rw [found, align]
    omega
  rw [Overflow.add64_of_fits fits, Option.map_some, ← apply_ite some]
  refine ⟨_, rfl, places_of_aligned mode found ?_ (.inr fits)⟩
  rw [Overflow.add64_of_fits fits, Option.map_some, ← apply_ite some]

theorem places_of_placeBar {j : Nat} (power : size.toNat = 2 ^ j) (begun : 0 < (state.next is64bit).toNat)
    (found : placeBar .checked state is64bit size = some placed) :
    size.toNat < 2 ^ 63 ∧ Places state is64bit size placed := by
  obtain ⟨k, align, whole⟩ := align_power is64bit power
  rw [placeBar_eq] at found
  obtain ⟨addr, aligned, rest⟩ := Option.bind_eq_some_iff.mp found
  have fits := fits_of_alignedFrom whole aligned
  obtain ⟨other, again, least⟩ := alignedFrom_fits .checked whole begun fits
  cases aligned.symm.trans again
  have largest := size_le_align is64bit size
  rw [align] at largest
  exact ⟨by omega, places_of_aligned .checked (align ▸ least) rest (.inl rfl)⟩

end Placing

/-! ## The run -/

/-- The BAR has the range, at a multiple of its size between the start and the cursor for its kind. -/
structure Given (state : Assignment) (region : BarRegionInfo × Answers) (range : UInt32 × UInt64 × UInt64) : Prop where
  index : range.1 = region.1.index
  size : range.2.2 = region.1.size
  aligned : region.1.size.toNat ∣ range.2.1.toNat
  between : ∃ raw, probed region = some raw ∧
    if barType raw = 2 then wideStart ≤ (rangeSpan range).start ∧ (rangeSpan range).stop ≤ state.next64bit.toNat
    else narrowStart ≤ (rangeSpan range).start ∧ (rangeSpan range).stop ≤ state.next32bit.toNat

/-- The loop has come behind these regions. -/
structure Progress (done : List (BarRegionInfo × Answers)) (state : Assignment) : Prop where
  wide : state.next64bit.toNat = bumped wideStart (widePieces done)
  narrow : state.next32bit.toNat = bumped narrowStart (admitted fourGiB narrowStart (narrowPieces done))
  disjoint : state.assigned.Pairwise fun one other => (rangeSpan one).Disjoint (rangeSpan other)
  chosen : ∃ chosen, chosen.Sublist done ∧ List.Forall₂ (Given state) chosen state.assigned
  lastWide : widePieces done = [] ∨ ∃ range ∈ state.assigned,
    fourGiB ≤ (rangeSpan range).start ∧ (rangeSpan range).stop = state.next64bit.toNat
  lastNarrow : admitted fourGiB narrowStart (narrowPieces done) = [] ∨ ∃ range ∈ state.assigned,
    (rangeSpan range).start < fourGiB ∧ (rangeSpan range).stop = state.next32bit.toNat

section Run
variable {done : List (BarRegionInfo × Answers)} {state : Assignment} {region : BarRegionInfo × Answers}
  {raw : UInt32} {addr nextAddr : UInt64} {tried : List FileWrite}

theorem Progress.start : Progress [] .start where
  wide := rfl
  narrow := rfl
  disjoint := .nil
  chosen := ⟨[], .slnil, .nil⟩
  lastWide := .inl rfl
  lastNarrow := .inl rfl

/-- A region that gets no address counts for nothing. -/
theorem Progress.same (progress : Progress done state) (wide : widePieces (done ++ [region]) = widePieces done)
    (narrow : admitted fourGiB narrowStart (narrowPieces (done ++ [region])) =
      admitted fourGiB narrowStart (narrowPieces done)) :
    Progress (done ++ [region]) { state with writes := state.writes ++ tried } where
  wide := wide ▸ progress.wide
  narrow := narrow ▸ progress.narrow
  disjoint := progress.disjoint
  chosen := by
    obtain ⟨chosen, among, given⟩ := progress.chosen
    exact ⟨chosen, among.trans (List.sublist_append_left ..), given.imp fun _ _ given => ⟨given.1, given.2, given.3, given.4⟩⟩
  lastWide := wide ▸ progress.lastWide
  lastNarrow := narrow ▸ progress.lastNarrow

theorem widePieces_append (done : List (BarRegionInfo × Answers)) (found : probed region = some raw) :
    widePieces (done ++ [region]) = widePieces done ++
      if barType raw = 2 ∧ region.2.written then [barPiece true region.1.size] else [] := by
  rw [widePieces, List.filterMap_append, ← widePieces]
  simp only [List.filterMap_cons, List.filterMap_nil, found, Option.bind_eq_bind, Option.bind_some]
  split <;> simp_all [barPiece]

theorem narrowPieces_append (done : List (BarRegionInfo × Answers)) (found : probed region = some raw) :
    narrowPieces (done ++ [region]) = narrowPieces done ++
      if barType raw ≠ 2 ∧ region.2.written then [barPiece false region.1.size] else [] := by
  rw [narrowPieces, List.filterMap_append, ← narrowPieces]
  simp only [List.filterMap_cons, List.filterMap_nil, found, Option.bind_eq_bind, Option.bind_some]
  split <;> simp_all [barPiece]

theorem pieces_unprobed (done : List (BarRegionInfo × Answers)) (unprobed : probed region = none) :
    widePieces (done ++ [region]) = widePieces done ∧ narrowPieces (done ++ [region]) = narrowPieces done := by
  simp [widePieces, narrowPieces, unprobed]

theorem exists_of_forall₂ {α β : Type} {r : α → β → Prop} {left : List α} {right : List β}
    (matching : List.Forall₂ r left right) : ∀ b ∈ right, ∃ a ∈ left, r a b := by
  induction matching with
  | nil => exact fun _ none => nomatch none
  | cons first _ ih =>
    intro b member
    rcases List.mem_cons.mp member with rfl | later
    · exact ⟨_, .head _, first⟩
    · obtain ⟨a, there, related⟩ := ih b later
      exact ⟨a, .tail _ there, related⟩

/-- Every range given so far is before the cursor of one kind or of the other. -/
theorem Progress.spans (progress : Progress done state) : ∀ range ∈ state.assigned,
    wideStart ≤ (rangeSpan range).start ∧ (rangeSpan range).stop ≤ state.next64bit.toNat ∨
      narrowStart ≤ (rangeSpan range).start ∧ (rangeSpan range).stop ≤ state.next32bit.toNat := by
  intro range member
  obtain ⟨chosen, -, given⟩ := progress.chosen
  obtain ⟨region, -, holds⟩ := exists_of_forall₂ given range member
  obtain ⟨raw, -, between⟩ := holds.between
  split at between
  · exact .inl between
  · exact .inr between

theorem Progress.wide_ge (progress : Progress done state) : wideStart ≤ state.next64bit.toNat :=
  progress.wide ▸ le_bumped ..

theorem Progress.narrow_ge (progress : Progress done state) : narrowStart ≤ state.next32bit.toNat :=
  progress.narrow ▸ le_bumped ..

/-- The cursor for 32-bit BARs does not leave the first 4 GiB. -/
theorem Progress.narrow_le (progress : Progress done state) : state.next32bit.toNat ≤ fourGiB := by
  rw [progress.narrow]
  rcases room_iff.mp (room_admitted fourGiB narrowStart (narrowPieces done)) with empty | inside
  · rw [empty]
    decide
  · exact inside

theorem size_dvd_align {is64bit : Bool} {size : UInt64} {j : Nat} (power : size.toNat = 2 ^ j) :
    size.toNat ∣ (barPiece is64bit size).align := by
  obtain ⟨k, align, -⟩ := align_power is64bit power
  have larger := size_le_align is64bit size
  rw [align, power] at larger
  rw [align, power]
  exact Nat.pow_dvd_pow 2 ((Nat.pow_le_pow_iff_right (by decide)).mp larger)

/-- What a region gets is kept when the cursors move on. -/
theorem Given.later {later : Assignment} {range : UInt32 × UInt64 × UInt64} (given : Given state region range)
    (wide : state.next64bit.toNat ≤ later.next64bit.toNat) (narrow : state.next32bit.toNat ≤ later.next32bit.toNat) :
    Given later region range := by
  refine ⟨given.index, given.size, given.aligned, ?_⟩
  obtain ⟨raw, found, between⟩ := given.between
  refine ⟨raw, found, ?_⟩
  split at between
  next is64bit =>
    rw [if_pos is64bit]
    exact ⟨between.1, Nat.le_trans between.2 wide⟩
  next is32bit =>
    rw [if_neg is32bit]
    exact ⟨between.1, Nat.le_trans between.2 narrow⟩

/-- One more range, behind all others of its kind. -/
theorem Progress.given_append (progress : Progress done state) {later : Assignment} {range : UInt32 × UInt64 × UInt64}
    (wide : state.next64bit.toNat ≤ later.next64bit.toNat) (narrow : state.next32bit.toNat ≤ later.next32bit.toNat)
    (given : Given later region range) : ∃ chosen, chosen.Sublist (done ++ [region]) ∧
      List.Forall₂ (Given later) chosen (state.assigned ++ [range]) := by
  obtain ⟨chosen, among, before⟩ := progress.chosen
  refine ⟨chosen ++ [region], among.append (List.Sublist.refl _), List.rel_append ?_ (.cons given .nil)⟩
  exact before.imp fun _ _ given => given.later wide narrow

theorem Progress.disjoint_append (progress : Progress done state) {range : UInt32 × UInt64 × UInt64}
    (apart : ∀ other ∈ state.assigned, (rangeSpan other).Disjoint (rangeSpan range)) :
    (state.assigned ++ [range]).Pairwise fun one other => (rangeSpan one).Disjoint (rangeSpan other) :=
  List.pairwise_append.mpr ⟨progress.disjoint, List.pairwise_singleton .., fun other member _ there =>
    List.mem_singleton.mp there ▸ apart other member⟩

theorem disjoint_of_le {one other : Span} (before : one.stop ≤ other.start) : one.Disjoint other := by
  intro a first second
  have := first.2
  have := second.1
  omega

theorem Progress.wideTurn (progress : Progress done state) (found : probed region = some raw) (is64bit : barType raw = 2)
    (written : region.2.written) {j : Nat} (power : region.1.size.toNat = 2 ^ j)
    (places : Places state true region.1.size (some (addr, nextAddr))) (writes : List FileWrite) :
    Progress (done ++ [region])
      ⟨nextAddr, state.next32bit, state.assigned ++ [(region.1.index, addr, region.1.size)], writes⟩ := by
  obtain ⟨here, behind, -⟩ := places
  have narrowSame : narrowPieces (done ++ [region]) = narrowPieces done := by
    rw [narrowPieces_append done found, if_neg fun both => both.1 is64bit, List.append_nil]
  have wideMore : widePieces (done ++ [region]) = widePieces done ++ [barPiece true region.1.size] := by
    rw [widePieces_append done found, if_pos ⟨is64bit, written⟩]
  have further : state.next64bit.toNat ≤ addr.toNat := here ▸ le_alignUp (barPiece true region.1.size).positive
  have begun := progress.wide_ge
  have moved : nextAddr.toNat = addr.toNat + region.1.size.toNat := by rw [behind, here]
  have given : Given ⟨nextAddr, state.next32bit, state.assigned ++ [(region.1.index, addr, region.1.size)], writes⟩ region
      (region.1.index, addr, region.1.size) := by
    refine ⟨rfl, rfl, (size_dvd_align power).trans (here ▸ dvd_alignUp ..), raw, found, ?_⟩
    rw [if_pos is64bit]
    exact ⟨Nat.le_trans begun further, Nat.le_of_eq moved.symm⟩
  have apart : ∀ other ∈ state.assigned, (rangeSpan other).Disjoint (rangeSpan (region.1.index, addr, region.1.size)) := by
    intro other member
    have start : (rangeSpan (region.1.index, addr, region.1.size)).start = addr.toNat := rfl
    have low := progress.narrow_le
    have high : fourGiB ≤ wideStart := by decide
    apply disjoint_of_le
    rcases progress.spans other member with wide | narrow
    · omega
    · omega
  constructor
  · rw [wideMore, bumped_append, ← progress.wide]
    exact behind
  · rw [narrowSame]
    exact progress.narrow
  · exact progress.disjoint_append apart
  · exact progress.given_append (by dsimp only; omega) (Nat.le_refl _) given
  · refine .inr ⟨_, List.mem_append_right _ (.head _), ?_, moved.symm⟩
    exact Nat.le_trans (by decide : fourGiB ≤ wideStart) (Nat.le_trans begun further)
  · rw [narrowSame]
    exact progress.lastNarrow.imp_right fun ⟨range, member, holds⟩ => ⟨range, List.mem_append_left _ member, holds⟩

/-- A 32-bit BAR that begins below 4 GiB ends there. -/
theorem narrow_inside {size : UInt64} {j : Nat} (power : size.toNat = 2 ^ j) (begun : 0 < state.next32bit.toNat)
    (below : alignUp (barPiece false size).align state.next32bit.toNat < fourGiB) :
    alignUp (barPiece false size).align state.next32bit.toNat + size.toNat ≤ fourGiB := by
  obtain ⟨k, align, -⟩ := align_power false power
  have positive : 0 < alignUp (barPiece false size).align state.next32bit.toNat :=
    Nat.lt_of_lt_of_le begun (le_alignUp (barPiece false size).positive)
  have least : (barPiece false size).align ≤ alignUp (barPiece false size).align state.next32bit.toNat :=
    Nat.le_of_dvd positive (dvd_alignUp ..)
  have small : 2 ^ k < 2 ^ 32 := align ▸ Nat.lt_of_le_of_lt least below
  have divides : (barPiece false size).align ∣ fourGiB :=
    align ▸ Nat.pow_dvd_pow 2 (Nat.le_of_lt ((Nat.pow_lt_pow_iff_right (by decide)).mp small))
  have fits := alignUp_add_le divides below
  have larger := size_le_align false size
  omega

theorem Progress.narrowTurn (progress : Progress done state) (found : probed region = some raw) (is32bit : barType raw ≠ 2)
    (written : region.2.written) {j : Nat} (power : region.1.size.toNat = 2 ^ j)
    (places : Places state false region.1.size (some (addr, nextAddr))) (writes : List FileWrite) :
    Progress (done ++ [region])
      ⟨state.next64bit, nextAddr, state.assigned ++ [(region.1.index, addr, region.1.size)], writes⟩ := by
  obtain ⟨here, behind, below⟩ := places
  have begun := progress.narrow_ge
  have inside := narrow_inside power (Nat.lt_of_lt_of_le (by decide) begun) (below rfl)
  have wideSame : widePieces (done ++ [region]) = widePieces done := by
    rw [widePieces_append done found, if_neg fun both => is32bit both.1, List.append_nil]
  have narrowMore : admitted fourGiB narrowStart (narrowPieces (done ++ [region])) =
      admitted fourGiB narrowStart (narrowPieces done) ++ [barPiece false region.1.size] := by
    rw [narrowPieces_append done found, if_pos ⟨is32bit, written⟩]
    apply admitted_append_room
    rw [← progress.narrow]
    exact inside
  have further : state.next32bit.toNat ≤ addr.toNat := here ▸ le_alignUp (barPiece false region.1.size).positive
  have moved : nextAddr.toNat = addr.toNat + region.1.size.toNat := by rw [behind, here]
  have given : Given ⟨state.next64bit, nextAddr, state.assigned ++ [(region.1.index, addr, region.1.size)], writes⟩ region
      (region.1.index, addr, region.1.size) := by
    refine ⟨rfl, rfl, (size_dvd_align power).trans (here ▸ dvd_alignUp ..), raw, found, ?_⟩
    rw [if_neg is32bit]
    exact ⟨Nat.le_trans begun further, Nat.le_of_eq moved.symm⟩
  have apart : ∀ other ∈ state.assigned, (rangeSpan other).Disjoint (rangeSpan (region.1.index, addr, region.1.size)) := by
    intro other member a first second
    have start : addr.toNat ≤ a := second.1
    have stop : a < addr.toNat + region.1.size.toNat := second.2
    have high : fourGiB ≤ wideStart := by decide
    have least : (rangeSpan other).start ≤ a ∧ a < (rangeSpan other).stop := first
    have total : addr.toNat + region.1.size.toNat ≤ fourGiB := here ▸ inside
    rcases progress.spans other member with wide | narrow
    · omega
    · omega
  constructor
  · rw [wideSame]
    exact progress.wide
  · rw [narrowMore, bumped_append, ← progress.narrow]
    exact behind
  · exact progress.disjoint_append apart
  · exact progress.given_append (Nat.le_refl _) (by dsimp only; omega) given
  · rw [wideSame]
    exact progress.lastWide.imp_right fun ⟨range, member, holds⟩ => ⟨range, List.mem_append_left _ member, holds⟩
  · exact .inr ⟨_, List.mem_append_right _ (.head _), here.trans_lt (below rfl), moved.symm⟩

theorem Progress.unchanged (progress : Progress done state) (wide : widePieces (done ++ [region]) = widePieces done)
    (narrow : admitted fourGiB narrowStart (narrowPieces (done ++ [region])) =
      admitted fourGiB narrowStart (narrowPieces done)) : Progress (done ++ [region]) state := by
  have same : Progress (done ++ [region]) { state with writes := state.writes ++ [] } := progress.same wide narrow
  rwa [List.append_nil] at same

/-- A 32-bit BAR beyond 4 GiB counts for nothing. -/
theorem Progress.beyond (progress : Progress done state) (found : probed region = some raw)
    (places : Places state (barType raw = 2) region.1.size none) (present : 0 < region.1.size.toNat) :
    Progress (done ++ [region]) state := by
  obtain ⟨is32bit, beyond⟩ := places
  rw [is32bit] at beyond
  have is32bit : barType raw ≠ 2 := of_decide_eq_false is32bit
  apply progress.unchanged
  · rw [widePieces_append done found, if_neg fun both => is32bit both.1, List.append_nil]
  · rw [narrowPieces_append done found]
    split
    · apply admitted_append_full
      rw [← progress.narrow]
      exact Nat.lt_of_le_of_lt beyond (Nat.lt_add_of_pos_right present)
    · rw [List.append_nil]

theorem Progress.unwritten (progress : Progress done state) (found : probed region = some raw)
    (unwritten : ¬ region.2.written) (tried : List FileWrite) :
    Progress (done ++ [region]) { state with writes := state.writes ++ tried } := by
  apply progress.same
  · rw [widePieces_append done found, if_neg fun both => unwritten both.2, List.append_nil]
  · rw [narrowPieces_append done found, if_neg fun both => unwritten both.2, List.append_nil]

/-- A turn of the loop, by where it places the BAR. -/
theorem Progress.turn (progress : Progress done state) (mode : Overflow) (config : ConfigRegion)
    (found : probed region = some raw) {j : Nat} (power : region.1.size.toNat = 2 ^ j) {placed : Option (UInt64 × UInt64)}
    (computed : placeBar mode state (barType raw = 2) region.1.size = some placed)
    (places : Places state (barType raw = 2) region.1.size placed) :
    ∃ later, preassignBar mode config.offset state region = some later ∧ Progress (done ++ [region]) later := by
  rw [turn_probed found, computed, Option.bind_some]
  match placed with
  | none => exact ⟨state, rfl, progress.beyond found places (power ▸ Nat.two_pow_pos j)⟩
  | some (addr, nextAddr) =>
    obtain ⟨tried, wrote⟩ := writeGuestBarAddr_eq mode config region.2 region.1.index addr
    dsimp only
    rw [wrote, Option.bind_some]
    dsimp only
    by_cases written : region.2.written
    · rw [if_neg (not_not.mpr written)]
      refine ⟨_, rfl, ?_⟩
      by_cases is64bit : barType raw = 2
      · rw [decide_eq_true is64bit] at places
        rw [if_pos is64bit, if_pos is64bit]
        exact progress.wideTurn found is64bit written power places _
      · rw [decide_eq_false is64bit] at places
        rw [if_neg is64bit, if_neg is64bit]
        exact progress.narrowTurn found is64bit written power places _
    · rw [if_pos written]
      exact ⟨_, rfl, progress.unwritten found written tried⟩

theorem Progress.next_bounds (progress : Progress done state) (is64bit : Bool) : 0 < (state.next is64bit).toNat := by
  cases is64bit with
  | true => exact Nat.lt_of_lt_of_le (by decide) progress.wide_ge
  | false => exact Nat.lt_of_lt_of_le (by decide) progress.narrow_ge

end Run

/-- The sizes that a BAR may have. -/
def PowerSizes (regions : List (BarRegionInfo × Answers)) : Prop :=
  ∀ region ∈ regions, region.1.size = 0 ∨ ∃ k, region.1.size.toNat = 2 ^ k

section Whole
variable {windows : Windows} {regions : List (BarRegionInfo × Answers)} {region : BarRegionInfo × Answers}
  {final : Assignment} {raw : UInt32}

theorem power_of_probed (found : probed region = some raw) (size : region.1.size = 0 ∨ ∃ k, region.1.size.toNat = 2 ^ k) :
    ∃ k, region.1.size.toNat = 2 ^ k := by
  refine size.resolve_left fun empty => ?_
  rw [probed, if_pos (.inr (.inr empty))] at found
  cases found

theorem PowerSizes.of_append (powers : PowerSizes (regions ++ [region])) :
    PowerSizes regions ∧ (region.1.size = 0 ∨ ∃ k, region.1.size.toNat = 2 ^ k) :=
  ⟨fun other there => powers other (List.mem_append_left _ there), powers region (List.mem_append_right _ (.head _))⟩

theorem Roomy.of_append (roomy : Roomy windows (regions ++ [region])) : Roomy windows regions := by
  obtain ⟨sizes, wide, narrow⟩ := roomy
  refine ⟨fun other there => sizes other (List.mem_append_left _ there), ?_, ?_⟩
  · cases found : probed region with
    | none => rwa [(pieces_unprobed regions found).1] at wide
    | some raw =>
      rw [widePieces_append regions found] at wide
      split at wide
      · exact wide.of_append
      · rwa [List.append_nil] at wide
  · cases found : probed region with
    | none => rwa [(pieces_unprobed regions found).2] at narrow
    | some raw =>
      rw [narrowPieces_append regions found] at narrow
      split at narrow
      · rcases Nat.lt_or_ge fourGiB (alignUp (barPiece false region.1.size).align
          (bumped narrowStart (admitted fourGiB narrowStart (narrowPieces regions))) +
            (barPiece false region.1.size).size) with full | found
        · rwa [admitted_append_full full] at narrow
        · rw [admitted_append_room found] at narrow
          exact narrow.of_append
      · rwa [List.append_nil] at narrow

/-- Where there is room, the loop comes to its end in either build. -/
theorem run_roomy (mode : Overflow) (config : ConfigRegion) (powers : PowerSizes regions) (roomy : Roomy windows regions) :
    ∃ final, regions.foldlM (preassignBar mode config.offset) .start = some final ∧ Progress regions final := by
  induction regions using List.reverseRecOn with
  | nil => exact ⟨_, rfl, .start⟩
  | append_singleton regions region ih =>
    obtain ⟨before, size⟩ := powers.of_append
    obtain ⟨state, ran, progress⟩ := ih before roomy.of_append
    rw [List.foldlM_append, ran]
    simp only [Option.bind_eq_bind, Option.bind_some, List.foldlM_cons, List.foldlM_nil, Option.pure_def,
      Option.bind_fun_some]
    cases found : probed region with
    | none =>
      obtain ⟨wide, narrow⟩ := pieces_unprobed regions found
      exact ⟨state, turn_unprobed found, progress.unchanged wide (by rw [narrow])⟩
    | some raw =>
      obtain ⟨k, power⟩ := power_of_probed found size
      have small := roomy.sizes region (List.mem_append_right _ (.head _)) (by rw [found]; rfl)
      have low : (state.next (barType raw = 2)).toNat ≤ 2 ^ 62 := by
        rw [Assignment.next]
        split
        · rw [progress.wide]
          rcases room_iff.mp roomy.of_append.wide with empty | inside
          · rw [empty]
            decide
          · exact Nat.le_trans inside windows.bounded
        · exact Nat.le_trans progress.narrow_le (by decide)
      obtain ⟨placed, computed, places⟩ := placeBar_fits mode power small (progress.next_bounds _) low
      exact progress.turn mode config found power computed places

/-- Where overflow is checked, the loop comes to its end only with sizes that overflow nothing. -/
theorem run_checked (config : ConfigRegion) (powers : PowerSizes regions)
    (ran : regions.foldlM (preassignBar .checked config.offset) .start = some final) :
    Progress regions final ∧ ∀ region ∈ regions, (probed region).isSome → region.1.size.toNat < 2 ^ 63 := by
  induction regions using List.reverseRecOn generalizing final with
  | nil =>
    cases ran
    exact ⟨.start, fun _ none => nomatch none⟩
  | append_singleton regions region ih =>
    obtain ⟨before, size⟩ := powers.of_append
    rw [List.foldlM_append] at ran
    obtain ⟨state, first, last⟩ := Option.bind_eq_some_iff.mp ran
    simp only [List.foldlM_cons, List.foldlM_nil, Option.pure_def, Option.bind_eq_bind, Option.bind_fun_some] at last
    obtain ⟨progress, sizes⟩ := ih before first
    cases found : probed region with
    | none =>
      obtain ⟨wide, narrow⟩ := pieces_unprobed regions found
      cases (turn_unprobed found).symm.trans last
      refine ⟨progress.unchanged wide (by rw [narrow]), fun other there => ?_⟩
      rcases List.mem_append.mp there with earlier | last
      · exact sizes other earlier
      · rw [List.mem_singleton.mp last, found]
        exact fun none => nomatch none
    | some raw =>
      obtain ⟨k, power⟩ := power_of_probed found size
      have turn : preassignBar .checked config.offset state region = _ := turn_probed found
      obtain ⟨placed, computed, -⟩ := Option.bind_eq_some_iff.mp (turn.symm.trans last)
      obtain ⟨small, places⟩ := places_of_placeBar power (progress.next_bounds _) computed
      obtain ⟨later, same, further⟩ := progress.turn .checked config found power computed places
      cases same.symm.trans last
      refine ⟨further, fun other there => ?_⟩
      rcases List.mem_append.mp there with earlier | last
      · exact sizes other earlier
      · rw [List.mem_singleton.mp last]
        exact fun _ => small

theorem size_pos_of_probed (found : probed region = some raw) : 0 < region.1.size.toNat := by
  rw [probed] at found
  split at found
  · cases found
  next considered =>
    refine Nat.pos_of_ne_zero fun empty => considered (.inr (.inr ?_))
    exact UInt64.toNat_inj.mp empty

theorem device_bounds : ∀ window ∈ MemoryMap.deviceWindows,
    FreshBackend.virtioMmioAddr ≤ window.start ∧ window.stop ≤ fourGiB := by
  intro window there
  simp only [MemoryMap.deviceWindows, reservedMmioRegions, List.map_cons, List.map_nil, List.mem_cons,
    List.not_mem_nil, or_false] at there
  rcases there with rfl | rfl | rfl <;> exact ⟨by decide, by decide⟩

/-- What a BAR has been given is in its window, where there is room in the windows. -/
theorem Progress.has (progress : Progress regions final) (roomy : Roomy windows regions)
    {range : UInt32 × UInt64 × UInt64} (given : Given final region range) : Has windows region range := by
  obtain ⟨index, size, aligned, raw, found, between⟩ := given
  have positive := size_pos_of_probed found
  have length : (rangeSpan range).stop = (rangeSpan range).start + region.1.size.toNat := by
    rw [rangeSpan, size]
  refine ⟨index, size, aligned, raw, found, ?_⟩
  split at between
  next is64bit =>
    rw [if_pos is64bit]
    have cursor := progress.wide
    refine ⟨Nat.le_trans windows.wideBegun between.1, ?_⟩
    rcases room_iff.mp roomy.wide with empty | inside
    · rw [empty, bumped_nil] at cursor
      omega
    · exact Nat.le_trans between.2 (cursor ▸ inside)
  next is32bit =>
    rw [if_neg is32bit]
    have cursor := progress.narrow
    refine ⟨Nat.le_trans windows.narrowBegun between.1, ?_, Nat.le_trans between.2 progress.narrow_le⟩
    rcases room_iff.mp roomy.narrow with empty | inside
    · rw [empty, bumped_nil] at cursor
      omega
    · exact Nat.le_trans between.2 (cursor ▸ inside)

theorem Has.clear {range : UInt32 × UInt64 × UInt64} (has : Has windows region range) :
    ∀ window ∈ MemoryMap.deviceWindows, (rangeSpan range).Disjoint window := by
  intro window there a first second
  obtain ⟨low, high⟩ := device_bounds window there
  obtain ⟨raw, -, inside⟩ := has.inside
  have between := first.1
  have before := first.2
  have := second.1
  have := second.2
  split at inside
  · have := windows.above
    omega
  · have := windows.clear
    omega

theorem Progress.layout (progress : Progress regions final) (roomy : Roomy windows regions) :
    Layout windows regions final.assigned := by
  obtain ⟨chosen, among, given⟩ := progress.chosen
  have has : List.Forall₂ (Has windows) chosen final.assigned := given.imp fun _ _ given => progress.has roomy given
  refine ⟨progress.disjoint, ⟨chosen, among, has⟩, fun range member => ?_⟩
  obtain ⟨region, -, holds⟩ := exists_of_forall₂ has range member
  exact holds.clear

/-- What is laid out had room. -/
theorem Progress.roomy (progress : Progress regions final)
    (sizes : ∀ region ∈ regions, (probed region).isSome → region.1.size.toNat < 2 ^ 63)
    (layout : Layout windows regions final.assigned) : Roomy windows regions := by
  obtain ⟨chosen, -, has⟩ := layout.ranges
  refine ⟨sizes, ?_, ?_⟩
  · rcases progress.lastWide with none | ⟨range, member, high, last⟩
    · exact none ▸ room_nil ..
    · obtain ⟨region, -, holds⟩ := exists_of_forall₂ has range member
      obtain ⟨raw, found, inside⟩ := holds.inside
      have positive := size_pos_of_probed found
      have length : (rangeSpan range).stop = (rangeSpan range).start + region.1.size.toNat := by
        rw [rangeSpan, holds.size]
      split at inside
      · exact room_iff.mpr (.inr (progress.wide ▸ last ▸ inside.2))
      · omega
  · rcases progress.lastNarrow with none | ⟨range, member, low, last⟩
    · exact none ▸ room_nil ..
    · obtain ⟨region, -, holds⟩ := exists_of_forall₂ has range member
      obtain ⟨raw, found, inside⟩ := holds.inside
      split at inside
      · exact absurd (Nat.le_trans windows.above inside.1) (Nat.not_le.mpr low)
      · exact room_iff.mpr (.inr (progress.narrow ▸ last ▸ inside.2.1))

/-- The addresses given before the boot are a layout of the root port's windows
exactly where the BARs have room there in their order, and those 32-bit BARs have it
that find room below 4 GiB. -/
theorem valid_iff_roomy (reading : Reading) (session : Session) (regions : List (BarRegionInfo × Answers))
    (powers : PowerSizes regions) : Valid reading session regions ↔
      (session.deviceFd.isSome → session.configRegion.isSome → Roomy reading.windows regions) := by
  obtain ⟨deviceFd, configRegion⟩ := session
  cases deviceFd with
  | none =>
    have ended (mode : Overflow) : preassignGuestBarAddresses mode ⟨none, configRegion⟩ regions = throw .notAvailable := rfl
    refine iff_of_true ⟨?_, fun mode assigned writes returned => ?_⟩ fun absent => nomatch absent
    · rw [ended]
      exact throw_panics _
    · rw [ended] at returned
      exact absurd returned (throw_returns _ _)
  | some fd =>
    cases configRegion with
    | none =>
      have ended (mode : Overflow) : preassignGuestBarAddresses mode ⟨some fd, none⟩ regions = throw .notAvailable := rfl
      refine iff_of_true ⟨?_, fun mode assigned writes returned => ?_⟩ fun _ absent => nomatch absent
      · rw [ended]
        exact throw_panics _
      · rw [ended] at returned
        exact absurd returned (throw_returns _ _)
    | some config =>
      have whole (mode : Overflow) : preassignGuestBarAddresses mode ⟨some fd, some config⟩ regions =
          checked (regions.foldlM (preassignBar mode config.offset) .start) >>= fun final =>
            pure (final.assigned, final.writes) := rfl
      constructor
      · rintro ⟨total, layout⟩ - -
        cases ran : regions.foldlM (preassignBar .checked config.offset) .start with
        | none =>
          rw [whole, ran] at total
          exact absurd ((bind_panics ..).mpr (.inl ((checked_panics _).mpr rfl))) total
        | some final =>
          obtain ⟨progress, sizes⟩ := run_checked config powers ran
          refine progress.roomy sizes (layout .checked final.assigned final.writes ?_)
          rw [whole, ran, checked_some_bind, pure_returns]
      · intro roomy
        have roomy := roomy rfl rfl
        constructor
        · obtain ⟨final, ran, -⟩ := run_roomy .checked config powers roomy
          rw [whole, ran, checked_some_bind]
          exact pure_panics _
        · intro mode assigned writes returned
          obtain ⟨final, ran, progress⟩ := run_roomy mode config powers roomy
          rw [whole, ran, checked_some_bind, pure_returns] at returned
          cases returned
          exact progress.layout roomy

end Whole

/-- One 32-bit BAR of 512 MiB whose registers take an address. -/
def largeBar : BarRegionInfo × Answers := (⟨1, 0x20000000, 0, true⟩, ⟨some 0, some 0, true, true⟩)

def openSession : Session := ⟨some 3, some ⟨0x6000, by decide⟩⟩

theorem large_power : PowerSizes [largeBar] := by
  intro region there
  rw [List.mem_singleton.mp there]
  exact .inr ⟨29, rfl⟩

/-- The BAR leaves no room for its window, and covers the devices below 4 GiB. -/
theorem large_bar_covers_devices :
    (preassignGuestBarAddresses .checked openSession [largeBar]).Returns
      ([(1, 0xE0000000, 0x20000000)], [⟨0x6014, 0xE0000000⟩]) ∧
    (rangeSpan (1, 0xE0000000, 0x20000000)).Has FreshBackend.virtioMmioAddr ∧
      ¬ ∀ reading session regions, PowerSizes regions → Valid reading session regions := by
  have returned : (preassignGuestBarAddresses .checked openSession [largeBar]).Returns
      ([(1, 0xE0000000, 0x20000000)], [⟨0x6014, 0xE0000000⟩]) := rfl
  have covered : (rangeSpan (1, 0xE0000000, 0x20000000)).Has FreshBackend.virtioMmioAddr := by decide
  refine ⟨returned, covered, fun valid => ?_⟩
  have layout := (valid .limits openSession [largeBar] large_power).layout .checked _ _ returned
  exact layout.devices _ (.head _) ⟨FreshBackend.virtioMmioAddr, _⟩ (.head _) _ covered (by decide)

/-- A 64-bit BAR of 16 GiB. -/
def memoryBar : BarRegionInfo × Answers := (⟨1, 0x400000000, 0, true⟩, ⟨some 4, some 4, true, true⟩)

theorem memory_bar_has_room : Valid .limits openSession [memoryBar] := by
  have powers : PowerSizes [memoryBar] := by
    intro region there
    rw [List.mem_singleton.mp there]
    exact .inr ⟨34, rfl⟩
  refine (valid_iff_roomy .limits openSession [memoryBar] powers).mpr fun _ _ => ⟨?_, ?_, ?_⟩
  · intro region there _
    rw [List.mem_singleton.mp there]
    decide
  · exact room_iff.mpr (.inr (by decide))
  · exact room_nil ..

end TinyMachine.Vfio
