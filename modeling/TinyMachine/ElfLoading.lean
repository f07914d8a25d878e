import TinyMachine.BootPlacement
import TinyMachine.Lib.Words

/-! Loading the kernel and the initrd: what the segments of a file can make the
loader read, write and add up. -/
namespace TinyMachine.BootImage
open Lib

/-! ## The initrd, in the arithmetic of the source -/

/-- `kernel_end` of `boot_linux`. -/
def kernelEndChecked (mode : Overflow) (segments : List LoadSegment) : Option UInt64 := do
  let ends ← segments.mapM fun seg => mode.add64 seg.physAddr seg.memSize
  return ends.foldl max 0

/-- `initrd_addr` of `boot_linux`: the first multiple of 2 MiB that is not
below the kernel. -/
def initrdAddrChecked (mode : Overflow) (segments : List LoadSegment) : Option UInt64 := do
  let kernelEnd ← kernelEndChecked mode segments
  let raised ← mode.add64 kernelEnd 0x200000
  return (raised - 1) &&& ~~~ 0x1FFFFF

/-- The address of the initrd, and `load_initrd`. -/
def loadInitrdChecked (mode : Overflow) (segments : List LoadSegment) (initrdData : List UInt8) (memSize : Nat)
    (mem : Memory) : Fallible BootError Memory := do
  let initrdAddr ← Fallible.checked (initrdAddrChecked mode segments)
  let initrdEnd ← Fallible.checked (mode.add64 initrdAddr (.ofNat initrdData.length))
  Fallible.of (validateGuestRange memSize initrdAddr.toNat initrdEnd.toNat)
  return mem.store initrdAddr.toNat initrdData

/-! ## What is owed -/

/-- What changes is in the range, and below the end of memory. -/
def ChangesWithin (memSize start stop : Nat) (mem next : Memory) : Prop :=
  ∀ a, next a ≠ mem a → start ≤ a ∧ a < stop ∧ a < memSize

/-- Whatever is new is a byte of the data. -/
def ReadsFrom (data : List UInt8) (mem next : Memory) : Prop :=
  ∀ a, next a ≠ mem a → ∃ (i : Nat) (inside : i < data.length), next a = data[i]

/-- The step adds up nothing beyond 64 bits: it does not panic in a build that
checks, and does the same in one that does not. -/
def Total (step : Overflow → Fallible BootError Memory) : Prop :=
  ¬ (step .checked).Panics ∧ step .wrapping = step .checked

structure SegmentConfined (elfData : List UInt8) (memSize : Nat) (seg : LoadSegment) : Prop where
  total : ∀ mem, Total fun mode => loadElfSegment mode elfData memSize seg mem
  confined : ∀ mode mem next, (loadElfSegment mode elfData memSize seg mem).Returns next →
    ChangesWithin memSize seg.physAddr.toNat (seg.physAddr.toNat + seg.memSize.toNat) mem next ∧
      ReadsFrom elfData mem next

structure InitrdConfined (segments : List LoadSegment) (initrdData : List UInt8) (memSize : Nat) : Prop where
  total : ∀ mem, Total fun mode => loadInitrdChecked mode segments initrdData memSize mem
  confined : ∀ mode mem next, (loadInitrdChecked mode segments initrdData memSize mem).Returns next →
    ChangesWithin memSize 0 memSize mem next

/-- The loop loads these segments and goes on. -/
def Passes (mode : Overflow) (elfData : List UInt8) (memSize : Nat) (segments : List LoadSegment) : Prop :=
  ∃ mem next, (loadElfSegments mode elfData memSize segments mem).Returns next

/-- Every segment that the loop comes to is loaded into its own range or
refused, and so is the initrd after the last one. -/
structure LoadsConfined (mode : Overflow) (elfData : List UInt8) (memSize : Nat) (segments : List LoadSegment)
    (initrd : Option (List UInt8)) : Prop where
  each : ∀ before seg after, segments = before ++ seg :: after → Passes mode elfData memSize before →
    SegmentConfined elfData memSize seg
  last : ∀ data ∈ initrd, Passes mode elfData memSize segments → InitrdConfined segments data memSize

/-! ## One segment -/

/-- What `validate_guest_range` says about a segment. -/
structure RangeAccepted (memSize : Nat) (seg : LoadSegment) : Prop where
  nonempty : 0 < seg.memSize.toNat
  inRam : seg.physAddr.toNat + seg.memSize.toNat ≤ memSize
  unguarded : overlapsReserved seg.physAddr.toNat (seg.physAddr.toNat + seg.memSize.toNat) = false

/-- The ends of the segment are numbers of 64 bits, that in the file only if
the one in memory is accepted, and no more of the file is in the segment than
it has room for. -/
structure SegmentFits (elfLength memSize : Nat) (seg : LoadSegment) : Prop where
  inMemory : seg.physAddr.toNat + seg.memSize.toNat < 2 ^ 64
  inFile : RangeAccepted memSize seg → seg.fileOffset.toNat + seg.fileSize.toNat < 2 ^ 64
  room : SegmentAccepted elfLength memSize seg → seg.fileSize.toNat ≤ seg.memSize.toNat

section Segment
variable {mode : Overflow} {elfData : List UInt8} {memSize : Nat} {seg : LoadSegment} {mem next : Memory}

theorem add64_fits {a b : UInt64} (fits : a.toNat + b.toNat < 2 ^ 64) : mode.add64 a b = some (a + b) :=
  Overflow.fit_of_fits fits

theorem toNat_add_fits {a b : UInt64} (fits : a.toNat + b.toNat < 2 ^ 64) : (a + b).toNat = a.toNat + b.toNat := by
  rw [UInt64.toNat_add]
  exact Nat.mod_eq_of_lt fits

theorem add64_checked {a b : UInt64} : Overflow.checked.add64 a b = none ↔ 2 ^ 64 ≤ a.toNat + b.toNat := by
  unfold Overflow.add64 Overflow.fit
  simp

theorem rangeAccepted_iff {done : Unit} (fits : seg.physAddr.toNat + seg.memSize.toNat < 2 ^ 64) :
    validateGuestRange memSize seg.physAddr.toNat (seg.physAddr + seg.memSize).toNat = .ok done ↔
      RangeAccepted memSize seg := by
  rw [validateGuestRange_ok_iff, toNat_add_fits fits]
  constructor
  · rintro ⟨order, inRam, unguarded⟩
    exact ⟨by omega, inRam, unguarded⟩
  · rintro ⟨nonempty, inRam, unguarded⟩
    exact ⟨by omega, inRam, unguarded⟩

/-- The step on numbers that do not overflow. -/
def segmentStep (elfData : List UInt8) (memSize : Nat) (seg : LoadSegment) (mem : Memory) :
    Except BootError Memory := do
  validateGuestRange memSize seg.physAddr.toNat (seg.physAddr + seg.memSize).toNat
  if elfData.length < seg.fileOffset.toNat + seg.fileSize.toNat then
    throw (.elf (s!"Segment at physical 0x{hex seg.physAddr.toNat} exceeds ELF file: need " ++
      s!"{seg.fileOffset + seg.fileSize} bytes, file has {elfData.length}"))
  return mem.store seg.physAddr.toNat (fileBytes elfData seg)

theorem loadElfSegment_eq (mem : Memory) (inMemory : seg.physAddr.toNat + seg.memSize.toNat < 2 ^ 64)
    (inFile : RangeAccepted memSize seg → seg.fileOffset.toNat + seg.fileSize.toNat < 2 ^ 64) :
    loadElfSegment mode elfData memSize seg mem = Fallible.of (segmentStep elfData memSize seg mem) := by
  have checked := @rangeAccepted_iff memSize seg () inMemory
  simp only [loadElfSegment, segmentStep]
  rw [add64_fits inMemory, Fallible.checked_some_bind]
  cases range : validateGuestRange memSize seg.physAddr.toNat (seg.physAddr + seg.memSize).toNat with
  | error e => rfl
  | ok done =>
    have fits := inFile (checked.mp range)
    have ordered : ¬ seg.fileOffset + seg.fileSize < seg.fileOffset := by
      rw [UInt64.lt_iff_toNat_lt, toNat_add_fits fits]
      omega
    rw [Fallible.of_ok_bind, add64_fits fits, Fallible.checked_some_bind, toNat_add_fits fits]
    by_cases long : elfData.length < seg.fileOffset.toNat + seg.fileSize.toNat
    · simp only [gt_iff_lt, long, if_true]
      rfl
    · simp only [gt_iff_lt, long, ordered, if_false, Nat.add_sub_cancel_left]
      rfl

theorem segment_total_iff : (∀ mem, Total fun mode => loadElfSegment mode elfData memSize seg mem) ↔
    seg.physAddr.toNat + seg.memSize.toNat < 2 ^ 64 ∧
      (RangeAccepted memSize seg → seg.fileOffset.toNat + seg.fileSize.toNat < 2 ^ 64) := by
  constructor
  · intro total
    have runs := (total Memory.zeroed).1
    simp only [loadElfSegment, Fallible.bind_panics, Fallible.checked_panics, not_or, not_exists, not_and] at runs
    obtain ⟨first, later⟩ := runs
    have inMemory : seg.physAddr.toNat + seg.memSize.toNat < 2 ^ 64 := by
      rw [add64_checked] at first
      omega
    refine ⟨inMemory, fun accepted => ?_⟩
    have second := (later _ ((Fallible.checked_returns _ _).mpr (add64_fits inMemory))).2 ()
      ((Fallible.of_returns _ _).mpr ((rangeAccepted_iff inMemory).mpr accepted))
    rw [add64_checked] at second
    omega
  · rintro ⟨inMemory, inFile⟩ mem
    unfold Total
    beta_reduce
    rw [loadElfSegment_eq mem inMemory inFile, loadElfSegment_eq mem inMemory inFile]
    exact ⟨Fallible.of_panics _, rfl⟩

theorem SegmentAccepted.range (accepted : SegmentAccepted elfData.length memSize seg) : RangeAccepted memSize seg :=
  ⟨accepted.nonempty, accepted.inRam, accepted.unguarded⟩

/-- What is accepted is loaded. -/
theorem loadElfSegment_accepted (mem : Memory) (inMemory : seg.physAddr.toNat + seg.memSize.toNat < 2 ^ 64)
    (inFile : seg.fileOffset.toNat + seg.fileSize.toNat < 2 ^ 64)
    (accepted : SegmentAccepted elfData.length memSize seg) :
    (loadElfSegment mode elfData memSize seg mem).Returns (mem.store seg.physAddr.toNat (fileBytes elfData seg)) := by
  have short : ¬ elfData.length < seg.fileOffset.toNat + seg.fileSize.toNat := Nat.not_lt.mpr accepted.inFile
  rw [loadElfSegment_eq mem inMemory fun _ => inFile, Fallible.of_returns]
  simp only [segmentStep, bind_eq_ok]
  refine ⟨(), (rangeAccepted_iff inMemory).mpr accepted.range, ?_⟩
  rw [if_neg short]
  rfl

/-- A step is confined exactly if the segment fits. -/
theorem segmentConfined_iff : SegmentConfined elfData memSize seg ↔ SegmentFits elfData.length memSize seg := by
  constructor
  · intro step
    obtain ⟨inMemory, inFile⟩ := segment_total_iff.mp step.total
    refine ⟨inMemory, inFile, fun accepted => ?_⟩
    by_contra beyond
    have length : (fileBytes elfData seg).length = seg.fileSize.toNat := length_fileBytes accepted
    have inside : seg.memSize.toNat < (fileBytes elfData seg).length := by omega
    have loaded := @loadElfSegment_accepted .checked elfData memSize seg
      (fun _ => (fileBytes elfData seg)[seg.memSize.toNat] + 1) inMemory (inFile accepted.range) accepted
    have behind := (step.confined _ _ _ loaded).1 (seg.physAddr.toNat + seg.memSize.toNat)
    rw [Memory.store_inside (Nat.le_add_right ..) (by omega)] at behind
    simp only [Nat.add_sub_cancel_left] at behind
    have other : (fileBytes elfData seg)[seg.memSize.toNat] ≠ (fileBytes elfData seg)[seg.memSize.toNat] + 1 := by
      simp
    exact absurd (behind other).2.1 (Nat.lt_irrefl _)
  · intro fits
    refine ⟨segment_total_iff.mpr ⟨fits.inMemory, fits.inFile⟩, fun mode mem next loaded => ?_⟩
    obtain ⟨accepted, rfl⟩ := loadElfSegment_returns loaded
    have room := fits.room accepted
    have inRam := accepted.inRam
    have length : (fileBytes elfData seg).length = seg.fileSize.toNat := length_fileBytes accepted
    have written : ∀ a, mem.store seg.physAddr.toNat (fileBytes elfData seg) a ≠ mem a →
        seg.physAddr.toNat ≤ a ∧ a < seg.physAddr.toNat + (fileBytes elfData seg).length := by
      intro a changed
      by_contra outside
      exact changed (Memory.store_outside (by omega))
    constructor
    · intro a changed
      have place := written a changed
      omega
    · intro a changed
      obtain ⟨low, high⟩ := written a changed
      rw [Memory.store_inside low high]
      obtain ⟨i, inside, same⟩ := List.getElem_of_mem (List.mem_of_mem_drop (List.mem_of_mem_take
        (List.getElem_mem (l := fileBytes elfData seg) (n := a - seg.physAddr.toNat) (by omega))))
      exact ⟨i, inside, same.symm⟩

end Segment

/-! ## All segments -/

section Segments
variable {mode : Overflow} {elfData : List UInt8} {memSize : Nat} {segments : List LoadSegment}

/-- The loop goes on exactly behind segments that are all accepted. -/
theorem passes_iff (wide : memSize < 2 ^ 64) (short : elfData.length < 2 ^ 64) :
    Passes mode elfData memSize segments ↔ ∀ seg ∈ segments, SegmentAccepted elfData.length memSize seg := by
  constructor
  · rintro ⟨mem, next, loaded⟩
    exact (loadElfSegments_returns loaded).1
  · intro accepted
    have runs (mem : Memory) : ∃ next, (loadElfSegments mode elfData memSize segments mem).Returns next := by
      induction segments generalizing mem with
      | nil => exact ⟨mem, (Fallible.pure_returns _ _).mpr rfl⟩
      | cons seg rest ih =>
        have own := accepted seg List.mem_cons_self
        have inRam := own.inRam
        have inFile := own.inFile
        obtain ⟨next, loaded⟩ := ih (fun other member => accepted other (List.mem_cons_of_mem seg member))
          (mem.store seg.physAddr.toNat (fileBytes elfData seg))
        exact ⟨next, (Fallible.bind_returns _ _ _).mpr
          ⟨_, loadElfSegment_accepted mem (by omega) (by omega) own, loaded⟩⟩
    exact ⟨Memory.zeroed, runs Memory.zeroed⟩

end Segments

/-! ## The initrd -/

section Initrd
variable {mode : Overflow} {memSize : Nat} {segments : List LoadSegment} {initrdData : List UInt8}

theorem foldl_max_toNat (words : List UInt64) (first : UInt64) :
    (words.foldl max first).toNat = (words.map UInt64.toNat).foldl max first.toNat := by
  induction words generalizing first with
  | nil => rfl
  | cons word rest ih =>
    have larger : (max first word).toNat = max first.toNat word.toNat := by
      rw [UInt64.max_def]
      split <;> simp_all [UInt64.le_iff_toNat_le] <;> omega
    rw [List.foldl_cons, ih, larger, List.map_cons, List.foldl_cons]

/-- The end of the kernel is that of the segment that reaches furthest. -/
theorem kernelEndChecked_eq (fits : ∀ seg ∈ segments, seg.physAddr.toNat + seg.memSize.toNat < 2 ^ 64) :
    ∃ stop, kernelEndChecked mode segments = some stop ∧ stop.toNat = kernelEnd segments := by
  have ends : segments.mapM (fun seg => mode.add64 seg.physAddr seg.memSize) =
      some (segments.map fun seg => seg.physAddr + seg.memSize) := by
    induction segments with
    | nil => rfl
    | cons seg rest ih =>
      rw [List.mapM_cons, add64_fits (fits seg List.mem_cons_self),
        ih fun other member => fits other (List.mem_cons_of_mem seg member)]
      rfl
  refine ⟨_, by rw [kernelEndChecked, ends]; rfl, ?_⟩
  rw [foldl_max_toNat, kernelEnd, List.map_map]
  congr 1
  apply List.map_congr_left
  intro seg member
  exact toNat_add_fits (fits seg member)

/-- In range, the address is the one that is not computed in words. -/
theorem initrdAddrChecked_eq (fits : ∀ seg ∈ segments, seg.physAddr.toNat + seg.memSize.toNat < 2 ^ 64)
    (raised : kernelEnd segments + 0x200000 < 2 ^ 64) :
    ∃ addr, initrdAddrChecked mode segments = some addr ∧ addr.toNat = initrdAddr segments := by
  obtain ⟨stop, found, same⟩ := @kernelEndChecked_eq mode segments fits
  have sum : stop.toNat + (0x200000 : UInt64).toNat < 2 ^ 64 := by
    rw [same]
    exact raised
  refine ⟨_, by rw [initrdAddrChecked, found, Option.bind_eq_bind, Option.bind_some, add64_fits sum]; rfl, ?_⟩
  have lower : (stop + 0x200000 - 1).toNat = kernelEnd segments + 0x1FFFFF := by
    have whole : (stop + 0x200000).toNat = kernelEnd segments + 0x200000 := by
      rw [toNat_add_fits sum, same, (by decide : (0x200000 : UInt64).toNat = 0x200000)]
    rw [UInt64.toNat_sub_of_le _ _ (UInt64.le_iff_toNat_le.mpr (by rw [whole]; exact Nat.le_add_left ..)), whole,
      (by decide : (1 : UInt64).toNat = 1)]
    omega
  rw [toNat_clear_low (k := 21) (by decide) (by decide), lower, initrdAddr, alignUp2MB,
    (by decide : pageSize2MB = 2 ^ 21)]
  omega

/-- The numbers on the way to the end of the initrd are of 64 bits. -/
structure InitrdFits (segments : List LoadSegment) (length : Nat) : Prop where
  raised : kernelEnd segments + 0x200000 < 2 ^ 64
  ends : initrdAddr segments + length < 2 ^ 64

/-- In range, this is `load_initrd` at the address. -/
theorem loadInitrdChecked_eq (fits : ∀ seg ∈ segments, seg.physAddr.toNat + seg.memSize.toNat < 2 ^ 64)
    (initrdFits : InitrdFits segments initrdData.length) (mem : Memory) :
    loadInitrdChecked mode segments initrdData memSize mem =
      Fallible.of (loadInitrd initrdData memSize (initrdAddr segments) mem) := by
  obtain ⟨addr, found, same⟩ := @initrdAddrChecked_eq mode segments fits initrdFits.raised
  have ends := initrdFits.ends
  have length : (UInt64.ofNat initrdData.length).toNat = initrdData.length :=
    UInt64.toNat_ofNat_of_lt' (Nat.lt_of_le_of_lt (Nat.le_add_left ..) ends)
  have sum : addr.toNat + (UInt64.ofNat initrdData.length).toNat < 2 ^ 64 := by
    rw [length, same]
    exact ends
  simp only [loadInitrdChecked, loadInitrd]
  rw [found, Fallible.checked_some_bind, add64_fits sum, Fallible.checked_some_bind, toNat_add_fits sum, length, same]
  cases validateGuestRange memSize (initrdAddr segments) (initrdAddr segments + initrdData.length) with
  | error e => rfl
  | ok done => rfl

/-- The initrd is confined exactly if its numbers fit. -/
theorem initrdConfined_iff (fits : ∀ seg ∈ segments, seg.physAddr.toNat + seg.memSize.toNat < 2 ^ 64)
    (short : initrdData.length < 2 ^ 64) :
    InitrdConfined segments initrdData memSize ↔ InitrdFits segments initrdData.length := by
  constructor
  · intro confined
    have runs := (confined.total Memory.zeroed).1
    obtain ⟨stop, found, same⟩ := @kernelEndChecked_eq .checked segments fits
    simp only [loadInitrdChecked, Fallible.bind_panics, Fallible.checked_panics, not_or, not_exists, not_and] at runs
    obtain ⟨first, later⟩ := runs
    have raised : kernelEnd segments + 0x200000 < 2 ^ 64 := by
      by_contra beyond
      refine first ?_
      rw [initrdAddrChecked, found, Option.bind_eq_bind, Option.bind_some, add64_checked.mpr]
      · rfl
      · rw [same]
        exact Nat.not_lt.mp beyond
    obtain ⟨addr, placed, at'⟩ := @initrdAddrChecked_eq .checked segments fits raised
    refine ⟨raised, ?_⟩
    have second := (later addr ((Fallible.checked_returns _ _).mpr placed)).1
    rw [add64_checked, UInt64.toNat_ofNat_of_lt' short, at'] at second
    omega
  · intro initrdFits
    constructor
    · intro mem
      unfold Total
      beta_reduce
      rw [loadInitrdChecked_eq fits initrdFits, loadInitrdChecked_eq fits initrdFits]
      exact ⟨Fallible.of_panics _, rfl⟩
    · intro mode mem next loaded a changed
      rw [loadInitrdChecked_eq fits initrdFits, Fallible.of_returns] at loaded
      obtain ⟨-, inside, rfl⟩ := loadInitrd_ok loaded
      have below : a < initrdAddr segments + initrdData.length := by
        by_contra outside
        exact changed (Memory.store_outside (by omega))
      omega

end Initrd

/-! ## Loading as a whole -/

/-- Loading is confined exactly if every segment that the loop comes to fits,
and so does the initrd behind segments that are all accepted. -/
theorem loads_confined_iff (mode : Overflow) {elfData : List UInt8} {memSize : Nat} (segments : List LoadSegment)
    {initrd : Option (List UInt8)} (wide : memSize < 2 ^ 64) (short : elfData.length < 2 ^ 64)
    (shortInitrd : ∀ data ∈ initrd, data.length < 2 ^ 64) :
    LoadsConfined mode elfData memSize segments initrd ↔
      (∀ before seg after, segments = before ++ seg :: after →
        (∀ other ∈ before, SegmentAccepted elfData.length memSize other) → SegmentFits elfData.length memSize seg) ∧
      ((∀ seg ∈ segments, SegmentAccepted elfData.length memSize seg) →
        ∀ data ∈ initrd, InitrdFits segments data.length) := by
  have fits : (∀ seg ∈ segments, SegmentAccepted elfData.length memSize seg) →
      ∀ seg ∈ segments, seg.physAddr.toNat + seg.memSize.toNat < 2 ^ 64 := fun accepted seg member =>
    Nat.lt_of_le_of_lt (accepted seg member).inRam wide
  constructor
  · intro confined
    refine ⟨fun before seg after split accepted => ?_, fun accepted data given => ?_⟩
    · exact segmentConfined_iff.mp (confined.each before seg after split ((passes_iff wide short).mpr accepted))
    · exact (initrdConfined_iff (fits accepted) (shortInitrd data given)).mp
        (confined.last data given ((passes_iff wide short).mpr accepted))
  · rintro ⟨each, last⟩
    refine ⟨fun before seg after split passes => ?_, fun data given passes => ?_⟩
    · exact segmentConfined_iff.mpr (each before seg after split ((passes_iff wide short).mp passes))
    · have accepted := (passes_iff wide short).mp passes
      exact (initrdConfined_iff (fits accepted) (shortInitrd data given)).mpr (last accepted data given)

/-- A segment of one byte at 1 MiB, with so many bytes of the file. -/
def oneByteSegment (fileSize : UInt64) : LoadSegment := ⟨0, fileSize, 0x100000, 1⟩

theorem oneByteSegment_confined : LoadsConfined .checked [0xF4] 0x4000000 [oneByteSegment 1] (some [1, 2]) := by
  have accepted : SegmentAccepted 1 0x4000000 (oneByteSegment 1) := ⟨by decide, by decide, by decide, by decide⟩
  refine (loads_confined_iff .checked _ (by decide) (by decide) ?_).mpr ⟨?_, ?_⟩
  · intro data given
    cases given
    decide
  · intro before seg after split _
    cases before with
    | nil =>
      obtain ⟨rfl, -⟩ := List.cons.inj split
      exact ⟨by decide, fun _ => by decide, fun _ => by decide⟩
    | cons first before => simp at split
  · intro _ data given
    cases given
    exact ⟨by decide, by decide⟩

/-- A segment with more bytes in the file than in memory is loaded beyond its
end. -/
theorem long_segment_escapes : ¬ LoadsConfined .checked [0xF4, 0xF4] 0x4000000 [oneByteSegment 2] none := by
  intro confined
  have step := confined.each [] (oneByteSegment 2) [] rfl
    ⟨Memory.zeroed, Memory.zeroed, (Fallible.pure_returns _ _).mpr rfl⟩
  have accepted : SegmentAccepted 2 0x4000000 (oneByteSegment 2) := ⟨by decide, by decide, by decide, by decide⟩
  exact absurd ((segmentConfined_iff.mp step).room accepted) (by decide)

end TinyMachine.BootImage
