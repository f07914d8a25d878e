import TinyMachine.BootImage
import TinyMachine.Lib.Placement
import TinyMachine.MemoryMapProofs
import TinyMachine.PageTableProofs

/-! When the steps of boot leave each other's data alone. Every step writes to
the areas of the things it places; the vCPU starts with all of them in place
exactly when these areas are apart and in RAM, which fails for kernel segments
the range check does not know enough about and for tables that outgrow their
page. -/
namespace TinyMachine.BootImage
open Lib

/-! ## What is placed -/

/-- The bytes of a segment that come from the file. -/
def fileBytes (elfData : List UInt8) (seg : LoadSegment) : List UInt8 :=
  (elfData.drop seg.fileOffset.toNat).take seg.fileSize.toNat

/-- A segment: its bytes from the file, then zeros up to its size in memory. -/
def segmentBlock (elfData : List UInt8) (seg : LoadSegment) : Block where
  addr := seg.physAddr.toNat
  bytes := fileBytes elfData seg ++ List.replicate (seg.memSize.toNat - seg.fileSize.toNat) 0

def initrdAddr (segments : List LoadSegment) : Nat := alignUp2MB (kernelEnd segments)

/-- The initrd, when there is one. -/
def initrdBlocks (segments : List LoadSegment) (initrd : Option (List UInt8)) : List Block :=
  initrd.toList.map fun data => ⟨initrdAddr segments, data⟩

def initrdInfo (segments : List LoadSegment) (initrd : Option (List UInt8)) : Option (Nat × Nat) :=
  initrd.map fun data => (initrdAddr segments, data.length)

def startInfoBlock (info : Option (Nat × Nat)) : Block where
  addr := pvhStartInfoAddr
  bytes := Memory.bytesLE 4 hvmStartMagic ++ Memory.bytesLE 4 1 ++ Memory.bytesLE 4 0 ++
    Memory.bytesLE 4 (if info.isSome then 1 else 0) ++
    Memory.bytesLE 8 (if info.isSome then pvhModlistAddr else 0) ++ Memory.bytesLE 8 pvhCmdlineAddr

def modlistBlocks (info : Option (Nat × Nat)) : List Block :=
  info.toList.map fun (addr, size) =>
    ⟨pvhModlistAddr, Memory.bytesLE 8 addr ++ Memory.bytesLE 8 size ++ Memory.bytesLE 8 0 ++
      Memory.bytesLE 8 0⟩

/-- The command line the kernel is given. -/
def cmdlineBlock (config : BootConfig) : Block where
  addr := pvhCmdlineAddr
  bytes :=
    if config.pvhBoot then
      let taken := (pvhCmdline config.cmdline).take 255
      taken ++ List.replicate (256 - taken.length) 0
    else fallbackCmdline

/-- How far `boot_params` and its E820 table reach. -/
def paramsSize (entryCount : Nat) : Nat :=
  max bootParamsSize (e820TableOffset + e820EntrySize * entryCount)

/-- `boot_params` as its writes leave it in a fresh page. -/
def paramsImage (info : Option (Nat × Nat)) (entries : List E820Entry) : Memory :=
  writeE820 entries (writeFallbackCmdline (writeSetupHeader info Memory.zeroed))

def paramsBlock (info : Option (Nat × Nat)) (entries : List E820Entry) : Block where
  addr := bootParamsAddr
  bytes := (paramsImage info entries).fetch bootParamsAddr (paramsSize entries.length)

def gdtBlock : Block where
  addr := gdtAddr
  bytes := Memory.bytesLE 8 gdtNull ++ Memory.bytesLE 8 gdtCode ++ Memory.bytesLE 8 gdtData

/-- One page table entry. -/
def entryBlock (addr value : Nat) : Block := ⟨addr, Memory.bytesLE 8 value⟩

def pdBytes : Nat → List UInt8
  | 0 => []
  | i + 1 => pdBytes i ++ Memory.bytesLE 8 (pdEntry i)

/-- The page directory. -/
def pdBlock (memSize : Nat) : Block := ⟨pdAddr, pdBytes (numPdEntries memSize)⟩

def tableBlocks (memSize : Nat) : List Block :=
  [entryBlock pml4Addr (pdpAddr ||| ptPresent ||| ptRw),
    entryBlock (pml4Addr + 511 * 8) (pdp1Addr ||| ptPresent ||| ptRw),
    entryBlock pdpAddr (pdAddr ||| ptPresent ||| ptRw), pdBlock memSize,
    entryBlock (pdp1Addr + 510 * 8) (pdAddr ||| ptPresent ||| ptRw)]

/-- What PVH adds. -/
def pvhBlocks (config : BootConfig) (info : Option (Nat × Nat)) : List Block :=
  if config.pvhBoot then startInfoBlock info :: modlistBlocks info else []

/-- What a boot reads: the kernel file, its segments and the initrd, and the
E820 entries for its reserved regions. -/
structure Parts where
  elfData : List UInt8
  segments : List LoadSegment
  initrd : Option (List UInt8)
  entries : List E820Entry

/-- Everything placed at or below the tables, from low to high addresses. -/
def lowBlocks (config : BootConfig) (parts : Parts) : List Block :=
  let info := initrdInfo parts.segments parts.initrd
  pvhBlocks config info ++ cmdlineBlock config :: paramsBlock info parts.entries :: gdtBlock ::
    tableBlocks config.memorySize

def segmentBlocks (parts : Parts) : List Block := parts.segments.map (segmentBlock parts.elfData)

/-- Everything that is placed. -/
def placed (config : BootConfig) (parts : Parts) : List Block :=
  segmentBlocks parts ++ (initrdBlocks parts.segments parts.initrd ++ lowBlocks config parts)

/-- Every block is in place, in RAM, and apart from the others. -/
structure NoClobber (memSize : Nat) (blocks : List Block) (mem : Memory) : Prop where
  apart : (blocks.map Block.span).Pairwise Span.Disjoint
  inRam : ∀ block ∈ blocks, block.span.stop ≤ memSize
  held : ∀ block ∈ blocks, block.HeldIn mem

/-! ## What boot accepts -/

/-- What the checks of `load_elf_segments` say about a segment. -/
structure SegmentAccepted (elfLength memSize : Nat) (seg : LoadSegment) : Prop where
  nonempty : 0 < seg.memSize.toNat
  inRam : seg.physAddr.toNat + seg.memSize.toNat ≤ memSize
  unguarded : overlapsReserved seg.physAddr.toNat (seg.physAddr.toNat + seg.memSize.toNat) = false
  inFile : seg.fileOffset.toNat + seg.fileSize.toNat ≤ elfLength

theorem loadElfSegment_returns {mode : Overflow} {elfData : List UInt8} {memSize : Nat}
    {seg : LoadSegment} {mem result : Memory}
    (loaded : (loadElfSegment mode elfData memSize seg mem).Returns result) :
    SegmentAccepted elfData.length memSize seg ∧
      result = mem.store seg.physAddr.toNat (fileBytes elfData seg) := by
  simp only [loadElfSegment, Fallible.bind_returns, Fallible.checked_returns, Fallible.of_returns,
    Overflow.add64, Overflow.fit_eq_some, validateGuestRange_ok_iff] at loaded
  obtain ⟨stop, ⟨-, rfl⟩, -, ⟨order, inside, unguarded⟩, fileEnd, ⟨-, rfl⟩, rest⟩ := loaded
  have startBound := seg.physAddr.toNat_lt
  have sizeBound := seg.memSize.toNat_lt
  have offsetBound := seg.fileOffset.toNat_lt
  have fileBound := seg.fileSize.toNat_lt
  have stop : (seg.physAddr + seg.memSize).toNat = seg.physAddr.toNat + seg.memSize.toNat := by
    rw [UInt64.toNat_add] at order ⊢
    omega
  rw [stop] at order inside unguarded
  split at rest
  · simp only [Fallible.bind_returns, Fallible.throw_returns, false_and, exists_false] at rest
  next fits =>
    split at rest
    · simp only [Fallible.bind_returns, Fallible.panic_returns, false_and, exists_false] at rest
    next ordered =>
      have fileEnd : (seg.fileOffset + seg.fileSize).toNat =
          seg.fileOffset.toNat + seg.fileSize.toNat := by
        rw [UInt64.lt_iff_toNat_lt, UInt64.toNat_add] at ordered
        rw [UInt64.toNat_add]
        omega
      rw [fileEnd] at fits rest
      rw [Nat.add_sub_cancel_left, Fallible.pure_returns] at rest
      exact ⟨⟨by omega, inside, unguarded, by omega⟩, rest.symm⟩

/-- The effect of loading all segments. -/
def segmentsImage (elfData : List UInt8) (segments : List LoadSegment) (mem : Memory) : Memory :=
  segments.foldl (fun mem seg => mem.store seg.physAddr.toNat (fileBytes elfData seg)) mem

theorem loadElfSegments_returns {mode : Overflow} {elfData : List UInt8} {memSize : Nat}
    {segments : List LoadSegment} {mem result : Memory}
    (loaded : (loadElfSegments mode elfData memSize segments mem).Returns result) :
    (∀ seg ∈ segments, SegmentAccepted elfData.length memSize seg) ∧
      result = segmentsImage elfData segments mem := by
  induction segments generalizing mem with
  | nil =>
    simp only [loadElfSegments, Fallible.pure_returns] at loaded
    exact ⟨by simp, loaded.symm⟩
  | cons seg rest ih =>
    simp only [loadElfSegments, Fallible.bind_returns] at loaded
    obtain ⟨next, first, others⟩ := loaded
    obtain ⟨accepted, rfl⟩ := loadElfSegment_returns first
    obtain ⟨acceptedRest, rfl⟩ := ih others
    exact ⟨List.forall_mem_cons.mpr ⟨accepted, acceptedRest⟩, rfl⟩

/-- Where the initrd comes from. -/
def InitrdRead (files : HostFiles) (config : BootConfig) (initrd : Option (List UInt8)) : Prop :=
  match config.initrdPath with
  | none => initrd = none
  | some path => ∃ data, files.read path = .ok data ∧ initrd = some data

/-- What boot takes in, as far as the image depends on it. -/
structure Reads (mode : Overflow) (parse : ElfParser) (files : HostFiles) (config : BootConfig)
    (parts : Parts) : Prop where
  kernel : files.read config.kernelPath = .ok parts.elfData
  segments : ∃ entry, parseKernelElf parse parts.elfData = .ok (entry, parts.segments)
  initrd : InitrdRead files config parts.initrd
  entries : e820Entries mode config.memorySize config.reservedRegions = some parts.entries

/-- What the checks on the way say. -/
structure Accepted (config : BootConfig) (parts : Parts) : Prop where
  enough : 0x100000 ≤ config.memorySize
  bounded : config.memorySize ≤ 0x1000000000
  loadable : parts.segments ≠ []
  segments : ∀ seg ∈ parts.segments, SegmentAccepted parts.elfData.length config.memorySize seg
  initrd : ∀ data ∈ parts.initrd,
    0 < data.length ∧ initrdAddr parts.segments + data.length ≤ config.memorySize
  tables : numPdEntries config.memorySize ≤ 2048

/-- The effect of placing the initrd. -/
def initrdImage (segments : List LoadSegment) (initrd : Option (List UInt8)) (mem : Memory) : Memory :=
  match initrd with
  | none => mem
  | some data => mem.store (initrdAddr segments) data

/-- The effect of the PVH block. -/
def pvhImage (config : BootConfig) (info : Option (Nat × Nat)) (mem : Memory) : Memory :=
  if config.pvhBoot then writePvhCmdline config.cmdline (writeStartInfo info mem) else mem

/-- The effect of `setup_boot_params`. -/
def bootParamsImage (parts : Parts) (mem : Memory) : Memory :=
  writeE820 parts.entries
    (writeFallbackCmdline (writeSetupHeader (initrdInfo parts.segments parts.initrd) mem))

/-- The steps of boot in their order, on memory as it is mapped. -/
def bootImage (config : BootConfig) (parts : Parts) : Memory :=
  let info := initrdInfo parts.segments parts.initrd
  setupGdt (writePageTables (pvhImage config info (bootParamsImage parts
    (initrdImage parts.segments parts.initrd (segmentsImage parts.elfData parts.segments Memory.zeroed)))) config.memorySize)

theorem loadInitrd_ok {data : List UInt8} {memSize addr : Nat} {mem result : Memory}
    (loaded : loadInitrd data memSize addr mem = .ok result) :
    0 < data.length ∧ addr + data.length ≤ memSize ∧ result = mem.store addr data := by
  simp only [loadInitrd, bind_eq_ok, validateGuestRange_ok_iff, pure_eq_ok] at loaded
  obtain ⟨-, ⟨order, inside, -⟩, rfl⟩ := loaded
  exact ⟨by omega, inside, rfl⟩

theorem placeInitrd_ok {files : HostFiles} {config : BootConfig} {segments : List LoadSegment}
    {mem result : Memory} {info : Option (Nat × Nat)}
    (placed : placeInitrd files config segments mem = .ok (result, info)) :
    ∃ initrd, InitrdRead files config initrd ∧
      (∀ data ∈ initrd, 0 < data.length ∧ initrdAddr segments + data.length ≤ config.memorySize) ∧
      info = initrdInfo segments initrd ∧ result = initrdImage segments initrd mem := by
  unfold placeInitrd at placed
  unfold InitrdRead
  cases target : config.initrdPath with
  | none =>
    rw [target] at placed
    injection placed with pair
    injection pair with sameMem sameInfo
    exact ⟨none, rfl, by simp, sameInfo.symm, sameMem.symm⟩
  | some path =>
    rw [target] at placed
    simp only [bind_eq_ok, readFile, mapError_eq_ok, pure_eq_ok, Prod.mk.injEq] at placed
    obtain ⟨data, file, after, loaded, rfl, rfl⟩ := placed
    obtain ⟨positive, inside, rfl⟩ := loadInitrd_ok loaded
    refine ⟨some data, ⟨data, file, rfl⟩, fun other same => ?_, rfl, rfl⟩
    obtain rfl : data = other := by simpa using same
    exact ⟨positive, inside⟩

theorem parseKernelElf_nonempty {parse : ElfParser} {data : List UInt8} {entry : UInt64}
    {segments : List LoadSegment} (parsed : parseKernelElf parse data = .ok (entry, segments)) :
    segments ≠ [] := by
  simp only [parseKernelElf, bind_eq_ok] at parsed
  obtain ⟨elf, -, rest⟩ := parsed
  split at rest
  · simp only [bind_eq_ok, throw_eq_ok, false_and, exists_false] at rest
  · split at rest
    · simp only [bind_eq_ok, throw_eq_ok, false_and, exists_false] at rest
    · next filled =>
      simp only [pure_eq_ok, Prod.mk.injEq] at rest
      rw [← rest.2]
      simpa using filled

/-- Every accepted boot reads its parts, and its memory is their image. -/
theorem bootLinux_returns {mode : Overflow} {parse : ElfParser} {files : HostFiles} {kvm : KvmSlots}
    {config : BootConfig} {mem : Memory}
    (booted : (bootLinux mode parse files kvm config).Returns mem) :
    ∃ parts, Reads mode parse files config parts ∧ Accepted config parts ∧
      mem = bootImage config parts := by
  simp only [bootLinux, Fallible.bind_returns, Fallible.of_returns, readFile, mapError_eq_ok] at booted
  obtain ⟨_, valid, elfData, kernel, ⟨entry, segments⟩, parsed, loaded, load, ⟨withInitrd, info⟩,
    initrdPlaced, withParams, params, withPvh, pvh, slots, -, withTables, tables, final⟩ := booted
  obtain ⟨enough, bounded, -⟩ := BootConfig.validate_bounds valid
  obtain ⟨accepted, rfl⟩ := loadElfSegments_returns load
  obtain ⟨initrd, initrdRead, initrdFits, rfl, rfl⟩ := placeInitrd_ok initrdPlaced
  simp only [setupBootParams, Fallible.bind_returns, Fallible.of_returns, Fallible.checked_returns,
    Fallible.pure_returns] at params
  obtain ⟨-, -, entries, built, rfl⟩ := params
  obtain ⟨small, rfl⟩ := PageTables.setupPageTables_ok_iff.mp tables
  rw [Fallible.pure_returns] at final
  have pvhWritten : withPvh = pvhImage config (initrdInfo segments initrd) (writeE820 entries
      (writeFallbackCmdline (writeSetupHeader (initrdInfo segments initrd)
        (initrdImage segments initrd (segmentsImage elfData segments Memory.zeroed))))) := by
    unfold setupPvh at pvh
    unfold pvhImage
    split at pvh
    · next chosen =>
      simp only [bind_eq_ok, pure_eq_ok] at pvh
      obtain ⟨-, -, rfl⟩ := pvh
      rw [if_pos chosen]
    · next plain =>
      rw [if_neg plain]
      injection pvh with same
      exact same.symm
  refine ⟨⟨elfData, segments, initrd, entries⟩, ⟨kernel, ⟨entry, parsed⟩, initrdRead, built⟩,
    ⟨enough, bounded, parseKernelElf_nonempty parsed, accepted, initrdFits, small⟩, ?_⟩
  rw [← final, pvhWritten]
  rfl

end TinyMachine.BootImage
