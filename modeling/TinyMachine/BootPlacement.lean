import TinyMachine.BootImageProofs

/-! Every step of boot writes where its blocks are and leaves them there. -/
namespace TinyMachine.BootImage
open Lib

/-! ## Where the steps write -/

theorem length_fileBytes {elfData : List UInt8} {memSize : Nat} {seg : LoadSegment}
    (accepted : SegmentAccepted elfData.length memSize seg) :
    (fileBytes elfData seg).length = seg.fileSize.toNat := by
  have := accepted.inFile
  rw [fileBytes, List.length_take, List.length_drop]
  omega

theorem length_segmentBlock {elfData : List UInt8} {memSize : Nat} {seg : LoadSegment}
    (accepted : SegmentAccepted elfData.length memSize seg) :
    (segmentBlock elfData seg).bytes.length = max seg.fileSize.toNat seg.memSize.toNat := by
  rw [segmentBlock, List.length_append, length_fileBytes accepted, List.length_replicate]
  omega

theorem segments_write (elfData : List UInt8) (segments : List LoadSegment) :
    Writes ((segments.map (segmentBlock elfData)).map Block.span) (segmentsImage elfData segments) := by
  induction segments with
  | nil => exact Writes.id
  | cons seg rest ih =>
    refine ((Writes.store seg.physAddr.toNat (fileBytes elfData seg)).andThen ih).within fun a covered => ?_
    simp only [List.map_cons, covers_append, covers_cons, covers_nil, or_false] at covered ⊢
    refine covered.imp_left fun inFile => ⟨inFile.1, Nat.lt_of_lt_of_le inFile.2 ?_⟩
    simp [Block.span, segmentBlock]

theorem initrd_writes (segments : List LoadSegment) (initrd : Option (List UInt8)) :
    Writes ((initrdBlocks segments initrd).map Block.span) (initrdImage segments initrd) := by
  cases initrd with
  | none => exact Writes.id
  | some data => exact Writes.store ..

theorem setupHeader_writes (info : Option (Nat × Nat)) :
    Writes [⟨bootParamsAddr, bootParamsAddr + bootParamsSize⟩] (writeSetupHeader info) := by
  have page (offset width a : Nat) (fits : offset + width ≤ bootParamsSize)
      (low : bootParamsAddr + offset ≤ a) (high : a < bootParamsAddr + offset + width) :
      Covers [⟨bootParamsAddr, bootParamsAddr + bootParamsSize⟩] a := by
    simp only [covers_cons, covers_nil, or_false, Span.Has]
    omega
  have fixed : Writes [⟨bootParamsAddr, bootParamsAddr + bootParamsSize⟩] (writeSetupHeader none) := by
    refine Writes.thenStoreLE (Writes.thenStoreLE (Writes.thenStoreLE (Writes.thenStoreLE
      (Writes.thenStoreLE (Writes.thenStoreLE (Writes.thenFill Writes.nothing ?_) ?_) ?_) ?_) ?_) ?_) ?_
    · exact fun a => page 0 _ a (by decide)
    all_goals exact fun a => page _ _ a (by decide)
  cases info with
  | none => exact fixed
  | some placed =>
    refine Writes.thenStoreLE (Writes.thenStoreLE (Writes.thenStoreLE fixed ?_) ?_) ?_
    all_goals exact fun a => page _ _ a (by decide)

theorem e820Entries_write (entries : List E820Entry) (e820Off : Nat) :
    Writes [⟨e820Off, e820Off + e820EntrySize * entries.length⟩] (writeE820Entries entries e820Off) := by
  induction entries generalizing e820Off with
  | nil => exact Writes.nothing
  | cons entry rest ih =>
    have own : Writes [⟨e820Off, e820Off + e820EntrySize⟩] fun mem =>
        ((mem.storeLE e820Off 8 entry.addr).storeLE (e820Off + 8) 8 entry.size).storeLE
          (e820Off + 16) 4 entry.ty := by
      refine Writes.thenStoreLE (Writes.thenStoreLE (Writes.thenStoreLE Writes.nothing ?_) ?_) ?_
      all_goals
        intro a low high
        simp only [covers_cons, covers_nil, or_false, Span.Has, e820EntrySize]
        omega
    refine (own.andThen (ih (e820Off + e820EntrySize))).within fun a covered => ?_
    simp only [covers_append, covers_cons, covers_nil, or_false, Span.Has, List.length_cons,
      e820EntrySize] at covered ⊢
    omega

/-- The area of `boot_params` and its table. -/
def paramsSpan (entryCount : Nat) : Span := ⟨bootParamsAddr, bootParamsAddr + paramsSize entryCount⟩

theorem e820_writes (entries : List E820Entry) :
    Writes [paramsSpan entries.length] (writeE820 entries) := by
  have page (offset width a : Nat) (fits : offset + width ≤ bootParamsSize)
      (low : bootParamsAddr + offset ≤ a) (high : a < bootParamsAddr + offset + width) :
      Covers [paramsSpan entries.length] a := by
    simp only [covers_cons, covers_nil, or_false, Span.Has, paramsSpan, paramsSize]
    omega
  have subarch : Writes [paramsSpan entries.length] fun mem =>
      mem.storeLE (bootParamsAddr + 0x238) 4 0 :=
    Writes.thenStoreLE Writes.nothing fun a => page _ _ a (by decide)
  have withTable : Writes [paramsSpan entries.length] fun mem =>
      writeE820Entries entries (bootParamsAddr + e820TableOffset)
        (mem.storeLE (bootParamsAddr + 0x238) 4 0) := by
    refine (subarch.andThen (e820Entries_write entries _)).within fun a covered => ?_
    rcases (covers_append ..).mp covered with head | table
    · exact head
    · simp only [covers_cons, covers_nil, or_false, Span.Has, paramsSpan, paramsSize] at table ⊢
      omega
  exact Writes.thenStoreLE withTable fun a => page _ _ a (by decide)

theorem bootParams_writes (parts : Parts) :
    Writes [paramsSpan parts.entries.length,
      ⟨pvhCmdlineAddr, pvhCmdlineAddr + fallbackCmdline.length⟩] (bootParamsImage parts) := by
  have header := setupHeader_writes (initrdInfo parts.segments parts.initrd)
  have withCmdline : Writes [paramsSpan parts.entries.length,
      ⟨pvhCmdlineAddr, pvhCmdlineAddr + fallbackCmdline.length⟩] fun mem =>
        writeFallbackCmdline (writeSetupHeader (initrdInfo parts.segments parts.initrd) mem) := by
    refine Writes.thenStore (Writes.thenStoreLE (header.within fun a covered => ?_) ?_) ?_
    · simp only [covers_cons, covers_nil, or_false, Span.Has, paramsSpan, paramsSize] at covered ⊢
      omega
    · intro a low high
      simp only [covers_cons, covers_nil, or_false, Span.Has, paramsSpan, paramsSize, bootParamsSize]
      omega
    · exact fun a low high => by simp [Span.Has, low, high]
  refine (withCmdline.andThen (e820_writes parts.entries)).within fun a covered => ?_
  simpa [or_assoc, or_comm, or_left_comm] using covered

/-! ## What the steps leave -/

theorem setupGdt_eq (mem : Memory) : setupGdt mem = mem.store gdtAddr gdtBlock.bytes := by
  simp only [setupGdt, writeGuestU64, Memory.storeLE]
  rw [Memory.store_store _ _ _ _ (by simp), Memory.store_store _ _ _ _ (by simp)]
  rfl

/-- Start info and module list are written as one run of bytes. -/
theorem writeStartInfo_eq (info : Option (Nat × Nat)) (mem : Memory) :
    writeStartInfo info mem = mem.store pvhStartInfoAddr
      ((startInfoBlock info).bytes ++ ((modlistBlocks info).map Block.bytes).flatten) := by
  cases info with
  | none =>
    simp only [writeStartInfo, Memory.storeLE]
    iterate 5 rw [Memory.store_store _ _ _ _ (by simp)]
    simp [startInfoBlock, modlistBlocks]
  | some placed =>
    simp only [writeStartInfo, Memory.storeLE]
    iterate 9 rw [Memory.store_store _ _ _ _ (by rfl)]
    simp [startInfoBlock, modlistBlocks]

theorem writePvhCmdline_eq (cmdline : Option String) (mem : Memory) :
    writePvhCmdline cmdline mem = mem.store pvhCmdlineAddr ((pvhCmdline cmdline).take 255 ++
      List.replicate (256 - ((pvhCmdline cmdline).take 255).length) 0) := by
  have taken : (pvhCmdline cmdline).take (min (pvhCmdline cmdline).length 255) =
      (pvhCmdline cmdline).take 255 := by
    rw [Nat.min_comm, ← List.take_take, List.take_length]
  simp only [writePvhCmdline, Memory.fill, taken]
  rw [Memory.store_store _ _ _ _ (by simp [Nat.min_comm]), List.length_take, Nat.min_comm 255]

@[simp] theorem length_pdBytes (count : Nat) : (pdBytes count).length = count * 8 := by
  induction count with
  | zero => rfl
  | succ i ih => rw [pdBytes, List.length_append, ih, Memory.length_bytesLE, Nat.succ_mul]

theorem writePdEntries_eq (mem : Memory) (count : Nat) :
    writePdEntries mem count = mem.store pdAddr (pdBytes count) := by
  induction count with
  | zero => exact (Memory.store_nil ..).symm
  | succ i ih =>
    rw [writePdEntries, ih, writeGuestU64, Memory.storeLE, Memory.store_store _ _ _ _ (by simp)]
    rfl

theorem tables_write (memSize : Nat) :
    Writes ((tableBlocks memSize).map Block.span) fun mem => writePageTables mem memSize := by
  simp only [writePageTables, writePdEntries_eq, writeGuestU64]
  refine Writes.thenStore (Writes.thenStoreLE (Writes.thenStoreLE (Writes.thenStoreLE
    (Writes.thenStoreLE Writes.nothing ?_) ?_) ?_) ?_) ?_
  all_goals
    intro a low high
    simp only [tableBlocks, entryBlock, pdBlock, Block.span, List.map_cons, List.map_nil, covers_cons,
      covers_nil, Span.Has, Memory.length_bytesLE]
    omega

/-- The table blocks are in place as long as the directory ends in front of
the last of them. -/
theorem tables_held {memSize : Nat} (reachable : numPdEntries memSize ≤ 1022) (mem : Memory) :
    ∀ block ∈ tableBlocks memSize, block.HeldIn (writePageTables mem memSize) := by
  simp only [tableBlocks, List.mem_cons, List.not_mem_nil, or_false, forall_eq_or_imp, forall_eq,
    Block.HeldIn, entryBlock, pdBlock, writePageTables, writePdEntries_eq, writeGuestU64,
    Memory.storeLE, Memory.length_bytesLE, pml4Addr, pdpAddr, pdAddr, pdp1Addr]
  refine ⟨?_, ?_, ?_, Memory.fetch_store_self .., ?_⟩
  all_goals rw [Memory.fetch_store_disjoint (by rw [length_pdBytes]; omega)]
  · rw [Memory.fetch_store_disjoint (by simp), Memory.fetch_store_disjoint (by simp),
      Memory.fetch_store_disjoint (by simp), Memory.fetch_bytesLE_self]
  · rw [Memory.fetch_store_disjoint (by simp), Memory.fetch_store_disjoint (by simp),
      Memory.fetch_bytesLE_self]
  · rw [Memory.fetch_store_disjoint (by simp), Memory.fetch_bytesLE_self]
  · rw [Memory.fetch_bytesLE_self]

end TinyMachine.BootImage
