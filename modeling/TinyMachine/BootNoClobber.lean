import TinyMachine.BootPlacement

/-! The vCPU starts on an unclobbered image exactly when the kernel segments
keep away from everything else and no table outgrows its place. -/
namespace TinyMachine.BootImage
open Lib MemoryMap

theorem covers_spans {blocks : List Block} {block : Block} {a : Nat} (member : block ∈ blocks)
    (inside : block.span.Has a) : Covers (blocks.map Block.span) a :=
  ⟨_, List.mem_map_of_mem member, inside⟩

theorem covers_map_append {left right : List Block} {a : Nat} :
    Covers ((left ++ right).map Block.span) a ↔
      Covers (left.map Block.span) a ∨ Covers (right.map Block.span) a := by
  rw [List.map_append, covers_append]

/-- No address is in both lists. -/
def Apart (left right : List Block) : Prop :=
  ∀ a, Covers (left.map Block.span) a → ¬ Covers (right.map Block.span) a

theorem apart_iff {left right : List Block} :
    Apart left right ↔ ∀ l ∈ left, ∀ r ∈ right, l.span.Disjoint r.span := by
  simp only [Apart, Covers, List.mem_map, exists_exists_and_eq_and, not_exists, not_and, Span.Disjoint]
  constructor
  · intro apart l inLeft r inRight a hasLeft
    exact apart a ⟨l, inLeft, hasLeft⟩ r inRight
  · intro apart a inSome r inRight
    obtain ⟨l, inLeft, hasLeft⟩ := inSome
    exact apart l inLeft r inRight a hasLeft

theorem pairwise_append_iff (left right : List Block) :
    ((left ++ right).map Block.span).Pairwise Span.Disjoint ↔
      (left.map Block.span).Pairwise Span.Disjoint ∧ (right.map Block.span).Pairwise Span.Disjoint ∧
        Apart left right := by
  rw [List.map_append, List.pairwise_append, apart_iff]
  simp only [List.mem_map, forall_exists_index, and_imp, forall_apply_eq_imp_iff₂]

/-! ## The steps, in terms of their blocks -/

theorem length_cmdlineBlock (config : BootConfig) :
    (cmdlineBlock config).bytes.length = if config.pvhBoot then 256 else fallbackCmdline.length := by
  unfold cmdlineBlock
  split
  · next chosen =>
    have short : ((pvhCmdline config.cmdline).take 255).length ≤ 255 := by
      rw [List.length_take]; omega
    simp only [List.length_append, List.length_replicate]
    omega
  · rfl

theorem fallback_fits (config : BootConfig) :
    fallbackCmdline.length ≤ (cmdlineBlock config).bytes.length := by
  have small : fallbackCmdline.length ≤ 256 := by decide
  rw [length_cmdlineBlock]
  split <;> omega

theorem paramsBlock_span (info : Option (Nat × Nat)) (entries : List E820Entry) :
    (paramsBlock info entries).span = paramsSpan entries.length := by
  simp [Block.span, paramsBlock, paramsSpan]

theorem bootParams_write (config : BootConfig) (parts : Parts) :
    Writes ([cmdlineBlock config, paramsBlock (initrdInfo parts.segments parts.initrd) parts.entries].map
      Block.span) (bootParamsImage parts) := by
  have fits := fallback_fits config
  refine (bootParams_writes parts).within fun a covered => ?_
  simp only [List.map_cons, List.map_nil, covers_cons, covers_nil, or_false, paramsBlock_span] at covered ⊢
  refine covered.symm.imp_left fun inCmdline => ⟨inCmdline.1, ?_⟩
  exact Nat.lt_of_lt_of_le inCmdline.2 (Nat.add_le_add_left fits _)

theorem startInfo_writes (info : Option (Nat × Nat)) :
    Writes ((startInfoBlock info :: modlistBlocks info).map Block.span) (writeStartInfo info) := by
  have eq : writeStartInfo info = fun mem => mem.store pvhStartInfoAddr
      ((startInfoBlock info).bytes ++ ((modlistBlocks info).map Block.bytes).flatten) :=
    funext (writeStartInfo_eq info)
  rw [eq]
  refine (Writes.store ..).within fun a covered => ?_
  cases info <;>
    simp [startInfoBlock, modlistBlocks, Block.span, Span.Has, pvhModlistAddr, hvmStartInfoSize]
      at covered ⊢ <;> omega

theorem pvhCmdline_writes {config : BootConfig} (chosen : config.pvhBoot = true) :
    Writes [(cmdlineBlock config).span] (writePvhCmdline config.cmdline) := by
  have eq : writePvhCmdline config.cmdline = fun mem => mem.store pvhCmdlineAddr
      (cmdlineBlock config).bytes := by
    funext mem
    rw [writePvhCmdline_eq, cmdlineBlock, if_pos chosen]
  rw [eq]
  exact Writes.store ..

theorem pvh_writes (config : BootConfig) (info : Option (Nat × Nat)) :
    Writes ((pvhBlocks config info ++ [cmdlineBlock config]).map Block.span) (pvhImage config info) := by
  unfold pvhImage pvhBlocks
  cases chosen : config.pvhBoot with
  | false => exact Writes.nothing
  | true =>
    rw [if_pos rfl, List.map_append]
    exact (startInfo_writes info).andThen (pvhCmdline_writes chosen)

theorem gdt_writes : Writes [gdtBlock.span] setupGdt := by
  rw [show setupGdt = fun mem => mem.store gdtAddr gdtBlock.bytes from funext setupGdt_eq]
  exact Writes.store ..

/-- Segments apart from each other are in place after loading, zeros included,
in memory that was clear. -/
theorem segments_held {elfData : List UInt8} {segments : List LoadSegment}
    (apart : ((segments.map (segmentBlock elfData)).map Block.span).Pairwise Span.Disjoint)
    {mem : Memory} (clear : ∀ a, Covers ((segments.map (segmentBlock elfData)).map Block.span) a → mem a = 0) :
    ∀ block ∈ segments.map (segmentBlock elfData), block.HeldIn (segmentsImage elfData segments mem) := by
  induction segments generalizing mem with
  | nil => simp
  | cons seg rest ih =>
    obtain ⟨head, tail⟩ := List.pairwise_cons.mp apart
    have after : ∀ a, (segmentBlock elfData seg).span.Has a →
        ¬ Covers ((rest.map (segmentBlock elfData)).map Block.span) a := by
      rintro a inHead ⟨other, member, inOther⟩
      exact head other member a inHead inOther
    have loaded (a : Nat) (outside : ¬ (segmentBlock elfData seg).span.Has a) :
        mem.store seg.physAddr.toNat (fileBytes elfData seg) a = mem a := by
      refine Memory.store_outside ?_
      simp only [Block.span, Span.Has, segmentBlock, List.length_append] at outside
      omega
    refine List.forall_mem_cons.mpr ⟨?_, ih tail fun a covered => ?_⟩
    · refine (Block.held_congr _ fun a inHead => (segments_write elfData rest).frame _ a (after a inHead)).mpr ?_
      rw [Block.held_iff]
      intro i bound
      have zero : mem (seg.physAddr.toNat + i) = 0 :=
        clear _ (covers_spans List.mem_cons_self ⟨Nat.le_add_right .., Nat.add_lt_add_left bound _⟩)
      simp only [segmentBlock, List.length_append] at bound ⊢
      by_cases file : i < (fileBytes elfData seg).length
      · rw [Memory.store_inside (by omega) (by omega), List.getElem_append_left file]
        congr 1
        omega
      · rw [Memory.store_outside (.inr (by omega)), List.getElem_append_right (by omega),
          List.getElem_replicate, zero]
    · change mem.store seg.physAddr.toNat (fileBytes elfData seg) a = 0
      rw [loaded a fun inHead => after a inHead covered]
      exact clear a ((covers_cons ..).mpr (.inr covered))

/-- The blocks of the low steps, in the order of `lowBlocks`. -/
structure LowApart (config : BootConfig) (parts : Parts) : Prop where
  pvh : Apart (pvhBlocks config (initrdInfo parts.segments parts.initrd)) (cmdlineBlock config ::
    paramsBlock (initrdInfo parts.segments parts.initrd) parts.entries :: gdtBlock ::
      tableBlocks config.memorySize)
  cmdline : Apart [cmdlineBlock config] (paramsBlock (initrdInfo parts.segments parts.initrd)
    parts.entries :: gdtBlock :: tableBlocks config.memorySize)
  params : Apart [paramsBlock (initrdInfo parts.segments parts.initrd) parts.entries]
    (gdtBlock :: tableBlocks config.memorySize)
  gdt : Apart [gdtBlock] (tableBlocks config.memorySize)

theorem LowApart.of_pairwise {config : BootConfig} {parts : Parts}
    (apart : ((lowBlocks config parts).map Block.span).Pairwise Span.Disjoint) :
    LowApart config parts := by
  obtain ⟨-, low, pvh⟩ := (pairwise_append_iff _ _).mp apart
  obtain ⟨-, low, cmdline⟩ := (pairwise_append_iff [_] _).mp low
  obtain ⟨-, low, params⟩ := (pairwise_append_iff [_] _).mp low
  obtain ⟨-, -, gdt⟩ := (pairwise_append_iff [_] _).mp low
  exact ⟨pvh, cmdline, params, gdt⟩

theorem Apart.symm {left right : List Block} (apart : Apart left right) : Apart right left :=
  fun a inRight inLeft => apart a inLeft inRight

/-- A list is apart from the parts of what it is apart from. -/
theorem Apart.mono {left right less : List Block} (apart : Apart left right)
    (part : ∀ block ∈ less, block ∈ right) : Apart left less := by
  rw [apart_iff] at apart ⊢
  exact fun l inLeft r inLess => apart l inLeft r (part r inLess)

section Steps
variable (config : BootConfig) (parts : Parts)

/-- Memory as the single steps leave it. -/
def loadedImage : Memory := segmentsImage parts.elfData parts.segments Memory.zeroed
def withInitrdImage : Memory := initrdImage parts.segments parts.initrd (loadedImage parts)
def withParamsImage : Memory := bootParamsImage parts (withInitrdImage parts)
def withPvhImage : Memory :=
  pvhImage config (initrdInfo parts.segments parts.initrd) (withParamsImage parts)
def withTablesImage : Memory := writePageTables (withPvhImage config parts) config.memorySize

theorem bootImage_eq : bootImage config parts = setupGdt (withTablesImage config parts) := rfl

/-- From the initrd on only low blocks are written. -/
theorem bootImage_above {a : Nat} (high : ¬ Covers ((lowBlocks config parts).map Block.span) a) :
    bootImage config parts a = withInitrdImage parts a := by
  simp only [lowBlocks, covers_map_append, List.map_cons, covers_cons, not_or] at high
  obtain ⟨pvh, cmdline, params, gdt, tables⟩ := high
  rw [bootImage_eq, gdt_writes.frame _ _ (by simpa using gdt), withTablesImage,
    (tables_write _).frame _ _ tables, withPvhImage,
    (pvh_writes _ _).frame _ _ (by simpa [covers_map_append] using ⟨pvh, cmdline⟩), withParamsImage,
    (bootParams_write config parts).frame _ _ (by simpa using ⟨cmdline, params⟩)]

/-- Behind PVH only the tables and the GDT are written. -/
theorem bootImage_below {a : Nat}
    (low : ¬ Covers ((gdtBlock :: tableBlocks config.memorySize).map Block.span) a) :
    bootImage config parts a = withPvhImage config parts a := by
  simp only [List.map_cons, covers_cons, not_or] at low
  rw [bootImage_eq, gdt_writes.frame _ _ (by simpa using low.1), withTablesImage,
    (tables_write _).frame _ _ low.2]

/-- The tables and the GDT are all above `boot_params`. -/
theorem bootImage_low {a : Nat} (low : a < gdtAddr) :
    bootImage config parts a = withPvhImage config parts a := by
  apply bootImage_below
  simp only [tableBlocks, entryBlock, pdBlock, gdtBlock, Block.span, List.map_cons, List.map_nil, covers_cons,
    covers_nil, or_false, Span.Has]
  unfold gdtAddr at low ⊢
  unfold pml4Addr pdpAddr pdAddr pdp1Addr
  omega

end Steps

/-- The directory and the entry behind it are apart up to 1022 entries. -/
theorem pd_reachable {memSize : Nat}
    (apart : ((tableBlocks memSize).map Block.span).Pairwise Span.Disjoint) :
    numPdEntries memSize ≤ 1022 := by
  simp only [tableBlocks, List.map_cons, List.map_nil, List.pairwise_cons, List.mem_cons,
    List.not_mem_nil, or_false, forall_eq] at apart
  have disjoint := apart.2.2.2.1
  by_contra long
  refine disjoint (pdp1Addr + 510 * 8) ?_ ?_ <;>
    simp only [Block.span, Span.Has, pdBlock, entryBlock, length_pdBytes, Memory.length_bytesLE,
      pdAddr, pdp1Addr] <;>
    omega

section Held
variable {config : BootConfig} {parts : Parts}

theorem segment_blocks_held (apart : ((placed config parts).map Block.span).Pairwise Span.Disjoint) :
    ∀ block ∈ segmentBlocks parts, block.HeldIn (bootImage config parts) := by
  obtain ⟨segments, -, others⟩ := (pairwise_append_iff _ _).mp apart
  intro block member
  refine (Block.held_congr _ fun a inside => ?_).mpr
    (segments_held segments (fun _ _ => rfl) block member)
  have outside := others a (covers_spans member inside)
  rw [covers_map_append, not_or] at outside
  rw [bootImage_above config parts outside.2, withInitrdImage, (initrd_writes _ _).frame _ _ outside.1]
  rfl

theorem initrd_block_held (apart : ((placed config parts).map Block.span).Pairwise Span.Disjoint) :
    ∀ block ∈ initrdBlocks parts.segments parts.initrd, block.HeldIn (bootImage config parts) := by
  obtain ⟨-, -, others⟩ := (pairwise_append_iff _ _).mp ((pairwise_append_iff _ _).mp apart).2.1
  intro block member
  refine (Block.held_congr _ fun a inside => bootImage_above config parts
    (others a (covers_spans member inside))).mpr ?_
  unfold withInitrdImage initrdImage
  cases initrd : parts.initrd with
  | none => simp [initrdBlocks, initrd] at member
  | some data =>
    obtain rfl : block = ⟨initrdAddr parts.segments, data⟩ := by
      simpa [initrdBlocks, initrd] using member
    exact Block.held_store ..

theorem pvh_blocks_held (low : LowApart config parts) :
    ∀ block ∈ pvhBlocks config (initrdInfo parts.segments parts.initrd),
      block.HeldIn (bootImage config parts) := by
  intro block member
  have chosen : config.pvhBoot = true := by
    unfold pvhBlocks at member
    split at member
    · assumption
    · cases member
  refine (Block.held_congr (writeStartInfo (initrdInfo parts.segments parts.initrd)
    (withParamsImage parts)) fun a inside => ?_).mpr ?_
  · have outside := low.pvh a (covers_spans member inside)
    simp only [List.map_cons, covers_cons, not_or] at outside
    rw [bootImage_below config parts (by simpa using outside.2.2), withPvhImage, pvhImage,
      if_pos chosen, (pvhCmdline_writes chosen).frame _ _ (by simpa using outside.1)]
  · rw [pvhBlocks, if_pos chosen] at member
    rw [writeStartInfo_eq, Memory.store_append]
    cases info : initrdInfo parts.segments parts.initrd with
    | none =>
      obtain rfl : block = startInfoBlock none := by simpa [info, modlistBlocks] using member
      simp only [modlistBlocks, Option.toList_none, List.map_nil, List.flatten_nil, Memory.store_nil]
      exact Block.held_store ..
    | some placed =>
      rw [info] at member
      rcases List.mem_cons.mp member with rfl | modlist
      · refine (Block.held_congr _ fun a inside => Memory.store_outside (.inl ?_)).mpr
          (Block.held_store _ (startInfoBlock (some placed)))
        exact inside.2
      · obtain rfl : block = _ := by simpa [modlistBlocks] using modlist
        simp only [modlistBlocks, Option.toList_some, List.map_cons, List.map_nil, List.flatten_cons,
          List.flatten_nil, List.append_nil]
        exact Block.held_store _ ⟨_, _⟩

/-- Nothing behind the command line is written over it. -/
theorem cmdline_placed : (cmdlineBlock config).HeldIn (bootImage config parts) := by
  have short : (cmdlineBlock config).span.stop ≤ bootParamsAddr := by
    have fallback : fallbackCmdline.length ≤ 256 := by decide
    unfold Block.span
    rw [length_cmdlineBlock]
    unfold cmdlineBlock pvhCmdlineAddr bootParamsAddr
    dsimp only
    split <;> omega
  have below (a : Nat) (inside : (cmdlineBlock config).span.Has a) : a < bootParamsAddr :=
    Nat.lt_of_lt_of_le inside.2 short
  refine (Block.held_congr (withPvhImage config parts) fun a inside =>
    bootImage_low config parts (Nat.lt_trans (below a inside) (by decide))).mpr ?_
  unfold withPvhImage pvhImage
  split
  · next chosen =>
    have bytes : (cmdlineBlock config).bytes = (pvhCmdline config.cmdline).take 255 ++
        List.replicate (256 - ((pvhCmdline config.cmdline).take 255).length) 0 := by
      rw [cmdlineBlock, if_pos chosen]
    rw [writePvhCmdline_eq, ← bytes]
    exact Block.held_store _ (cmdlineBlock config)
  · next plain =>
    have bytes : (cmdlineBlock config).bytes = fallbackCmdline := by rw [cmdlineBlock, if_neg plain]
    refine (Block.held_congr _ fun a inside => (e820_writes parts.entries).frame _ a ?_).mpr ?_
    · simp only [covers_cons, covers_nil, or_false, Span.Has, paramsSpan, not_and]
      exact fun above => absurd above (Nat.not_le.mpr (below a inside))
    · unfold writeFallbackCmdline
      rw [← bytes]
      exact Block.held_store _ (cmdlineBlock config)

theorem params_block_held (apart : ((placed config parts).map Block.span).Pairwise Span.Disjoint)
    (low : LowApart config parts) :
    (paramsBlock (initrdInfo parts.segments parts.initrd) parts.entries).HeldIn
      (bootImage config parts) := by
  obtain ⟨-, rest, segments⟩ := (pairwise_append_iff _ _).mp apart
  obtain ⟨-, -, initrd⟩ := (pairwise_append_iff _ _).mp rest
  refine (Block.held_congr (paramsImage (initrdInfo parts.segments parts.initrd) parts.entries)
    fun a inside => ?_).mpr ?_
  · have own {blocks : List Block} (member : paramsBlock (initrdInfo parts.segments parts.initrd)
        parts.entries ∈ blocks) := covers_spans member inside
    have inLow : Covers ((lowBlocks config parts).map Block.span) a :=
      own (List.mem_append_right _ (List.mem_cons_of_mem _ List.mem_cons_self))
    have notPvh := fun covered =>
      low.pvh a covered (own (List.mem_cons_of_mem _ List.mem_cons_self))
    have notCmdline := fun covered => low.cmdline a covered (own List.mem_cons_self)
    have behind := low.params a (own List.mem_cons_self)
    have notInitrd := fun covered => initrd a covered inLow
    have notSegments := fun covered => segments a covered (covers_map_append.mpr (.inr inLow))
    have clear : withInitrdImage parts a = Memory.zeroed a := by
      rw [withInitrdImage, (initrd_writes _ _).frame _ _ notInitrd, loadedImage,
        (segments_write _ _).frame _ _ notSegments]
    rw [bootImage_below config parts behind, withPvhImage, (pvh_writes _ _).frame _ _ fun covered =>
      (covers_map_append.mp covered).elim notPvh notCmdline, withParamsImage,
      (bootParams_writes parts).pointwise _ _ _ clear]
    rfl
  · exact Memory.fetch_length ..

/-- Blocks that are apart are all in place when the vCPU starts. -/
theorem placed_held (apart : ((placed config parts).map Block.span).Pairwise Span.Disjoint) :
    ∀ block ∈ placed config parts, block.HeldIn (bootImage config parts) := by
  have rest := ((pairwise_append_iff _ _).mp apart).2.1
  have lowPairwise := ((pairwise_append_iff _ _).mp rest).2.1
  have low := LowApart.of_pairwise lowPairwise
  have tables : ((tableBlocks config.memorySize).map Block.span).Pairwise Span.Disjoint :=
    ((pairwise_append_iff [_, _, _] _).mp ((pairwise_append_iff _ _).mp lowPairwise).2.1).2.1
  intro block member
  rcases List.mem_append.mp member with segment | member
  · exact segment_blocks_held apart block segment
  rcases List.mem_append.mp member with initrd | member
  · exact initrd_block_held apart block initrd
  rcases List.mem_append.mp member with pvh | member
  · exact pvh_blocks_held low block pvh
  simp only [List.mem_cons] at member
  rcases member with rfl | rfl | rfl | table
  · exact cmdline_placed
  · exact params_block_held apart low
  · rw [bootImage_eq, setupGdt_eq]
    exact Block.held_store _ gdtBlock
  · rw [bootImage_eq]
    refine (Block.held_congr (withTablesImage config parts) fun a inside =>
      gdt_writes.frame _ a fun covered => ?_).mpr
        (tables_held (pd_reachable tables) (withPvhImage config parts) block table)
    exact low.gdt a (by rwa [List.map_singleton]) (covers_spans table inside)

end Held

/-! ## The condition -/

/-- The range a segment is loaded to, from the file or as zeros. -/
def segmentSpan (seg : LoadSegment) : Span :=
  ⟨seg.physAddr.toNat, seg.physAddr.toNat + max seg.fileSize.toNat seg.memSize.toNat⟩

/-- The areas of everything placed below the kernel, from low to high. -/
def lowAreas (config : BootConfig) (hasInitrd : Bool) : List Span :=
  (if config.pvhBoot then ⟨pvhStartInfoAddr, pvhStartInfoAddr + hvmStartInfoSize⟩ ::
      (if hasInitrd then [⟨pvhModlistAddr, pvhModlistAddr + 32⟩] else [])
    else []) ++
  [⟨pvhCmdlineAddr, pvhCmdlineAddr + if config.pvhBoot then 256 else fallbackCmdline.length⟩,
    paramsSpan (e820Count config.memorySize config.reservedRegions),
    ⟨gdtAddr, gdtAddr + 24⟩, ⟨pml4Addr, pml4Addr + 8⟩, ⟨pml4Addr + 511 * 8, pml4Addr + 511 * 8 + 8⟩,
    ⟨pdpAddr, pdpAddr + 8⟩, ⟨pdAddr, pdAddr + numPdEntries config.memorySize * 8⟩,
    ⟨pdp1Addr + 510 * 8, pdp1Addr + 510 * 8 + 8⟩]

/-- The area of the initrd. -/
def initrdAreas (segments : List LoadSegment) (initrd : Option (List UInt8)) : List Span :=
  initrd.toList.map fun data => ⟨initrdAddr segments, initrdAddr segments + data.length⟩

/-- What it takes for the image to hold together: a page directory that ends
in front of the last pointer, an E820 table that ends in front of the GDT, and
kernel segments that are in RAM, apart from each other and from all the rest. -/
structure ImageFits (config : BootConfig) (parts : Parts) : Prop where
  directory : numPdEntries config.memorySize ≤ 1022
  table : bootParamsAddr + e820TableOffset +
    e820EntrySize * e820Count config.memorySize config.reservedRegions ≤ gdtAddr
  inRam : ∀ seg ∈ parts.segments, (segmentSpan seg).stop ≤ config.memorySize
  apart : (parts.segments.map segmentSpan).Pairwise Span.Disjoint
  clear : ∀ seg ∈ parts.segments,
    ∀ area ∈ initrdAreas parts.segments parts.initrd ++ lowAreas config parts.initrd.isSome,
      (segmentSpan seg).Disjoint area

section Condition
variable {config : BootConfig} {parts : Parts}

theorem segmentBlock_span {elfData : List UInt8} {memSize : Nat} {seg : LoadSegment}
    (accepted : SegmentAccepted elfData.length memSize seg) :
    (segmentBlock elfData seg).span = segmentSpan seg := by
  rw [Block.span, length_segmentBlock accepted]
  rfl

theorem segmentBlocks_spans (accepted : Accepted config parts) :
    (segmentBlocks parts).map Block.span = parts.segments.map segmentSpan := by
  rw [segmentBlocks, List.map_map]
  exact List.map_congr_left fun seg member => segmentBlock_span (accepted.segments seg member)

theorem initrdBlocks_spans :
    (initrdBlocks parts.segments parts.initrd).map Block.span =
      initrdAreas parts.segments parts.initrd := by
  simp only [initrdBlocks, initrdAreas, List.map_map]
  rfl

theorem lowBlocks_spans (counted : parts.entries.length =
      e820Count config.memorySize config.reservedRegions) :
    (lowBlocks config parts).map Block.span = lowAreas config parts.initrd.isSome := by
  have tail : (cmdlineBlock config :: paramsBlock (initrdInfo parts.segments parts.initrd) parts.entries ::
      gdtBlock :: tableBlocks config.memorySize).map Block.span =
        [⟨pvhCmdlineAddr, pvhCmdlineAddr + if config.pvhBoot then 256 else fallbackCmdline.length⟩,
          paramsSpan (e820Count config.memorySize config.reservedRegions),
          ⟨gdtAddr, gdtAddr + 24⟩, ⟨pml4Addr, pml4Addr + 8⟩,
          ⟨pml4Addr + 511 * 8, pml4Addr + 511 * 8 + 8⟩, ⟨pdpAddr, pdpAddr + 8⟩,
          ⟨pdAddr, pdAddr + numPdEntries config.memorySize * 8⟩,
          ⟨pdp1Addr + 510 * 8, pdp1Addr + 510 * 8 + 8⟩] := by
    have cmdline : (cmdlineBlock config).span =
        ⟨pvhCmdlineAddr, pvhCmdlineAddr + if config.pvhBoot then 256 else fallbackCmdline.length⟩ := by
      rw [Block.span, length_cmdlineBlock]
      rfl
    rw [List.map_cons, List.map_cons, cmdline, paramsBlock_span, counted]
    simp [tableBlocks, Block.span, gdtBlock, entryBlock, pdBlock]
  rw [lowBlocks, List.map_append, tail, lowAreas]
  congr 1
  unfold pvhBlocks
  split
  · cases initrd : parts.initrd <;>
      simp [initrdInfo, modlistBlocks, startInfoBlock, Block.span, hvmStartInfoSize]
  · rfl

/-- Spans in ascending order have no address in common. -/
private theorem ascending_disjoint {spans : List Span}
    (ascending : spans.Pairwise fun a b => a.stop ≤ b.start) : spans.Pairwise Span.Disjoint :=
  ascending.imp fun {a b} order x inFirst inSecond => by
    unfold Span.Has at inFirst inSecond
    omega

/-- Without the segments everything is apart as long as the directory and the
E820 table keep to their places. -/
theorem lowAreas_disjoint {hasInitrd : Bool} (directory : numPdEntries config.memorySize ≤ 1022)
    (table : bootParamsAddr + e820TableOffset +
      e820EntrySize * e820Count config.memorySize config.reservedRegions ≤ gdtAddr) :
    (lowAreas config hasInitrd).Pairwise Span.Disjoint := by
  have fallback : fallbackCmdline.length ≤ 256 := by decide
  refine ascending_disjoint ?_
  simp only [bootParamsAddr, e820TableOffset, e820EntrySize, gdtAddr] at table
  simp only [lowAreas, paramsSpan, paramsSize, bootParamsAddr, bootParamsSize, e820TableOffset,
    e820EntrySize, gdtAddr, pvhStartInfoAddr, hvmStartInfoSize, pvhModlistAddr, pvhCmdlineAddr, pml4Addr,
    pdpAddr, pdAddr, pdp1Addr]
  cases config.pvhBoot <;> cases hasInitrd <;>
    simp [List.pairwise_cons] <;> omega

/-- All low areas end below 2 MB. -/
theorem lowAreas_below (hasInitrd : Bool) (directory : numPdEntries config.memorySize ≤ 1022)
    (table : bootParamsAddr + e820TableOffset +
      e820EntrySize * e820Count config.memorySize config.reservedRegions ≤ gdtAddr) :
    ∀ area ∈ lowAreas config hasInitrd, area.stop ≤ 0x100000 := by
  have fallback : fallbackCmdline.length ≤ 256 := by decide
  simp only [bootParamsAddr, e820TableOffset, e820EntrySize, gdtAddr] at table
  simp only [lowAreas, paramsSpan, paramsSize, bootParamsAddr, bootParamsSize, e820TableOffset,
    e820EntrySize, gdtAddr, pvhStartInfoAddr, hvmStartInfoSize, pvhModlistAddr, pvhCmdlineAddr, pml4Addr,
    pdpAddr, pdAddr, pdp1Addr]
  cases config.pvhBoot <;> cases hasInitrd <;> simp <;> omega

end Condition

theorem Reads.unique {mode : Overflow} {parse : ElfParser} {files : HostFiles} {config : BootConfig}
    {parts other : Parts} (reads : Reads mode parse files config parts)
    (readsOther : Reads mode parse files config other) : parts = other := by
  obtain ⟨elfData, segments, initrd, entries⟩ := parts
  obtain ⟨kernel, ⟨entry, parsed⟩, placed, table⟩ := reads
  obtain ⟨otherKernel, ⟨otherEntry, otherParsed⟩, otherPlaced, otherTable⟩ := readsOther
  dsimp only at kernel parsed placed table
  obtain rfl : elfData = other.elfData := Except.ok.inj (kernel.symm.trans otherKernel)
  obtain ⟨-, rfl⟩ := Prod.mk.inj (Except.ok.inj (parsed.symm.trans otherParsed))
  obtain rfl : entries = other.entries := Option.some.inj (table.symm.trans otherTable)
  have same : initrd = other.initrd := by
    unfold InitrdRead at placed otherPlaced
    cases path : config.initrdPath with
    | none => rw [path] at placed otherPlaced; exact placed.trans otherPlaced.symm
    | some path =>
      simp only [path] at placed otherPlaced
      obtain ⟨data, file, rfl⟩ := placed
      obtain ⟨otherData, otherFile, otherSame⟩ := otherPlaced
      obtain rfl : data = otherData := Except.ok.inj (file.symm.trans otherFile)
      exact otherSame.symm
  subst same
  rfl

theorem initrdAddr_above {config : BootConfig} {parts : Parts} (accepted : Accepted config parts) :
    0x200000 ≤ initrdAddr parts.segments := by
  obtain ⟨seg, member⟩ := List.exists_mem_of_ne_nil _ accepted.loadable
  have positive := (accepted.segments seg member).nonempty
  have reached : ∀ (sizes : List Nat) (low : Nat), ∀ size ∈ low :: sizes, size ≤ sizes.foldl max low := by
    intro sizes
    induction sizes with
    | nil => simp
    | cons first rest ih =>
      intro low size inside
      have top := ih (max low first) (max low first) List.mem_cons_self
      rcases List.mem_cons.mp inside with rfl | inside
      · exact Nat.le_trans (Nat.le_max_left ..) top
      rcases List.mem_cons.mp inside with rfl | inside
      · exact Nat.le_trans (Nat.le_max_right ..) top
      · exact ih _ size (List.mem_cons_of_mem _ inside)
  have top := reached (parts.segments.map fun s => s.physAddr.toNat + s.memSize.toNat) 0
    (seg.physAddr.toNat + seg.memSize.toNat)
    (List.mem_cons_of_mem _ (List.mem_map.mpr ⟨seg, member, rfl⟩))
  have ended : 0 < kernelEnd parts.segments := by
    unfold kernelEnd
    omega
  unfold initrdAddr alignUp2MB pageSize2MB
  omega

/-- At the moment the vCPU starts, everything that was placed is still there,
in RAM and apart, exactly when the image fits. -/
theorem boot_image_unclobbered_iff {mode : Overflow} {parse : ElfParser} {files : HostFiles}
    {kvm : KvmSlots} {config : BootConfig} {parts : Parts} {mem : Memory}
    (booted : (bootLinux mode parse files kvm config).Returns mem)
    (reads : Reads mode parse files config parts) :
    NoClobber config.memorySize (placed config parts) mem ↔ ImageFits config parts := by
  obtain ⟨found, readsFound, accepted, rfl⟩ := bootLinux_returns booted
  obtain rfl := reads.unique readsFound
  have bounded := accepted.bounded
  have counted := length_e820Entries (by omega) reads.entries
  have segments := segmentBlocks_spans accepted
  have low := lowBlocks_spans counted
  have spans : (placed config parts).map Block.span = parts.segments.map segmentSpan ++
      (initrdAreas parts.segments parts.initrd ++ lowAreas config parts.initrd.isSome) := by
    rw [placed, List.map_append, List.map_append, segments, initrdBlocks_spans, low]
  constructor
  · rintro ⟨apart, inRam, -⟩
    have lowPairwise := ((pairwise_append_iff _ _).mp ((pairwise_append_iff _ _).mp apart).2.1).2.1
    have tables : ((tableBlocks config.memorySize).map Block.span).Pairwise Span.Disjoint :=
      ((pairwise_append_iff [_, _, _] _).mp ((pairwise_append_iff _ _).mp lowPairwise).2.1).2.1
    rw [spans, List.pairwise_append] at apart
    refine ⟨pd_reachable tables, ?_, fun seg member => ?_, apart.1, fun seg member area other =>
      apart.2.2 _ (List.mem_map_of_mem member) area other⟩
    · by_contra long
      have params := (LowApart.of_pairwise lowPairwise).params gdtAddr
      simp only [List.map_cons, List.map_nil, covers_cons, covers_nil, or_false, paramsBlock_span,
        counted, paramsSpan, paramsSize, Span.Has] at params
      refine params ⟨by decide, ?_⟩ (.inl ⟨Nat.le_refl _, by decide⟩)
      omega
    · have stop := inRam _ (List.mem_append_left _ (List.mem_map_of_mem member))
      rwa [segmentBlock_span (accepted.segments seg member)] at stop
  · intro fits
    have below := lowAreas_below parts.initrd.isSome fits.directory fits.table
    have apart : ((placed config parts).map Block.span).Pairwise Span.Disjoint := by
      rw [spans]
      refine List.pairwise_append.mpr ⟨fits.apart, List.pairwise_append.mpr
        ⟨?_, lowAreas_disjoint fits.directory fits.table, ?_⟩, ?_⟩
      · cases parts.initrd <;> simp [initrdAreas]
      · rintro initrd member area inLow a inInitrd inArea
        have top := below area inLow
        have base := initrdAddr_above accepted
        obtain ⟨data, -, rfl⟩ := List.mem_map.mp member
        unfold Span.Has at inInitrd inArea
        dsimp only at inInitrd
        omega
      · rintro _ member area other
        obtain ⟨seg, inSegments, rfl⟩ := List.mem_map.mp member
        exact fits.clear seg inSegments area other
    refine ⟨apart, fun block member => ?_, placed_held apart⟩
    have listed : block.span ∈ (placed config parts).map Block.span := List.mem_map_of_mem member
    rw [spans, List.mem_append, List.mem_append] at listed
    rcases listed with segment | initrd | inLow
    · obtain ⟨seg, inSegments, same⟩ := List.mem_map.mp segment
      rw [← same]
      exact fits.inRam seg inSegments
    · obtain ⟨data, inInitrd, same⟩ := List.mem_map.mp initrd
      rw [← same]
      exact (accepted.initrd data (Option.mem_toList.mp inInitrd)).2
    · exact Nat.le_trans (below _ inLow) accepted.enough

def oneByteKernel (physAddr : UInt64) : ElfParser := fun _ =>
  .ok ⟨emX8664, physAddr, [⟨ptLoad, 0, physAddr, 1, 1⟩]⟩

def kernelFile : HostFiles := ⟨fun _ => true, fun _ => .ok [0xF4]⟩

def kernelConfig : BootConfig := { BootConfig.default with kernelPath := "vmlinux" }

def kernelEntries : List E820Entry :=
  [⟨0, 0x50000, 1⟩, ⟨0x50000, 0x30000, 2⟩, ⟨0x80000, 0x1FC00, 1⟩, ⟨0x100000, 0x3F00000, 1⟩]

def kernelParts (physAddr : UInt64) : Parts := ⟨[0xF4], [⟨0, 1, physAddr, 1⟩], none, kernelEntries⟩

private theorem kernelTable :
    e820Entries .checked kernelConfig.memorySize kernelConfig.reservedRegions = some kernelEntries := by
  decide

private theorem kernelReads (physAddr : UInt64) :
    Reads .checked (oneByteKernel physAddr) kernelFile kernelConfig (kernelParts physAddr) :=
  ⟨rfl, ⟨physAddr, rfl⟩, rfl, kernelTable⟩

/-- A kernel of one byte boots at every address the range check lets pass. -/
theorem one_byte_kernel_boots (pvhBoot : Bool) (cmdline : Option String) {physAddr : UInt64} (stop : UInt64)
    (next : Overflow.checked.add64 physAddr 1 = some stop)
    (valid : validateGuestRange kernelConfig.memorySize physAddr.toNat stop.toNat = .ok ()) :
    (bootLinux .checked (oneByteKernel physAddr) kernelFile (fun _ _ => .ok ())
      { kernelConfig with pvhBoot, cmdline }).Returns
        (bootImage { kernelConfig with pvhBoot, cmdline } (kernelParts physAddr)) := by
  have checked : BootConfig.validate kernelFile.fileExists { kernelConfig with pvhBoot, cmdline } = .ok () :=
    show BootConfig.validate kernelFile.fileExists kernelConfig = .ok () from rfl
  have load : (loadElfSegments .checked [0xF4] kernelConfig.memorySize [⟨0, 1, physAddr, 1⟩]
      Memory.zeroed).Returns (Memory.zeroed.store physAddr.toNat [0xF4]) := by
    simp only [loadElfSegments, loadElfSegment, Fallible.bind_returns, Fallible.checked_returns,
      Fallible.of_returns]
    exact ⟨_, ⟨stop, next, (), valid, 1, rfl, rfl⟩, rfl⟩
  have params (mem : Memory) : (setupBootParams .checked kernelConfig.memorySize none
      kernelConfig.reservedRegions mem).Returns (writeE820 kernelEntries
        (writeFallbackCmdline (writeSetupHeader none mem))) := by
    simp only [setupBootParams, Fallible.bind_returns, Fallible.of_returns, Fallible.checked_returns]
    exact ⟨(), rfl, kernelEntries, kernelTable, rfl⟩
  have pvh (mem : Memory) : setupPvh { kernelConfig with pvhBoot, cmdline } none mem =
      .ok (pvhImage { kernelConfig with pvhBoot, cmdline } none mem) := by
    cases pvhBoot <;> rfl
  have tables (mem : Memory) : setupPageTables mem kernelConfig.memorySize =
      .ok (writePageTables mem kernelConfig.memorySize) :=
    PageTables.setupPageTables_ok_iff.mpr ⟨by decide, rfl⟩
  simp only [bootLinux, Fallible.bind_returns, Fallible.of_returns]
  exact ⟨(), checked, [0xF4], rfl, (physAddr, [⟨0, 1, physAddr, 1⟩]), rfl, _, load, (_, none), rfl, _,
    params _, _, pvh _, _, rfl, _, tables _, rfl⟩

/-- A kernel at the default load address is in place when the vCPU starts. -/
theorem kernel_at_load_addr_unclobbered :
    NoClobber kernelConfig.memorySize (placed kernelConfig (kernelParts 0x100000))
      (bootImage kernelConfig (kernelParts 0x100000)) := by
  refine (boot_image_unclobbered_iff (one_byte_kernel_boots false none 0x100001 rfl rfl)
    (kernelReads 0x100000)).mpr ⟨by decide, by decide, by decide, by simp [kernelParts], ?_⟩
  intro seg member area other a inSegment inArea
  obtain rfl : seg = ⟨0, 1, 0x100000, 1⟩ := by simpa [kernelParts] using member
  have low := @lowAreas_below kernelConfig false (by decide) (by decide) area other
  unfold Span.Has at inSegment inArea
  have base : (segmentSpan ⟨0, 1, 0x100000, 1⟩).start = 0x100000 := by decide
  omega

/-- A kernel linked at `boot_params` passes every check, and its code is gone
when the vCPU starts. -/
theorem kernel_on_boot_params_is_clobbered :
    (bootLinux .checked (oneByteKernel 0x10000) kernelFile (fun _ _ => .ok ()) kernelConfig).Returns
        (bootImage kernelConfig (kernelParts 0x10000)) ∧
      bootImage kernelConfig (kernelParts 0x10000) 0x10000 ≠ 0xF4 ∧
      ¬ NoClobber kernelConfig.memorySize (placed kernelConfig (kernelParts 0x10000))
        (bootImage kernelConfig (kernelParts 0x10000)) := by
  have gone : bootImage kernelConfig (kernelParts 0x10000) 0x10000 ≠ 0xF4 := by decide +kernel
  refine ⟨one_byte_kernel_boots false none 0x10001 rfl rfl, gone, fun intact => gone ?_⟩
  have held := intact.held (segmentBlock [0xF4] ⟨0, 1, 0x10000, 1⟩)
    (List.mem_append_left _ List.mem_cons_self)
  exact Block.held_iff.mp held 0 (by decide)

end TinyMachine.BootImage
