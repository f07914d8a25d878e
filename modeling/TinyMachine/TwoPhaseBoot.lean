import TinyMachine.VbiosPost

/-! What a boot in two phases leaves of the image: what the VBIOS is given is in
place beside everything that is already loaded, and the kernel finds all that a
boot in one phase would give it, as far as the VBIOS spares it. -/
namespace TinyMachine.VbiosPost
open Lib MemoryMap PageTables Snapshots BootImage
open PciConfig (ConfigFd PciState VfioPciInfo)

/-! ## In front of the VBIOS -/

/-- The BIOS data area. -/
def bda : List UInt8 := List.replicate 0x10 0 ++ ([0x34, 0x00] ++ List.replicate 238 0)

/-- What the VBIOS is given, in the order in which it is written. -/
def postBlocks (data : List UInt8) : List Block :=
  [⟨vbiosIvtAddr, ivt⟩, ⟨vbiosBdaAddr, bda⟩, ⟨vbiosRomAddr, romCopied data⟩, ⟨vbiosStubAddr, [0xCF, 0xF4]⟩,
    ⟨vbiosStubAddr + vbiosStubEntryOffset, [0x9A, 0x03, 0x00, 0x00, 0xC0, 0xF4, 0xF4]⟩]

/-- The areas of these blocks. -/
def postAreas (data : List UInt8) : List Span :=
  [⟨vbiosIvtAddr, vbiosIvtAddr + vbiosIvtSize⟩, ⟨vbiosBdaAddr, vbiosBdaAddr + vbiosBdaSize⟩,
    ⟨vbiosRomAddr, vbiosRomAddr + min data.length (defaultLoadAddr - vbiosRomAddr)⟩,
    ⟨vbiosStubAddr, vbiosStubAddr + 2⟩,
    ⟨vbiosStubAddr + vbiosStubEntryOffset, vbiosStubAddr + vbiosStubEntryOffset + 7⟩]

theorem length_ivt : ivt.length = vbiosIvtSize := by
  rw [ivt, List.length_flatten, List.map_replicate, List.sum_replicate_nat]
  rfl

theorem length_romCopied (data : List UInt8) :
    (romCopied data).length = min data.length (defaultLoadAddr - vbiosRomAddr) := by
  rw [romCopied, List.length_take, Nat.min_comm]

theorem postBlocks_spans (data : List UInt8) : (postBlocks data).map Block.span = postAreas data := by
  have length_bda : bda.length = vbiosBdaSize := by
    rw [bda, List.length_append, List.length_append, List.length_replicate, List.length_replicate]
    rfl
  simp only [postBlocks, postAreas, List.map_cons, List.map_nil, Block.span, length_ivt, length_bda, length_romCopied,
    List.length_cons, List.length_nil]

theorem writeIvt_eq {memSize : Nat} (enough : 0x100000 ≤ memSize) (mem : Memory) :
    writeIvt memSize mem = .ok (mem.store vbiosIvtAddr ivt) := by
  have valid : validateGuestRange memSize vbiosIvtAddr vbiosIvtSize = .ok () :=
    validateGuestRange_ok_iff.mpr ⟨by decide, by unfold vbiosIvtSize; omega, by decide⟩
  rw [writeIvt, valid]
  rfl

theorem writeBda_eq {memSize : Nat} (enough : 0x100000 ≤ memSize) (mem : Memory) :
    writeBda memSize mem = .ok (mem.store vbiosBdaAddr bda) := by
  have valid : validateGuestRange memSize vbiosBdaAddr (vbiosBdaAddr + vbiosBdaSize) = .ok () :=
    validateGuestRange_ok_iff.mpr ⟨by decide, by unfold vbiosBdaAddr vbiosBdaSize; omega, by decide⟩
  have zeros : List.replicate vbiosBdaSize (0 : UInt8) =
      List.replicate 0x10 0 ++ (List.replicate 2 0 ++ List.replicate 238 0) := by
    rw [List.replicate_append_replicate, List.replicate_append_replicate]
    rfl
  have replaced := mem.store_over vbiosBdaAddr (List.replicate 0x10 0) (List.replicate 2 0) [0x34, 0x00]
    (List.replicate 238 0) rfl
  rw [writeBda, valid, Memory.fill, zeros]
  exact congrArg Except.ok replaced

theorem copyRom_eq {memSize : Nat} {data : List UInt8} (enough : 0x100000 ≤ memSize) (some : 0 < data.length)
    (mem : Memory) : copyRom memSize data mem = .ok (mem.store vbiosRomAddr (romCopied data)) := by
  have valid : validateGuestRange memSize vbiosRomAddr (vbiosRomAddr + (romCopied data).length) = .ok () := by
    rw [validateGuestRange_ok_iff, length_romCopied]
    refine ⟨?_, ?_, ?_⟩
    · unfold defaultLoadAddr vbiosRomAddr
      omega
    · unfold defaultLoadAddr vbiosRomAddr
      omega
    · simp [overlapsReserved, guardedAreas, vbiosRomAddr, gdtAddr, pml4Addr]
  rw [copyRom, valid]
  rfl

theorem writeStub_eq {memSize : Nat} (enough : 0x100000 ≤ memSize) (mem : Memory) :
    writeStub memSize mem = .ok ((mem.store vbiosStubAddr [0xCF, 0xF4]).store
      (vbiosStubAddr + vbiosStubEntryOffset) [0x9A, 0x03, 0x00, 0x00, 0xC0, 0xF4, 0xF4]) := by
  have valid : validateGuestRange memSize vbiosStubAddr (vbiosStubAddr + 0x20) = .ok () :=
    validateGuestRange_ok_iff.mpr ⟨by decide, by unfold vbiosStubAddr; omega, by decide⟩
  rw [writeStub, valid]
  rfl

/-- In any memory a boot accepts there is room for what the VBIOS is given. -/
theorem prepare_eq {memSize : Nat} {data : List UInt8} (enough : 0x100000 ≤ memSize) (some : 0 < data.length)
    (mem : Memory) : prepare memSize data mem = .ok (Block.place (postBlocks data) mem) := by
  simp only [prepare, writeIvt_eq enough, writeBda_eq enough, copyRom_eq enough some, writeStub_eq enough, bind,
    Except.bind]
  rfl

theorem postAreas_disjoint (data : List UInt8) : (postAreas data).Pairwise Span.Disjoint := by
  unfold postAreas vbiosIvtAddr vbiosIvtSize vbiosBdaAddr vbiosBdaSize vbiosRomAddr defaultLoadAddr vbiosStubAddr
    vbiosStubEntryOffset
  simp only [List.pairwise_cons, List.mem_cons, List.not_mem_nil, or_false, forall_eq_or_imp, forall_eq,
    Span.Disjoint, Span.Has, List.Pairwise.nil, and_true, false_imp_iff, implies_true]
  refine ⟨⟨?_, ?_, ?_, ?_⟩, ⟨?_, ?_, ?_⟩, ⟨?_, ?_⟩, ?_⟩ <;> omega

/-- All of it is below the kernel's load address. -/
theorem postAreas_below (data : List UInt8) : ∀ area ∈ postAreas data, area.stop ≤ 0x100000 := by
  unfold postAreas vbiosIvtAddr vbiosIvtSize vbiosBdaAddr vbiosBdaSize vbiosRomAddr defaultLoadAddr vbiosStubAddr
    vbiosStubEntryOffset
  simp only [List.mem_cons, List.not_mem_nil, or_false, forall_eq_or_imp, forall_eq]
  omega

section Image
variable {config : BootConfig} {parts : Parts}

/-- An E820 table that is apart from the GDT ends in front of it. -/
theorem table_below_gdt (counted : parts.entries.length = e820Count config.memorySize config.reservedRegions)
    (apart : ((placed config parts).map Block.span).Pairwise Span.Disjoint) :
    bootParamsAddr + e820TableOffset + e820EntrySize * e820Count config.memorySize config.reservedRegions ≤
      gdtAddr := by
  have low := ((pairwise_append_iff _ _).mp ((pairwise_append_iff _ _).mp apart).2.1).2.1
  have params := (LowApart.of_pairwise low).params gdtAddr
  simp only [List.map_cons, List.map_nil, covers_cons, covers_nil, or_false, paramsBlock_span, counted, paramsSpan,
    paramsSize, Span.Has] at params
  by_contra long
  refine params ⟨by decide, ?_⟩ (.inl ⟨Nat.le_refl _, by decide⟩)
  omega

/-- What boot places below the kernel is between the areas. -/
theorem lowAreas_apart {hasInitrd : Bool} (directory : numPdEntries config.memorySize ≤ 2048)
    (table : bootParamsAddr + e820TableOffset +
      e820EntrySize * e820Count config.memorySize config.reservedRegions ≤ gdtAddr) (data : List UInt8) :
    ∀ area ∈ lowAreas config hasInitrd, ∀ post ∈ postAreas data, area.Disjoint post := by
  have fallback : fallbackCmdline.length ≤ 256 := by decide
  have between : ∀ area ∈ lowAreas config hasInitrd, 0x2000 ≤ area.start ∧ area.stop ≤ 0x8000 ∨
      0x10000 ≤ area.start ∧ area.stop ≤ 0xC0000 := by
    simp only [bootParamsAddr, e820TableOffset, e820EntrySize, gdtAddr] at table
    simp only [lowAreas, paramsSpan, paramsSize, bootParamsAddr, bootParamsSize, e820TableOffset,
      e820EntrySize, gdtAddr, pvhStartInfoAddr, hvmStartInfoSize, pvhModlistAddr, pvhCmdlineAddr, pml4Addr,
      pdpAddr, pdAddr, pdp1Addr]
    cases config.pvhBoot <;> cases hasInitrd <;> simp <;> omega
  intro area inLow post inPost a inArea inPostArea
  have place := between area inLow
  unfold postAreas vbiosIvtAddr vbiosIvtSize vbiosBdaAddr vbiosBdaSize vbiosRomAddr defaultLoadAddr vbiosStubAddr
    vbiosStubEntryOffset at inPost
  simp only [List.mem_cons, List.not_mem_nil, or_false] at inPost
  unfold Span.Has at inArea inPostArea
  rcases inPost with rfl | rfl | rfl | rfl | rfl <;> dsimp only at inPostArea <;> omega

/-- A kernel that keeps out of what the VBIOS is given. -/
def ClearOfPost (parts : Parts) (data : List UInt8) : Prop :=
  ∀ seg ∈ parts.segments, ∀ post ∈ postAreas data, (segmentSpan seg).Disjoint post

variable {mode : Overflow} {parse : ElfParser} {files : HostFiles} {slots : KvmSlots} {mem : Memory}
  {data : List UInt8}

theorem placed_clear (booted : (bootLinux mode parse files slots config).Returns mem)
    (reads : Reads mode parse files config parts) (image : NoClobber config.memorySize (placed config parts) mem)
    (clear : ClearOfPost parts data) :
    ∀ block ∈ placed config parts, ∀ post ∈ postAreas data, block.span.Disjoint post := by
  obtain ⟨found, readsFound, accepted, -⟩ := bootLinux_returns booted
  obtain rfl := reads.unique readsFound
  have bounded := accepted.bounded
  have counted := length_e820Entries (by omega) reads.entries
  have low : (lowBlocks config parts).map Block.span = lowAreas config parts.initrd.isSome := lowBlocks_spans counted
  have table := table_below_gdt counted image.apart
  intro block member post inPost
  rcases List.mem_append.mp member with segment | member
  · obtain ⟨seg, inSegments, rfl⟩ := List.mem_map.mp segment
    rw [segmentBlock_span (accepted.segments seg inSegments)]
    exact clear seg inSegments post inPost
  rcases List.mem_append.mp member with initrd | lowBlock
  · -- The initrd is above the kernel, and so above the areas.
    have base := initrdAddr_above accepted
    have stop := postAreas_below data post inPost
    have listed : block.span ∈ initrdAreas parts.segments parts.initrd :=
      initrdBlocks_spans ▸ List.mem_map_of_mem initrd
    obtain ⟨content, -, same⟩ := List.mem_map.mp listed
    intro a inBlock inPost
    rw [← same] at inBlock
    unfold Span.Has at inBlock inPost
    dsimp only at inBlock
    omega
  · exact lowAreas_apart accepted.tables table data _ (low ▸ List.mem_map_of_mem lowBlock) post inPost

/-- Beside a kernel that keeps out of its areas, the VBIOS finds all that it is
given, and nothing that boot placed is lost to it. -/
theorem prepared_unclobbered (booted : (bootLinux mode parse files slots config).Returns mem)
    (reads : Reads mode parse files config parts) (image : NoClobber config.memorySize (placed config parts) mem)
    (clear : ClearOfPost parts data) :
    NoClobber config.memorySize (placed config parts ++ postBlocks data) (Block.place (postBlocks data) mem) := by
  have others := placed_clear booted reads image clear
  have own : ((postBlocks data).map Block.span).Pairwise Span.Disjoint :=
    postBlocks_spans data ▸ postAreas_disjoint data
  obtain ⟨found, readsFound, accepted, -⟩ := bootLinux_returns booted
  refine ⟨?_, fun block member => ?_, fun block member => ?_⟩
  · rw [List.map_append]
    refine List.pairwise_append.mpr ⟨image.apart, own, ?_⟩
    intro span inPlaced post inPost
    obtain ⟨block, member, rfl⟩ := List.mem_map.mp inPlaced
    exact others block member post (postBlocks_spans data ▸ inPost)
  · rcases List.mem_append.mp member with placed | post
    · exact image.inRam block placed
    · have listed : block.span ∈ postAreas data := postBlocks_spans data ▸ List.mem_map_of_mem post
      exact Nat.le_trans (postAreas_below data _ listed) accepted.enough
  · rcases List.mem_append.mp member with placed | post
    · refine (Block.held_writes (Block.place_writes _) fun a inside => ?_).mpr (image.held block placed)
      rintro ⟨area, inPost, inArea⟩
      exact others block placed area (postBlocks_spans data ▸ inPost) a inside inArea
    · exact Block.held_place own mem block post

end Image

/-! ## While the VBIOS runs -/

section Loop
variable {δ : Type} {fd : ConfigFd δ} {vfio : Option VfioPciInfo} {mmio : Option VfioMmioInfo}

/-- What the loop makes of the guest's next exit: it ends there, with what the
VBIOS left or an error, or goes on from there. -/
theorem runUntilHlt_cases {leg : Leg δ} {legs : List (Leg δ)} {post : Post δ} {result : Except PostError (Post δ)}
    (ran : runUntilHlt fd vfio mmio (leg :: legs) post = some result) :
    (∃ left, result = .ok left ∧ left.machine = leg.machine) ∨ (∃ e, result = .error (.kvm e)) ∨
      (∃ message, result = .error (.guestExit message)) ∨
        ∃ next, next.machine = leg.machine ∧ runUntilHlt fd vfio mmio legs next = some result := by
  simp only [runUntilHlt] at ran
  cases returned : leg.ret with
  | error e =>
    rw [returned] at ran
    exact .inr (.inl ⟨e, (Option.some.inj ran).symm⟩)
  | ok exit =>
    cases exit with
    | none =>
      rw [returned] at ran
      exact .inr (.inr (.inr ⟨_, rfl, ran⟩))
    | some reason =>
      simp only [returned] at ran
      split at ran
      · exact .inl ⟨_, (Option.some.inj ran).symm, rfl⟩
      cases reason with
      | hlt => exact .inl ⟨_, (Option.some.inj ran).symm, rfl⟩
      | failEntry hwReason => exact .inr (.inr (.inl ⟨_, (Option.some.inj ran).symm⟩))
      | other reason => exact .inr (.inr (.inl ⟨_, (Option.some.inj ran).symm⟩))
      | io exit => exact .inr (.inr (.inr ⟨_, rfl, ran⟩))
      | mmio access => exact .inr (.inr (.inr ⟨_, rfl, ran⟩))

/-- The machine is left as the VBIOS had it at one of its exits. -/
theorem left_by_vbios {legs : List (Leg δ)} {post left : Post δ}
    (ran : runUntilHlt fd vfio mmio legs post = some (.ok left)) : ∃ leg ∈ legs, left.machine = leg.machine := by
  induction legs generalizing post with
  | nil => cases ran
  | cons leg legs ih =>
    rcases runUntilHlt_cases ran with ⟨_, same, machine⟩ | ⟨e, failed⟩ | ⟨message, failed⟩ | ⟨next, -, rest⟩
    · cases same
      exact ⟨leg, List.mem_cons_self, machine⟩
    · cases failed
    · cases failed
    · obtain ⟨later, member, machine⟩ := ih rest
      exact ⟨later, List.mem_cons_of_mem _ member, machine⟩

theorem loop_error {legs : List (Leg δ)} {post : Post δ} {error : BootError} :
    runUntilHlt fd vfio mmio legs post ≠ some (.error (.boot error)) := by
  induction legs generalizing post with
  | nil => simp [runUntilHlt]
  | cons leg legs ih =>
    intro ran
    rcases runUntilHlt_cases ran with ⟨_, same, -⟩ | ⟨e, failed⟩ | ⟨message, failed⟩ | ⟨next, -, rest⟩
    · cases same
    · cases failed
    · cases failed
    · exact ih rest

/-- Signals aside, a VBIOS is left at the first exit after its five seconds. -/
theorem late_is_left {legs : List (Leg δ)} (late : ∃ leg ∈ legs, leg.late = true ∧ leg.ret ≠ .ok none)
    (post : Post δ) : (runUntilHlt fd vfio mmio legs post).isSome := by
  induction legs generalizing post with
  | nil => simp at late
  | cons leg legs ih =>
    have later (waiting : leg.late = false ∨ leg.ret = .ok none) :
        ∃ leg ∈ legs, leg.late = true ∧ leg.ret ≠ .ok none := by
      obtain ⟨found, member, isLate, exits⟩ := late
      rcases List.mem_cons.mp member with rfl | member
      · rcases waiting with early | signal
        · rw [early] at isLate
          cases isLate
        · exact absurd signal exits
      · exact ⟨found, member, isLate, exits⟩
    simp only [runUntilHlt]
    cases returned : leg.ret with
    | error e => rfl
    | ok exit =>
      cases exit with
      | none => exact ih (later (.inr returned)) _
      | some reason =>
        dsimp only
        split
        · rfl
        next early =>
          have rest := ih (later (.inl (Bool.eq_false_iff.mpr early)))
          cases reason with
          | hlt => rfl
          | failEntry hwReason => rfl
          | other reason => rfl
          | io exit => exact rest _
          | mmio access => exact rest _

end Loop

/-! ## In front of the kernel -/

/-- What boot places and does not place again behind the VBIOS. -/
def keptBlocks (config : BootConfig) (parts : Parts) : List Block :=
  let info := initrdInfo parts.segments parts.initrd
  segmentBlocks parts ++ (initrdBlocks parts.segments parts.initrd ++
    (pvhBlocks config info ++ [cmdlineBlock config, paramsBlock info parts.entries]))

theorem placed_eq (config : BootConfig) (parts : Parts) :
    placed config parts = keptBlocks config parts ++ gdtBlock :: tableBlocks config.memorySize := by
  simp only [placed, keptBlocks, lowBlocks, List.append_assoc, List.cons_append, List.nil_append]

/-- At each of its exits the VBIOS has written elsewhere only. -/
def Spares {δ : Type} (blocks : List Block) (before : Memory) (legs : List (Leg δ)) : Prop :=
  ∀ leg ∈ legs, ∀ block ∈ blocks, ∀ a, block.span.Has a → leg.machine.mem a = before a

/-- The special registers as far as boot sets them. -/
def setByBoot (sregs : KvmSregs) : KvmSregs :=
  let visible (segment : Segment) : Segment := { segment with avl := 0, unusable := 0 }
  let none : Segment := ⟨0, 0, 0, 0, 0, 0, 0, 0, 0, 0, 0, 0⟩
  { sregs with
    cs := visible sregs.cs, ds := visible sregs.ds, es := visible sregs.es, fs := visible sregs.fs
    gs := visible sregs.gs, ss := visible sregs.ss
    tr := none, ldt := none, idt := ⟨0, 0⟩, cr2 := 0, cr8 := 0, apicBase := 0 }

section Kernel
variable {config : BootConfig} {parts : Parts}

/-- The tables and the GDT are made anew, whatever was in their place. -/
theorem tables_again {mem : Memory} (apart : ((placed config parts).map Block.span).Pairwise Span.Disjoint)
    (kept : ∀ block ∈ keptBlocks config parts, block.HeldIn mem) :
    ∀ block ∈ placed config parts, block.HeldIn (setupGdt (writePageTables mem config.memorySize)) := by
  rw [placed_eq, List.map_append] at apart
  obtain ⟨-, low, others⟩ := List.pairwise_append.mp apart
  obtain ⟨gdt, tables⟩ := List.pairwise_cons.mp low
  intro block member
  rw [placed_eq] at member
  rcases List.mem_append.mp member with member | member
  · have clear (area : Span) (listed : area ∈ (gdtBlock :: tableBlocks config.memorySize).map Block.span) :=
      others _ (List.mem_map_of_mem member) area listed
    refine (Block.held_writes gdt_writes fun a inside => ?_).mpr
      ((Block.held_writes (tables_write config.memorySize) fun a inside => ?_).mpr (kept block member))
    · rw [covers_cons, or_iff_left (covers_nil a)]
      exact clear _ List.mem_cons_self a inside
    · rintro ⟨area, listed, inArea⟩
      exact clear area (List.mem_cons_of_mem _ listed) a inside inArea
  rcases List.mem_cons.mp member with rfl | table
  · rw [setupGdt_eq]
    exact Block.held_store _ gdtBlock
  · refine (Block.held_writes gdt_writes fun a inside => ?_).mpr (tables_held (pd_reachable tables) mem block table)
    rw [covers_cons, or_iff_left (covers_nil a)]
    exact fun inGdt => gdt _ (List.mem_map_of_mem table) a inGdt inside

end Kernel

theorem setVcpu_cases (met : VcpuMet) (sregs : KvmSregs → KvmSregs) (regs : KvmRegs) (machine : Machine) :
    setVcpu met sregs regs machine = .ok { machine with sregs := sregs machine.sregs, regs := regs } ∨
      ∃ e, setVcpu met sregs regs machine = .error (.kvm e) := by
  obtain ⟨getSregs, setSregs, setRegs⟩ := met
  cases getSregs with
  | error e => exact .inr ⟨e, rfl⟩
  | ok _ =>
    cases setSregs with
    | error e => exact .inr ⟨e, rfl⟩
    | ok _ =>
      cases setRegs with
      | error e => exact .inr ⟨e, rfl⟩
      | ok _ => exact .inl rfl

theorem reconfigureLongMode_eq {memSize : Nat} (small : numPdEntries memSize ≤ 2048) (kernelEntry : UInt64)
    (met : VcpuMet) (machine : Machine) :
    reconfigureLongMode memSize kernelEntry met machine =
      setVcpu met longModeSregs (longModeRegs kernelEntry)
        { machine with mem := setupGdt (writePageTables machine.mem memSize) } := by
  rw [reconfigureLongMode, setupPageTables_ok_iff.mpr ⟨small, rfl⟩]
  rfl

section Phases
variable {δ : Type} {fd : ConfigFd δ} {vfio : Option VfioPciInfo} {mmio : Option VfioMmioInfo}
  {memSize : Nat} {data : List UInt8} {met : VcpuMet} {legs : List (Leg δ)} {pci : PciState δ}

/-- A VBIOS phase that ends: it was left out, or went wrong while the VBIOS
ran, or leaves the machine as the VBIOS had it. -/
theorem runVbiosPost_cases {machine : Machine} {result : Except PostError Machine} (enough : 0x100000 ≤ memSize)
    (ran : runVbiosPost fd vfio mmio memSize data met legs pci machine = some result) :
    result = .ok machine ∨ (∃ leg ∈ legs, result = .ok leg.machine) ∨
      ∃ error, result = .error error ∧ ∀ boot, error ≠ .boot boot := by
  unfold runVbiosPost at ran
  split at ran
  · exact .inl (Option.some.inj ran).symm
  next sized =>
    have some : 0 < data.length := by
      unfold minVbiosSize at sized
      omega
    rw [prepare_eq enough some] at ran
    simp only [Except.mapError] at ran
    rcases setVcpu_cases met realModeSregs realModeRegs
      { machine with mem := Block.place (postBlocks data) machine.mem } with set | ⟨e, refused⟩
    · rw [set] at ran
      obtain ⟨looped, loop, rfl⟩ := Option.map_eq_some_iff.mp ran
      cases looped with
      | ok left =>
        obtain ⟨leg, member, same⟩ := left_by_vbios loop
        exact .inr (.inl ⟨leg, member, congrArg Except.ok same⟩)
      | error error => exact .inr (.inr ⟨error, rfl, fun boot same => loop_error (same ▸ loop)⟩)
    · rw [refused] at ran
      exact .inr (.inr ⟨.kvm e, (Option.some.inj ran).symm, by simp⟩)

end Phases

def accepted : VcpuMet := ⟨.ok (), .ok (), .ok ()⟩

def freshSregs : KvmSregs :=
  let segment : Segment := ⟨0, 0xFFFF, 0, 3, 1, 0, 0, 1, 0, 0, 0, 0⟩
  ⟨segment, segment, segment, segment, segment, segment, segment, segment, ⟨0, 0xFFFF⟩, ⟨0, 0xFFFF⟩,
    0x60000010, 0, 0, 0, 0, 0, 0xFEE00000⟩

def noDevice : PciState Unit := ⟨0, none, none, ()⟩
def deadFd : ConfigFd Unit := ⟨fun _ _ device => (none, device), fun _ _ device => (none, device)⟩

/-- A ROM of 512 times `hlt`. -/
def haltingRom : List UInt8 := List.replicate 512 0xF4

/-- It halts at once, in the memory it was given. -/
def haltingLegs (mem : Memory) : List (Leg Unit) :=
  [⟨⟨Block.place (postBlocks haltingRom) mem, realModeSregs freshSregs, realModeRegs⟩, (), .ok (some .hlt), false⟩]

private theorem kernelReads :
    Reads .checked (oneByteKernel 0x100000) kernelFile kernelConfig (kernelParts 0x100000) :=
  ⟨rfl, ⟨0x100000, rfl⟩, rfl, by decide⟩

private theorem kernelBooted :
    (bootLinux .checked (oneByteKernel 0x100000) kernelFile (fun _ _ => .ok ()) kernelConfig).Returns
      (bootImage kernelConfig (kernelParts 0x100000)) :=
  one_byte_kernel_boots false none 0x100001 rfl rfl

/-- A kernel of one byte at the default load address. -/
private theorem kernelImage :
    NoClobber kernelConfig.memorySize (placed kernelConfig (kernelParts 0x100000))
      (bootImage kernelConfig (kernelParts 0x100000)) := by
  have directory : numPdEntries kernelConfig.memorySize ≤ 1022 := by decide
  have counted : (kernelParts 0x100000).entries.length =
      e820Count kernelConfig.memorySize kernelConfig.reservedRegions := by decide
  have low : (lowBlocks kernelConfig (kernelParts 0x100000)).map Block.span = lowAreas kernelConfig false :=
    lowBlocks_spans counted
  have spans : (placed kernelConfig (kernelParts 0x100000)).map Block.span =
      ⟨0x100000, 0x100001⟩ :: lowAreas kernelConfig false := by
    rw [placed, List.map_append, List.map_append, low]
    rfl
  have below : ∀ area ∈ lowAreas kernelConfig false, area.stop ≤ 0x100000 :=
    lowAreas_below false directory (by decide)
  have apart : ((placed kernelConfig (kernelParts 0x100000)).map Block.span).Pairwise Span.Disjoint := by
    rw [spans]
    refine List.pairwise_cons.mpr ⟨fun area inLow a inKernel inArea => ?_, lowAreas_disjoint directory (by decide)⟩
    have stop := below area inLow
    unfold Span.Has at inKernel inArea
    dsimp only at inKernel
    omega
  refine ⟨apart, fun block member => ?_, placed_held apart⟩
  have listed : block.span ∈ (placed kernelConfig (kernelParts 0x100000)).map Block.span :=
    List.mem_map_of_mem member
  rw [spans] at listed
  rcases List.mem_cons.mp listed with kernel | inLow
  · rw [kernel]
    decide
  · exact Nat.le_trans (below _ inLow) (by decide)

theorem kernel_clears_post : ClearOfPost (kernelParts 0x100000) haltingRom := by
  intro seg member area inPost a inSegment inArea
  obtain rfl : seg = ⟨0, 1, 0x100000, 1⟩ := by simpa [kernelParts] using member
  have stop := postAreas_below haltingRom area inPost
  unfold Span.Has at inSegment inArea
  have base : (segmentSpan ⟨0, 1, 0x100000, 1⟩).start = 0x100000 := by decide
  omega

private theorem haltingRun (mem : Memory) :
    secondPhase deadFd none none kernelConfig.memorySize haltingRom 0x100000 accepted accepted (haltingLegs mem)
      noDevice (bootVcpu 0x100000 freshSregs mem) =
        some (.ok ⟨setupGdt (writePageTables (Block.place (postBlocks haltingRom) mem) kernelConfig.memorySize),
          longModeSregs (realModeSregs freshSregs), longModeRegs 0x100000⟩) := by
  have length : haltingRom.length = 512 := List.length_replicate
  have sized : ¬ (haltingRom.length < minVbiosSize ∨ haltingRom.length > maxVbiosSize) := by
    rw [length]
    decide
  rw [secondPhase, runVbiosPost, if_neg sized, prepare_eq (by decide) (by omega)]
  simp only [Except.mapError, setVcpu, accepted, kvm, bind, Except.bind, pure, Except.pure, haltingLegs, runUntilHlt,
    Option.map_some, Except.map, Bool.false_eq_true, if_false, reconfigureLongMode_eq (show numPdEntries
      kernelConfig.memorySize ≤ 2048 by decide)]

end TinyMachine.VbiosPost
