import TinyMachine.SnapshotSaving

/-! When `load` gives back what `save` was given. -/
namespace TinyMachine.Snapshots
open Lib Disk VirtioNet Kernels

/-- The readers take what is written of this snapshot. -/
structure RoundTrips (formats : Formats) (snapshot : Snapshot) : Prop where
  cpu : formats.parseCpu (text snapshot.cpu.toJson) = some snapshot.cpu
  metadata : ∀ bytes, formats.parseMeta (text (snapshot.snapMeta (some (formats.blake3 bytes))).toJson) =
    some (snapshot.snapMeta (some (formats.blake3 bytes)))
  virtioNet : ∀ state, snapshot.virtioNetState = some state →
    formats.parseVirtioNet (text (virtioNetJson state)) = some state

namespace Snapshot
variable {formats : Formats} {snapshot : Snapshot} {disk disk' : Disk} {dir : Path} {bytes hashed : List UInt8}

/-- The snapshot is within the limits of `load`, and no file of another one
lies where it has none. -/
structure LoadsBack (formats : Formats) (snapshot : Snapshot) (disk : Disk) (dir : Path) : Prop where
  small : (snapshot.bytes disk).length ≤ maxSnapshotMemorySize
  digested : ∀ held, snapshot.hashed (snapshot.midway disk dir (snapshot.bytes disk)) = some held →
    formats.blake3 (snapshot.bytes disk) = formats.blake3 held
  kernel : KernelFits formats (disk.tree.makeDirs dir) dir snapshot.kernelVersion snapshot.kernelHash
  placement : PlacementFits snapshot.loadAddr (snapshot.bytes disk).length
  xsave : snapshot.xsave = none → disk.tree.entries (dir ++ ["xsave.bin"]) = none
  virtioNet : snapshot.virtioNetState = none → ReadsNet formats disk.tree (dir ++ ["virtio_net.json"]) none
  irqchips : ∀ file ∈ snapshot.chipFiles, file.2 = none → disk.tree.entries (dir ++ [file.1]) = none
  someChip : snapshot.irqchips ≠ some ⟨none, none, none⟩

/-- A file that is not empty when the memory file is truncated was there
before. -/
theorem contents_of_truncated {fd : Nat} {held : List UInt8} (passable : disk.tree.Passable dir)
    (there : (truncated disk dir).contents fd = some held) (nonempty : held ≠ []) : disk.contents fd = some held := by
  obtain ⟨description, opened, found⟩ := Option.bind_eq_some_iff.mp there
  have known : disk.opened[fd]? = some description := opened
  unfold contents
  rw [known, Option.bind_some]
  cases referent : description.referent with
  | unlinked old => simpa [referent] using found
  | named path =>
    rw [referent] at found
    obtain ⟨entry, listed, bytes⟩ := Option.bind_eq_some_iff.mp found
    cases entry with
    | directory => cases bytes
    | file content =>
      cases bytes
      have origin : held = [] ∨ (disk.tree.makeDirs dir).IsFile path held := Tree.isFile_put listed
      have before : disk.tree.IsFile path held := (Tree.isFile_makeDirs passable).mp (origin.resolve_left nonempty)
      change (disk.tree.entries path).bind Entry.bytes = some held
      rw [show disk.tree.entries path = some (.file held) from before]
      rfl

/-- What is written as the memory is the memory of the snapshot. -/
theorem source_truncated (passable : disk.tree.Passable dir)
    (found : snapshot.source (truncated disk dir) = some bytes) : bytes = snapshot.bytes disk := by
  unfold source at found
  unfold Snapshot.bytes
  split at found
  · rename_i memory
    rw [if_pos memory]
    exact (Option.some.inj found).symm
  · rename_i memory
    rw [if_neg memory]
    cases handle : snapshot.memFd with
    | none => simp [handle] at found
    | some fd =>
      rw [handle, Option.bind_some, first] at found
      split at found
      · rename_i empty
        rw [empty, List.take_zero]
        exact (Option.some.inj found).symm
      · rename_i nonempty
        obtain ⟨held, there, enough⟩ := Option.bind_eq_some_iff.mp found
        split at enough
        · rename_i fits
          have long : held ≠ [] := by
            rintro rfl
            exact nonempty (Nat.le_zero.mp fits)
          rw [Option.bind_some, contents_of_truncated passable there long, Option.getD_some]
          exact (Option.some.inj enough).symm
        · cases enough

/-- The kernel is looked for under these names only. -/
theorem kernelFits_congr {tree tree' : Tree} {version hash : String}
    (same : ∀ path, ∀ last ∈ ["kernel", "vmlinux-base"],
      tree'.entries (path ++ [last]) = tree.entries (path ++ [last])) :
    KernelFits formats tree' dir version hash ↔ KernelFits formats tree dir version hash := by
  have home : ∀ kernelDir, kernelRegistryPath dir = some kernelDir → tree'.entries kernelDir = tree.entries kernelDir := by
    intro kernelDir found
    unfold kernelRegistryPath at found
    split at found
    · cases found
      exact same _ "kernel" (by decide)
    · cases found
  have kernel : ∀ kernelDir, tree'.entries (kernelFile kernelDir version "base") =
      tree.entries (kernelFile kernelDir version "base") := by
    intro kernelDir
    rw [kernelFile_plain (by decide)]
    exact same _ "vmlinux-base" (by decide)
  unfold KernelFits Tree.IsFile
  constructor
  · intro fits versioned digested kernelDir found present
    simpa only [kernel] using fits versioned digested kernelDir found ((home kernelDir found).symm ▸ present)
  · intro fits versioned digested kernelDir found present
    simpa only [kernel] using fits versioned digested kernelDir found (home kernelDir found ▸ present)

/-- What has another name is not among the files. -/
theorem savedTree_foreign {tree : Tree} {path : Path} {last : String} (foreign : last ∉ names) :
    (snapshot.savedTree formats tree dir bytes hashed).entries (path ++ [last]) =
      (tree.makeDirs dir).entries (path ++ [last]) := by
  refine savedTree_other fun name member same => foreign ?_
  have named : last = name := by
    have both := congrArg List.getLast? same
    simpa using both
  exact named ▸ member

theorem kernelFits_savedTree {tree : Tree} {version hash : String} :
    KernelFits formats (snapshot.savedTree formats tree dir bytes hashed) dir version hash ↔
      KernelFits formats (tree.makeDirs dir) dir version hash := by
  refine kernelFits_congr fun path last member => savedTree_foreign ?_
  revert last
  decide

/-- An optional file reads back unless an old one was there. -/
private theorem readsBytes_iff {size : Nat} {value : Option (Bytes size)} {tree saved : Tree} {path : Path}
    (after : saved.entries path = ((value.map Subtype.val).map Entry.file).or (tree.entries path)) :
    ReadsBytes saved path value ↔ (value = none → tree.entries path = none) := by
  cases value with
  | none => simp [ReadsBytes, after]
  | some content => simp [ReadsBytes, Tree.IsFile, after]

private theorem readsNet_iff {value : Option VirtioNetState} {tree saved : Tree} {path : Path}
    (law : ∀ state, value = some state → formats.parseVirtioNet (text (virtioNetJson state)) = some state)
    (after : saved.entries path =
      ((value.map fun state => written (virtioNetJson state)).map Entry.file).or (tree.entries path)) :
    ReadsNet formats saved path value ↔ (value = none → ReadsNet formats tree path none) := by
  cases value with
  | none => simp [ReadsNet, Tree.IsFile, after]
  | some state =>
    have file : saved.IsFile path (written (virtioNetJson state)) := after
    have reads : ReadsNet formats saved path (some state) :=
      .inr ⟨text (virtioNetJson state), file, (law state rfl).symm⟩
    simp [reads]

variable {tree : Tree}

private theorem readsChips_iff
    (writable : ∀ file ∈ snapshot.files formats bytes hashed, (tree.makeDirs dir).Writable (dir ++ [file.1])) :
    ReadsChips (snapshot.savedTree formats tree dir bytes hashed) dir snapshot.irqchips ↔
      (∀ file ∈ snapshot.chipFiles, file.2 = none → tree.entries (dir ++ [file.1]) = none) ∧
        snapshot.irqchips ≠ some ⟨none, none, none⟩ := by
  have after : ∀ name value, (name, value) ∈ snapshot.chipFiles →
      (snapshot.savedTree formats tree dir bytes hashed).entries (dir ++ [name]) =
        (value.map Entry.file).or (tree.entries (dir ++ [name])) := fun name value member =>
    savedTree_file (List.mem_append_right _ (List.mem_append_right _ member)) writable
  have master := after _ _ List.mem_cons_self
  have slave := after _ _ (List.mem_cons_of_mem _ List.mem_cons_self)
  have ioapic := after _ _ (List.mem_cons_of_mem _ (List.mem_cons_of_mem _ List.mem_cons_self))
  unfold chipFiles
  cases chips : snapshot.irqchips with
  | none =>
    simp only [chips, Option.bind_none, Option.map_none, Option.none_or] at master slave ioapic
    simp [ReadsChips, master, slave, ioapic]
  | some state =>
    obtain ⟨masterPic, slavePic, ioapicState⟩ := state
    simp only [chips, Option.bind_some] at master slave ioapic
    simp only [ReadsChips, readsBytes_iff master, readsBytes_iff slave, readsBytes_iff ioapic]
    simp only [Option.bind_some, List.forall_mem_cons, List.not_mem_nil, false_implies, implies_true, and_true,
      Option.map_eq_none_iff, ne_eq, Option.some.injEq, IrqChipState.mk.injEq, and_assoc]

theorem holds_saved_iff (laws : RoundTrips formats snapshot)
    (saved : Saved formats snapshot disk dir bytes hashed disk') :
    Holds formats disk' dir (snapshot.stored disk) ↔ snapshot.LoadsBack formats disk dir := by
  obtain ⟨passable, source, digested, writable, rfl⟩ := saved
  obtain rfl := source_truncated passable source
  have after : ∀ {name value}, (name, value) ∈ snapshot.allFiles formats (snapshot.bytes disk) hashed →
      (snapshot.savedTree formats disk.tree dir (snapshot.bytes disk) hashed).entries (dir ++ [name]) =
        (value.map Entry.file).or (disk.tree.entries (dir ++ [name])) := fun member => savedTree_file member writable
  have mem := after List.mem_cons_self
  have state := after (List.mem_cons_of_mem _ List.mem_cons_self)
  have metadata := after (List.mem_cons_of_mem _ (List.mem_cons_of_mem _ List.mem_cons_self))
  have optional : ∀ {name value}, (name, value) ∈ snapshot.optionalFiles → _ :=
    fun member => after (List.mem_append_right _ member)
  have xsave := optional List.mem_cons_self
  have net := optional (List.mem_cons_of_mem _ List.mem_cons_self)
  rw [holds_iff]
  constructor
  · rintro ⟨entry, info, kept⟩
    cases Option.some.inj (mem.symm.trans kept.mem)
    have read := (reads_written metadata).mp kept.metadata
    cases Option.some.inj ((laws.metadata hashed).symm.trans read)
    obtain ⟨chips, someChip⟩ := (readsChips_iff writable).mp kept.irqchips
    refine ⟨kept.small, ?_, kernelFits_savedTree.mp kept.kernel, kept.placement, ?_, ?_, chips, someChip⟩
    · intro held found
      obtain ⟨content, same, digest⟩ := kept.checksum _ rfl
      cases Option.some.inj (digested.symm.trans found)
      cases same
      exact digest
    · exact (readsBytes_iff xsave).mp kept.xsave
    · exact (readsNet_iff laws.virtioNet net).mp kept.virtioNet
  · intro fits
    refine ⟨.file (snapshot.bytes disk), snapshot.snapMeta (some (formats.blake3 hashed)), ?_⟩
    refine ⟨mem, fits.small, (reads_written state).mpr laws.cpu, (reads_written metadata).mpr (laws.metadata hashed),
      ?_, kernelFits_savedTree.mpr fits.kernel, fits.placement, ?_, ?_, ?_, rfl, rfl, rfl, rfl⟩
    · rintro stored ⟨⟩
      exact ⟨_, rfl, fits.digested hashed digested⟩
    · exact (readsBytes_iff xsave).mpr fits.xsave
    · exact (readsChips_iff writable).mpr ⟨fits.irqchips, fits.someChip⟩
    · exact (readsNet_iff laws.virtioNet net).mpr fits.virtioNet

/-! ## When anything is loaded -/

/-- The snapshot is within the limits of `load`, and so is what an older one
has left where it has nothing. -/
structure Loadable (formats : Formats) (snapshot : Snapshot) (disk : Disk) (dir : Path) : Prop where
  small : (snapshot.bytes disk).length ≤ maxSnapshotMemorySize
  digested : ∀ held, snapshot.hashed (snapshot.midway disk dir (snapshot.bytes disk)) = some held →
    formats.blake3 (snapshot.bytes disk) = formats.blake3 held
  kernel : KernelFits formats (disk.tree.makeDirs dir) dir snapshot.kernelVersion snapshot.kernelHash
  placement : PlacementFits snapshot.loadAddr (snapshot.bytes disk).length
  xsave : snapshot.xsave = none → ∃ value : Option XsaveBuffer, ReadsBytes disk.tree (dir ++ ["xsave.bin"]) value
  virtioNet : snapshot.virtioNetState = none → ∃ value, ReadsNet formats disk.tree (dir ++ ["virtio_net.json"]) value
  irqchips : ∀ file ∈ snapshot.chipFiles, file.2 = none →
    ∃ value : Option (Bytes chipSize), ReadsBytes disk.tree (dir ++ [file.1]) value

/-- An optional file can be read unless an old one cannot. -/
private theorem exists_readsBytes_iff {size : Nat} {value : Option (List UInt8)} {tree saved : Tree} {path : Path}
    (sized : ∀ bytes, value = some bytes → bytes.length = size)
    (after : saved.entries path = (value.map Entry.file).or (tree.entries path)) :
    (∃ found : Option (Bytes size), ReadsBytes saved path found) ↔
      (value = none → ∃ found : Option (Bytes size), ReadsBytes tree path found) := by
  cases value with
  | none =>
    have same : saved.entries path = tree.entries path := after
    simp only [ReadsBytes, Tree.IsFile, same, true_implies]
  | some content =>
    have file : saved.IsFile path content := after
    exact iff_of_true ⟨some ⟨content, sized content rfl⟩, file⟩ (by rintro ⟨⟩)

private theorem exists_readsNet_iff {value : Option VirtioNetState} {tree saved : Tree} {path : Path}
    (after : saved.entries path =
      ((value.map fun state => written (virtioNetJson state)).map Entry.file).or (tree.entries path)) :
    (∃ found, ReadsNet formats saved path found) ↔ (value = none → ∃ found, ReadsNet formats tree path found) := by
  cases value with
  | none =>
    have same : saved.entries path = tree.entries path := after
    simp only [ReadsNet, Tree.IsFile, same, true_implies]
  | some state =>
    have file : saved.IsFile path (written (virtioNetJson state)) := after
    exact iff_of_true ⟨_, .inr ⟨text (virtioNetJson state), file, rfl⟩⟩ (by rintro ⟨⟩)

private theorem exists_readsChips_iff {saved : Tree} : (∃ found, ReadsChips saved dir found) ↔
    ∀ name ∈ ["irqchip0.bin", "irqchip1.bin", "irqchip2.bin"],
      ∃ found : Option (Bytes chipSize), ReadsBytes saved (dir ++ [name]) found := by
  simp only [List.forall_mem_cons, List.not_mem_nil, false_implies, implies_true, and_true]
  constructor
  · rintro ⟨_ | chips, reads⟩
    · exact ⟨⟨none, reads.1⟩, ⟨none, reads.2.1⟩, ⟨none, reads.2.2⟩⟩
    · exact ⟨⟨_, reads.1⟩, ⟨_, reads.2.1⟩, ⟨_, reads.2.2.1⟩⟩
  · rintro ⟨⟨master, first⟩, ⟨slave, second⟩, ⟨ioapic, third⟩⟩
    by_cases absent : master = none ∧ slave = none ∧ ioapic = none
    · obtain ⟨rfl, rfl, rfl⟩ := absent
      exact ⟨none, first, second, third⟩
    · exact ⟨some ⟨master, slave, ioapic⟩, first, second, third, absent⟩

private theorem chipFiles_sized : ∀ file ∈ snapshot.chipFiles, ∀ bytes, file.2 = some bytes → bytes.length = chipSize := by
  have part : ∀ {chip : IrqChipState → Option (Bytes chipSize)} {bytes},
      (snapshot.irqchips.bind fun chips => (chip chips).map Subtype.val) = some bytes → bytes.length = chipSize := by
    intro chip bytes found
    obtain ⟨chips, -, mapped⟩ := Option.bind_eq_some_iff.mp found
    obtain ⟨content, -, rfl⟩ := Option.map_eq_some_iff.mp mapped
    exact content.property
  simp only [chipFiles, List.forall_mem_cons, List.not_mem_nil, false_implies, implies_true, and_true]
  exact ⟨fun _ => part, fun _ => part, fun _ => part⟩

private theorem exists_readsChips_saved_iff
    (writable : ∀ file ∈ snapshot.files formats bytes hashed, (tree.makeDirs dir).Writable (dir ++ [file.1])) :
    (∃ found, ReadsChips (snapshot.savedTree formats tree dir bytes hashed) dir found) ↔
      ∀ file ∈ snapshot.chipFiles, file.2 = none →
        ∃ value : Option (Bytes chipSize), ReadsBytes tree (dir ++ [file.1]) value := by
  have chip : ∀ file ∈ snapshot.chipFiles, ((∃ found : Option (Bytes chipSize),
      ReadsBytes (snapshot.savedTree formats tree dir bytes hashed) (dir ++ [file.1]) found) ↔
        (file.2 = none → ∃ found : Option (Bytes chipSize), ReadsBytes tree (dir ++ [file.1]) found)) :=
    fun file member => exists_readsBytes_iff (chipFiles_sized file member)
      (savedTree_file (List.mem_append_right _ (List.mem_append_right _ member)) writable)
  have named : ["irqchip0.bin", "irqchip1.bin", "irqchip2.bin"] = snapshot.chipFiles.map Prod.fst := rfl
  rw [exists_readsChips_iff, named, List.forall_mem_map]
  exact forall₂_congr chip

/-- What was saved can be loaded exactly if the snapshot and the files of an
older one are within the limits of `load`. -/
theorem exists_holds_saved_iff (laws : RoundTrips formats snapshot)
    (saved : Saved formats snapshot disk dir bytes hashed disk') :
    (∃ state, Holds formats disk' dir state) ↔ snapshot.Loadable formats disk dir := by
  obtain ⟨passable, source, digested, writable, rfl⟩ := saved
  obtain rfl := source_truncated passable source
  have after : ∀ {name value}, (name, value) ∈ snapshot.allFiles formats (snapshot.bytes disk) hashed →
      (snapshot.savedTree formats disk.tree dir (snapshot.bytes disk) hashed).entries (dir ++ [name]) =
        (value.map Entry.file).or (disk.tree.entries (dir ++ [name])) := fun member => savedTree_file member writable
  have mem := after List.mem_cons_self
  have state := after (List.mem_cons_of_mem _ List.mem_cons_self)
  have metadata := after (List.mem_cons_of_mem _ (List.mem_cons_of_mem _ List.mem_cons_self))
  have optional : ∀ {name value}, (name, value) ∈ snapshot.optionalFiles → _ :=
    fun member => after (List.mem_append_right _ member)
  have xsave := optional List.mem_cons_self
  have net := optional (List.mem_cons_of_mem _ List.mem_cons_self)
  have chips := exists_readsChips_saved_iff writable
  have xsave_sized : ∀ content, snapshot.xsave.map Subtype.val = some content → content.length = xsaveSize := by
    intro content found
    obtain ⟨buffer, -, rfl⟩ := Option.map_eq_some_iff.mp found
    exact buffer.property
  simp only [holds_iff]
  constructor
  · rintro ⟨found, entry, info, kept⟩
    cases Option.some.inj (mem.symm.trans kept.mem)
    have read := (reads_written metadata).mp kept.metadata
    cases Option.some.inj ((laws.metadata hashed).symm.trans read)
    refine ⟨kept.small, ?_, kernelFits_savedTree.mp kept.kernel, kept.placement, ?_, ?_, ?_⟩
    · intro held there
      obtain ⟨content, same, digest⟩ := kept.checksum _ rfl
      cases Option.some.inj (digested.symm.trans there)
      cases same
      exact digest
    · exact fun none => (exists_readsBytes_iff xsave_sized xsave).mp ⟨_, kept.xsave⟩ (by rw [none]; rfl)
    · exact (exists_readsNet_iff net).mp ⟨_, kept.virtioNet⟩
    · exact chips.mp ⟨_, kept.irqchips⟩
  · intro fits
    obtain ⟨xsaveFound, xsaveReads⟩ := (exists_readsBytes_iff xsave_sized xsave).mpr fun none =>
      fits.xsave (Option.map_eq_none_iff.mp none)
    obtain ⟨netFound, netReads⟩ := (exists_readsNet_iff net).mpr fits.virtioNet
    obtain ⟨chipsFound, chipsRead⟩ := chips.mpr fits.irqchips
    refine ⟨⟨snapshot.bytes disk, snapshot.cpu, snapshot.loadAddr, xsaveFound, chipsFound, netFound,
      snapshot.kernelVersion, snapshot.kernelHash⟩, .file (snapshot.bytes disk),
      snapshot.snapMeta (some (formats.blake3 hashed)), ?_⟩
    refine ⟨mem, fits.small, (reads_written state).mpr laws.cpu, (reads_written metadata).mpr (laws.metadata hashed),
      ?_, kernelFits_savedTree.mpr fits.kernel, fits.placement, xsaveReads, chipsRead, netReads, rfl, rfl, rfl, rfl⟩
    rintro stored ⟨⟩
    exact ⟨_, rfl, fits.digested hashed digested⟩

/-! ## When the same is loaded -/

/-- `load` goes by the files of the directory, by the kernel and by the length
that directories report. -/
theorem holds_of_files (disk disk' : Disk) {state : SavedState} (length : disk'.directoryLen = disk.directoryLen)
    (files : ∀ name ∈ names, disk'.tree.entries (dir ++ [name]) = disk.tree.entries (dir ++ [name]))
    (kernel : KernelFits formats disk.tree dir state.kernelVersion state.kernelHash →
      KernelFits formats disk'.tree dir state.kernelVersion state.kernelHash)
    (holds : Holds formats disk dir state) : Holds formats disk' dir state := by
  obtain ⟨entry, info, kept⟩ := holds_iff.mp holds
  have same : disk'.entryLen entry = disk.entryLen entry := by
    cases entry with
    | file content => rfl
    | directory => exact length
  refine holds_iff.mpr ⟨entry, info, ?_⟩
  refine ⟨(files _ (by decide)).trans kept.mem, same ▸ kept.small, ?_, ?_, kept.checksum, ?_, same ▸ kept.placement, ?_, ?_, ?_,
    kept.memory, kept.loadAddr, kept.kernelVersion, kept.kernelHash⟩
  · simpa only [Reads, Tree.IsFile, files "state.json" (by decide)] using kept.cpu
  · simpa only [Reads, Tree.IsFile, files "meta.json" (by decide)] using kept.metadata
  · rw [← kept.kernelVersion, ← kept.kernelHash]
    refine kernel ?_
    rw [kept.kernelVersion, kept.kernelHash]
    exact kept.kernel
  · simpa only [ReadsBytes, Tree.IsFile, files "xsave.bin" (by decide)] using kept.xsave
  · simpa only [ReadsChips, ReadsBytes, Tree.IsFile, files "irqchip0.bin" (by decide),
      files "irqchip1.bin" (by decide), files "irqchip2.bin" (by decide)] using kept.irqchips
  · simpa only [ReadsNet, Tree.IsFile, files "virtio_net.json" (by decide)] using kept.virtioNet

theorem holds_of_same {disk disk' : Disk} {state : SavedState} (tree : disk'.tree = disk.tree)
    (length : disk'.directoryLen = disk.directoryLen) (holds : Holds formats disk dir state) :
    Holds formats disk' dir state :=
  holds_of_files disk disk' length (fun _ _ => by rw [tree]) (fun fits => by rwa [tree]) holds

/-- What is loaded from the files of this snapshot runs on its kernel. -/
theorem kernel_of_holds {disk : Disk} {state : SavedState} (laws : RoundTrips formats snapshot)
    (holds : Holds formats disk dir state)
    (metadata : disk.tree.IsFile (dir ++ ["meta.json"])
      (written (snapshot.snapMeta (some (formats.blake3 hashed))).toJson)) :
    state.kernelVersion = snapshot.kernelVersion ∧ state.kernelHash = snapshot.kernelHash ∧
      KernelFits formats disk.tree dir snapshot.kernelVersion snapshot.kernelHash := by
  obtain ⟨entry, info, kept⟩ := holds_iff.mp holds
  cases Option.some.inj ((laws.metadata hashed).symm.trans ((reads_written metadata).mp kept.metadata))
  exact ⟨kept.kernelVersion, kept.kernelHash, kept.kernel⟩

/-! ## With the memory loaded -/

/-- `load` of the directory and `ensure_memory_loaded` after it give this
snapshot when nothing fails. -/
def ReadsBack (formats : Formats) (disk : Disk) (dir : Path) (state : SavedState) : Prop :=
  ∃ snapshot opened loaded disk', (load formats dir).Ends { disk with faults := [] } (.ok snapshot) opened ∧
    snapshot.ensureMemoryLoaded.Ends opened (.ok loaded) disk' ∧ loaded.record loaded.memory = state

theorem ensureMemoryLoaded_of_start {fd : Nat} {content : List UInt8} (calm : disk.faults = [])
    (memory : snapshot.memory = []) (handle : snapshot.memFd = some fd) (start : disk.offset fd = 0)
    (there : disk.contents fd = some content) (size : snapshot.memorySize.toNat = content.length) :
    snapshot.ensureMemoryLoaded.Ends disk (.ok { snapshot with memory := content })
      (disk.seek fd content.length) := by
  have whole : disk.first fd content.length = some content := by
    rw [first, there, Option.bind_some, if_pos (Nat.le_refl _), List.take_length]
    split
    · rename_i empty
      rw [List.eq_nil_of_length_eq_zero empty]
    · rfl
  unfold ensureMemoryLoaded
  rw [if_neg (not_not_intro memory), handle, size]
  refine Attempt.bind_ok.mpr ⟨fd, _, (tryClone_ok calm).mpr ⟨rfl, rfl⟩, ?_⟩
  refine Attempt.bind_ok.mpr ⟨content, _, (readStart_ok calm start).mpr ⟨whole, rfl⟩, ?_⟩
  exact Attempt.pure_ends.mpr ⟨rfl, rfl⟩

/-- A memory file can be read once it is open. -/
theorem readsBack_of_file {state : SavedState} {content : List UInt8}
    (file : disk.tree.IsFile (dir ++ ["mem"]) content) :
    ReadsBack formats disk dir state ↔ Holds formats disk dir state := by
  have ensured : ∀ {snapshot opened}, (load formats dir).Ends { disk with faults := [] } (.ok snapshot) opened →
      snapshot.bytes opened = content ∧ ∃ disk', snapshot.ensureMemoryLoaded.Ends opened
        (.ok { snapshot with memory := content }) disk' := by
    intro snapshot opened ends
    obtain ⟨entry, fresh⟩ := fresh_of_load rfl ends
    cases Option.some.inj (file.symm.trans fresh.mem)
    exact ⟨fresh.bytes, _, ensureMemoryLoaded_of_start fresh.faults fresh.memory fresh.handle fresh.offset
      fresh.contents fresh.size⟩
  constructor
  · rintro ⟨snapshot, opened, loaded, disk', ends, ensure, rfl⟩
    obtain ⟨same, _, other⟩ := ensured ends
    cases (ensure.unique other).1
    exact ⟨snapshot, opened, ends, by rw [stored, same]; rfl⟩
  · rintro ⟨snapshot, opened, ends, rfl⟩
    obtain ⟨same, disk', ensure⟩ := ensured ends
    exact ⟨snapshot, opened, _, disk', ends, ensure, by rw [stored, same]; rfl⟩

private theorem loadsBack_faults {faults : List (Option Nat)} :
    snapshot.LoadsBack formats { disk with faults := faults } dir ↔ snapshot.LoadsBack formats disk dir := by
  constructor
  · rintro ⟨small, digested, kernel, placement, xsave, virtioNet, irqchips, someChip⟩
    exact ⟨small, digested, kernel, placement, xsave, virtioNet, irqchips, someChip⟩
  · rintro ⟨small, digested, kernel, placement, xsave, virtioNet, irqchips, someChip⟩
    exact ⟨small, digested, kernel, placement, xsave, virtioNet, irqchips, someChip⟩

/-- What was saved loads as it was exactly if the snapshot is within the limits
of `load` and meets no file of an older one. -/
theorem round_trip_iff (laws : RoundTrips formats snapshot)
    (saved : (snapshot.save formats dir).Ends disk (.ok ()) disk') :
    ReadsBack formats disk' dir (snapshot.stored disk) ↔ snapshot.LoadsBack formats disk dir := by
  obtain ⟨bytes, hashed, whole⟩ := (save_ok rfl).mp (steady_save.calm saved)
  have loads : Holds formats disk' dir (snapshot.stored disk) ↔ snapshot.LoadsBack formats disk dir :=
    (holds_saved_iff laws whole).trans loadsBack_faults
  have mem : disk'.tree.IsFile (dir ++ ["mem"]) bytes := by
    have tree : disk'.tree = snapshot.savedTree formats disk.tree dir bytes hashed := congrArg Disk.tree whole.after
    rw [tree]
    exact savedTree_file List.mem_cons_self whole.writable
  exact (readsBack_of_file mem).trans loads

/-! ## One byte of memory -/

def zeroSegment : Segment := ⟨0, 0, 0, 0, 0, 0, 0, 0, 0, 0, 0, 0⟩

def zeroCpu : CpuState where
  regs := ⟨0, 0, 0, 0, 0, 0, 0, 0, 0, 0, 0, 0, 0, 0, 0, 0, 0, 0⟩
  sregs := ⟨zeroSegment, zeroSegment, zeroSegment, zeroSegment, zeroSegment, zeroSegment, zeroSegment, zeroSegment,
    ⟨0, 0⟩, ⟨0, 0⟩, 0, 0, 0, 0, 0, 0, 0⟩
  msrs := []
  xcrs := []

def oneByte : Snapshot where
  memory := [1]
  memorySize := 1
  cpu := zeroCpu
  loadAddr := 0
  xsave := none
  irqchips := none
  memFd := none
  virtioNetState := none
  kernelVersion := ""
  kernelHash := ""

def oneByteDigest : String := "48fc721fbbc172e0925fa27af1671de225ba927134802998b10a1568a188652b"

/-- A reader of one text. -/
def table {α : Type} (known : String) (value : α) (read : String) : Option α :=
  if read = known then some value else none

theorem table_self {α : Type} (known : String) (value : α) : table known value known = some value := if_pos rfl

/-- The values that occur with `oneByte`. -/
def oneByteFormats : Formats where
  blake3 := fun _ => oneByteDigest
  sha256 := fun _ => ""
  parseCpu := table (text zeroCpu.toJson) zeroCpu
  parseMeta := table (text (oneByte.snapMeta (some oneByteDigest)).toJson) (oneByte.snapMeta (some oneByteDigest))
  parseVirtioNet := fun _ => none

theorem oneByte_roundTrips : RoundTrips oneByteFormats oneByte where
  cpu := table_self (text zeroCpu.toJson) zeroCpu
  metadata := fun _ => table_self (text (oneByte.snapMeta (some oneByteDigest)).toJson) _
  virtioNet := by
    intro state none
    cases none

def emptyDirectory : Disk := ⟨Tree.bare.makeDirs ["s"], [], [], 4096⟩

theorem oneByte_saved (tree : Tree) (passable : tree.Passable ["s"])
    (free : ∀ name ∈ names, tree.entries ["s", name] ≠ some .directory) :
    ∃ disk', (oneByte.save oneByteFormats ["s"]).Ends ⟨tree, [], [], 4096⟩ (.ok ()) disk' ∧
      disk'.tree = oneByte.savedTree oneByteFormats tree ["s"] [1] [1] := by
  refine ⟨_, (save_ok rfl).mpr ⟨[1], [1], passable, rfl, rfl, fun file member => ?_, rfl⟩, rfl⟩
  exact Tree.writable_makeDirs.mpr (free _ (files_names.subset (List.mem_map_of_mem member)))

theorem fresh_directory_round_trips : ∃ disk',
    (oneByte.save oneByteFormats ["s"]).Ends emptyDirectory (.ok ()) disk' ∧
      ReadsBack oneByteFormats disk' ["s"] (oneByte.stored emptyDirectory) := by
  obtain ⟨disk', saved, -⟩ := oneByte_saved emptyDirectory.tree (by decide) (by decide)
  refine ⟨disk', saved, (round_trip_iff oneByte_roundTrips saved).mpr ?_⟩
  refine ⟨by decide, fun _ _ => rfl, nofun, ⟨by decide, by decide, by decide⟩, fun _ => by decide,
    fun _ => .inl ⟨by decide, rfl⟩, by decide, nofun⟩

/-- Where `oneByte` was saved into a new directory. -/
def oneByteDisk : Disk := ⟨oneByte.savedTree oneByteFormats emptyDirectory.tree ["s"] [1] [1], [], [], 4096⟩

/-- `oneByte` as it is loaded. -/
def lazyOneByte : Snapshot := { oneByte with memory := [], memFd := some 0 }

theorem oneByte_writable : ∀ file ∈ oneByte.files oneByteFormats [1] [1],
    (emptyDirectory.tree.makeDirs ["s"]).Writable (["s"] ++ [file.1]) := by
  intro file member
  have free : ∀ name ∈ names, emptyDirectory.tree.entries ["s", name] ≠ some .directory := by decide
  exact Tree.writable_makeDirs.mpr (free _ (files_names.subset (List.mem_map_of_mem member)))

theorem oneByte_mem : oneByteDisk.tree.IsFile ["s", "mem"] [1] := savedTree_file List.mem_cons_self oneByte_writable

theorem lazyOneByte_loads :
    Loads oneByteFormats oneByteDisk ["s"] (.file [1]) (oneByte.snapMeta (some oneByteDigest)) lazyOneByte := by
  have after : ∀ {name value}, (name, value) ∈ oneByte.allFiles oneByteFormats [1] [1] →
      oneByteDisk.tree.entries ["s", name] = (value.map Entry.file).or (emptyDirectory.tree.entries ["s", name]) :=
    fun member => savedTree_file member oneByte_writable
  have absent : ∀ name, (name, none) ∈ oneByte.allFiles oneByteFormats [1] [1] →
      emptyDirectory.tree.entries ["s", name] = none → oneByteDisk.tree.entries ["s", name] = none :=
    fun _ member free => (after member).trans free
  have state : oneByteDisk.tree.IsFile ["s", "state.json"] (written zeroCpu.toJson) :=
    after (List.mem_cons_of_mem _ List.mem_cons_self)
  have metadata : oneByteDisk.tree.IsFile ["s", "meta.json"]
      (written (oneByte.snapMeta (some oneByteDigest)).toJson) :=
    after (List.mem_cons_of_mem _ (List.mem_cons_of_mem _ List.mem_cons_self))
  refine ⟨oneByte_mem, by decide, (reads_written state).mpr oneByte_roundTrips.cpu,
    (reads_written metadata).mpr (oneByte_roundTrips.metadata []), ?_, nofun, ⟨by decide, by decide, by decide⟩,
    ?_, ?_, ?_, rfl⟩
  · rintro stored ⟨⟩
    exact ⟨[1], rfl, rfl⟩
  · exact absent "xsave.bin" (by decide) rfl
  · exact ⟨absent "irqchip0.bin" (by decide) rfl, absent "irqchip1.bin" (by decide) rfl,
      absent "irqchip2.bin" (by decide) rfl⟩
  · exact .inl ⟨absent "virtio_net.json" (by decide) rfl, rfl⟩

def staleXsave : List UInt8 := List.replicate xsaveSize 0

def staleDirectory : Tree := emptyDirectory.tree.put ["s", "xsave.bin"] staleXsave

/-- The XSAVE area of another snapshot stays, and is loaded. -/
theorem stale_xsave_is_loaded : RoundTrips oneByteFormats oneByte ∧ ∃ disk',
    (oneByte.save oneByteFormats ["s"]).Ends ⟨staleDirectory, [], [], 4096⟩ (.ok ()) disk' ∧
      ¬ ReadsBack oneByteFormats disk' ["s"] (oneByte.stored ⟨staleDirectory, [], [], 4096⟩) := by
  have stale : staleDirectory.IsFile ["s", "xsave.bin"] staleXsave := Tree.put_self (by decide) staleXsave
  have free : ∀ name ∈ names, staleDirectory.entries ["s", name] ≠ some .directory := by
    intro name member directory
    have writable : staleDirectory.Writable ["s", name] :=
      Tree.writable_put.mpr (Tree.writable_makeDirs.mpr (by revert name; decide))
    exact writable.2.2 directory
  obtain ⟨disk', saved, same⟩ := oneByte_saved staleDirectory (by decide) free
  refine ⟨oneByte_roundTrips, disk', saved, fun reads => ?_⟩
  have writable : ∀ file ∈ oneByte.files oneByteFormats [1] [1],
      (staleDirectory.makeDirs ["s"]).Writable (["s"] ++ [file.1]) := fun file member =>
    Tree.writable_makeDirs.mpr (free _ (files_names.subset (List.mem_map_of_mem member)))
  have mem : disk'.tree.IsFile (["s"] ++ ["mem"]) [1] := by
    rw [same]
    exact savedTree_file List.mem_cons_self writable
  obtain ⟨entry, info, kept⟩ := holds_iff.mp ((readsBack_of_file mem).mp reads)
  have absent : disk'.tree.entries (["s"] ++ ["xsave.bin"]) = none := kept.xsave
  have unwritten : ("xsave.bin", none) ∈ oneByte.allFiles oneByteFormats [1] [1] := by decide
  rw [same, savedTree_file unwritten writable] at absent
  cases absent.symm.trans stale

end Snapshot
end TinyMachine.Snapshots
