import TinyMachine.SnapshotRoundTrip

/-! What is left of the snapshot in a directory when another save into it
fails, or when it is saved over itself. -/
namespace TinyMachine.Snapshots
open Lib Disk VirtioNet Kernels

variable {formats : Formats} {disk disk' : Disk} {dir : Path} {state : SavedState} {content : List UInt8}

/-- A file that the loaded memory comes from. -/
theorem memory_of_holds (holds : Holds formats disk dir state) (mem : disk.tree.IsFile (dir ++ ["mem"]) content) :
    state.memory = content := by
  obtain ⟨entry, info, kept⟩ := holds_iff.mp holds
  cases Option.some.inj (mem.symm.trans kept.mem)
  exact kept.memory

theorem present_of_holds (holds : Holds formats disk dir state) : disk.tree.entries (dir ++ ["mem"]) ≠ none := by
  obtain ⟨entry, info, kept⟩ := holds_iff.mp holds
  simp [kept.mem]

namespace Snapshot
variable {snapshot : Snapshot}

/-- A save gets no further than the memory file, which is empty or is none. -/
def Harmless (snapshot : Snapshot) (disk : Disk) (dir : Path) : Prop :=
  disk.tree.entries (dir ++ ["mem"]) = some .directory ∨
    disk.tree.IsFile (dir ++ ["mem"]) [] ∧ snapshot.source disk = none

/-! ## Saves that change nothing -/

/-- The same files, and the same bytes behind the handles. -/
structure Untouched (before disk : Disk) : Prop where
  tree : disk.tree = before.tree
  directoryLen : disk.directoryLen = before.directoryLen
  contents : ∀ fd, disk.contents fd = before.contents fd

variable {before : Disk}

theorem untouched_next (disk : Disk) (untouched : Untouched before disk) : Untouched before disk.next :=
  ⟨untouched.tree, untouched.directoryLen, untouched.contents⟩

theorem keeps_createDirAll (made : before.tree.makeDirs dir = before.tree) :
    Attempt.Keeps (Untouched before) (createDirAll dir : SnapshotAction Unit) := by
  refine keeps_operation untouched_next fun disk untouched => ?_
  split
  · have same : disk.tree.makeDirs dir = disk.tree := by rw [untouched.tree, made]
    dsimp only
    rw [same]
    exact untouched
  · exact untouched

theorem halts_openTruncate {path : Path} (directory : before.tree.entries path = some .directory) :
    Attempt.Halts (Untouched before) (openTruncate path : SnapshotAction Unit) := by
  refine halts_operation untouched_next fun disk untouched => ?_
  have closed : ¬ disk.tree.Writable path := fun writable => writable.2.2 (untouched.tree ▸ directory)
  rw [if_neg closed]
  exact ⟨⟨_, rfl⟩, untouched⟩

theorem keeps_openTruncate {path : Path} (empty : before.tree.IsFile path []) :
    Attempt.Keeps (Untouched before) (openTruncate path : SnapshotAction Unit) := by
  refine keeps_operation untouched_next fun disk untouched => ?_
  split
  · have same : disk.tree.put path [] = disk.tree := Tree.put_same (untouched.tree ▸ empty)
    dsimp only
    rw [same]
    exact untouched
  · exact untouched

theorem keeps_tryClone {fd : Nat} : Attempt.Keeps (Untouched before) (tryClone fd : SnapshotAction Nat) :=
  keeps_operation untouched_next fun _ untouched => untouched

theorem untouched_seek {fd offset : Nat} (untouched : Untouched before disk) :
    Untouched before (disk.seek fd offset) :=
  ⟨untouched.tree, untouched.directoryLen, fun other => (seek_contents disk fd offset other).trans
    (untouched.contents other)⟩

theorem keeps_seekStart {fd : Nat} : Attempt.Keeps (Untouched before) (seekStart fd : SnapshotAction Unit) :=
  keeps_operation untouched_next fun _ untouched => untouched_seek untouched

theorem keeps_readExact {fd count : Nat} :
    Attempt.Keeps (Untouched before) (readExact fd count : SnapshotAction (List UInt8)) := by
  unfold readExact
  split
  · exact Attempt.keeps_pure []
  · refine keeps_operation untouched_next fun disk untouched => ?_
    split
    · exact untouched
    · dsimp only
      split
      · exact untouched_seek untouched
      · exact untouched_seek untouched

/-- A file that is too short is not read. -/
private theorem halts_reading {fd count : Nat} {next : List UInt8 → SnapshotAction Unit}
    (short : before.first fd count = none) :
    Attempt.Halts (Untouched before) (do
      let reader ← tryClone fd
      seekStart reader
      let buf ← readExact reader count
      next buf : SnapshotAction Unit) := by
  intro disk result disk' untouched ends
  rcases Attempt.bind_ends.mp ends with ⟨e, failed, rfl⟩ | ⟨reader, copied, done, rest⟩
  · exact ⟨⟨e, rfl⟩, keeps_tryClone disk _ disk' untouched failed⟩
  · have untouched₁ := keeps_tryClone disk _ copied untouched done
    obtain ⟨rfl, -⟩ := (tryClone_ok rfl).mp (steady_tryClone.calm done)
    rcases Attempt.bind_ends.mp rest with ⟨e, failed, rfl⟩ | ⟨_, sought, moved, rest⟩
    · exact ⟨⟨e, rfl⟩, keeps_seekStart copied _ disk' untouched₁ failed⟩
    · have untouched₂ := keeps_seekStart copied _ sought untouched₁ moved
      rcases Attempt.bind_ends.mp rest with ⟨e, failed, rfl⟩ | ⟨buf, _, read, -⟩
      · exact ⟨⟨e, rfl⟩, keeps_readExact sought _ disk' untouched₂ failed⟩
      · have start := congrArg (fun disk => disk.offset reader) ((seekStart_ok rfl).mp (steady_seekStart.calm moved))
        obtain ⟨enough, -⟩ := (readStart_ok rfl (start.trans (seek_offset _ _))).mp (steady_readExact.calm read)
        have same : sought.first reader count = before.first reader count := by
          rw [first, untouched₂.contents, ← first]
        cases (same.symm.trans enough).symm.trans short

theorem halts_save (present : before.tree.entries (dir ++ ["mem"]) ≠ none) (harmless : snapshot.Harmless before dir) :
    Attempt.Halts (Untouched before) (snapshot.save formats dir) := by
  refine (keeps_createDirAll (Tree.makeDirs_of_entry present)).bind_halts fun _ => Attempt.Halts.bind_left ?_
  rcases harmless with directory | ⟨empty, none⟩
  · exact (halts_openTruncate directory).bind_left
  · refine (keeps_openTruncate empty).bind_halts fun _ => ?_
    unfold source at none
    split
    · rename_i memory
      simp [memory] at none
    · rename_i memory
      rw [if_neg memory] at none
      cases handle : snapshot.memFd with
      | none => exact (Attempt.halts_fail _).bind_left
      | some fd =>
        rw [handle, Option.bind_some] at none
        exact halts_reading none

/-! ## Saves that do damage -/

theorem text_of_empty {value : Json} (empty : written value = []) : text value = "" :=
  Option.some.inj ((fromUTF8_eq_some.mpr empty.symm).symm.trans (fromUTF8_eq_some.mpr rfl))

theorem written_cpu_ne (cpu : CpuState) : written cpu.toJson ≠ [] := by
  intro empty
  have chars := congrArg String.toList (text_of_empty empty)
  unfold text at chars
  rw [String.toList_ofList] at chars
  cases chars

/-- A save can fail when the memory file is truncated. -/
theorem canFail_truncated (disk : Disk) (calm : disk.faults = []) (passable : disk.tree.Passable dir)
    (writable : (disk.tree.makeDirs dir).Writable (dir ++ ["mem"])) :
    CanFail (snapshot.save formats dir) disk fun disk' => disk'.tree.IsFile (dir ++ ["mem"]) [] := by
  refine steady_createDirAll.bind_canFail ((createDirAll_ok calm).mpr ⟨passable, rfl⟩) (CanFail.bind_left ?_)
  refine steady_openTruncate.bind_canFail ((openTruncate_ok (by exact calm)).mpr ⟨writable, rfl⟩) ?_
  have file := Tree.put_self writable []
  split
  · rename_i memory
    refine CanFail.bind_left (canFail_writeAll 0 memory ?_)
    rw [List.take_zero, append_of_file file, Tree.put_put]
    exact file
  · split
    · exact CanFail.bind_left (canFail_operation file)
    · exact CanFail.bind_left (canFail_fail file)

/-- A save with something to write can fail when there is one byte of it. -/
theorem canFail_first (disk : Disk) (calm : disk.faults = []) (made : disk.tree.makeDirs dir = disk.tree)
    (passable : disk.tree.Passable dir) (mem : disk.tree.IsFile (dir ++ ["mem"]) [])
    (writable : disk.tree.Writable (dir ++ ["mem"])) (found : snapshot.source disk = some content)
    (nonempty : content ≠ []) :
    CanFail (snapshot.save formats dir) disk fun disk' =>
      disk'.tree.IsFile (dir ++ ["mem"]) (content.take 1) := by
  have same : disk.tree.put (dir ++ ["mem"]) [] = disk.tree := Tree.put_same mem
  refine steady_createDirAll.bind_canFail ((createDirAll_ok calm).mpr ⟨passable, rfl⟩) (CanFail.bind_left ?_)
  rw [made]
  refine steady_openTruncate.bind_canFail ((openTruncate_ok calm).mpr ⟨writable, rfl⟩) ?_
  rw [same]
  unfold source at found
  split
  · rename_i memory
    rw [if_pos memory] at found
    cases found
    refine CanFail.bind_left (canFail_writeAll 1 memory ?_)
    rw [append_of_file (by exact mem)]
    exact Tree.put_self writable _
  · rename_i memory
    rw [if_neg memory] at found
    cases handle : snapshot.memFd with
    | none => simp [handle] at found
    | some fd =>
      rw [handle, Option.bind_some] at found
      refine steady_tryClone.bind_canFail ((tryClone_ok calm).mpr ⟨rfl, rfl⟩) ?_
      refine steady_seekStart.bind_canFail ((seekStart_ok calm).mpr rfl) ?_
      refine steady_readExact.bind_canFail ((readFirst_ok calm).mpr ⟨found, rfl⟩) ?_
      refine CanFail.bind_left (canFail_writeAll 1 nonempty ?_)
      rw [append_of_file (by exact mem)]
      exact Tree.put_self writable _

/-- A save with nothing to write can fail when the CPU state is truncated. -/
theorem canFail_state (disk : Disk) (calm : disk.faults = []) (made : disk.tree.makeDirs dir = disk.tree)
    (passable : disk.tree.Passable dir) (mem : disk.tree.IsFile (dir ++ ["mem"]) [])
    (writable : disk.tree.Writable (dir ++ ["mem"])) (later : disk.tree.Writable (dir ++ ["state.json"]))
    (found : snapshot.source disk = some []) :
    CanFail (snapshot.save formats dir) disk fun disk' => disk'.tree.IsFile (dir ++ ["state.json"]) [] := by
  have same : disk.tree.put (dir ++ ["mem"]) [] = disk.tree := Tree.put_same mem
  refine steady_createDirAll.bind_canFail ((createDirAll_ok calm).mpr ⟨passable, rfl⟩) ?_
  rw [made]
  have written : (snapshot.saveMem dir).Ends disk (.ok ()) (snapshot.moved disk snapshot.memorySize.toNat) := by
    refine (saveMem_ok calm).mpr ⟨writable, [], by rw [same]; exact found, ?_⟩
    rw [same, ← moved_with_tree]
  refine steady_saveMem.bind_canFail written (CanFail.bind_left ?_)
  have later' : (snapshot.moved disk snapshot.memorySize.toNat).tree.Writable (dir ++ ["state.json"]) :=
    (moved_tree _).symm ▸ later
  refine steady_openTruncate.bind_canFail ((openTruncate_ok ((moved_faults _).trans calm)).mpr ⟨later', rfl⟩) ?_
  have file := Tree.put_self later' []
  refine CanFail.bind_left (canFail_writeAll 0 (written_cpu_ne snapshot.cpu) ?_)
  rw [List.take_zero, append_of_file (by exact file), Tree.put_put]
  exact file

/-- However a save fails, the directory holds what it held, exactly if no save
gets further than a memory file that is empty. -/
theorem failure_spares_iff (unread : formats.parseCpu "" = none) (holds : Holds formats disk dir state) :
    (∀ faults e disk', (snapshot.save formats dir).Ends { disk with faults := faults } (.error e) disk' →
      Holds formats disk' dir state) ↔ snapshot.Harmless disk dir := by
  have present := present_of_holds holds
  have made := Tree.makeDirs_of_entry present
  constructor
  · intro spares
    have never : ∀ {damaged : Disk → Prop}, (∀ disk', damaged disk' → ¬ Holds formats disk' dir state) →
        ¬ CanFail (snapshot.save formats dir) disk damaged := by
      rintro damaged harm ⟨faults, e, disk', ends, after⟩
      exact harm disk' after (spares faults e disk' ends)
    obtain ⟨entry, info, kept⟩ := holds_iff.mp holds
    cases entry with
    | directory => exact .inl kept.mem
    | file content =>
      have memory := memory_of_holds holds kept.mem
      have writable := Tree.writable_of_file kept.mem
      have empty : content = [] := by
        by_contra some
        refine never (fun disk' file holds' => some ?_) (canFail_truncated { disk with faults := [] } rfl
          (Tree.passable_of_entry present) (made.symm ▸ writable))
        rw [← memory, memory_of_holds holds' file]
      subst empty
      refine .inr ⟨kept.mem, ?_⟩
      by_contra some
      obtain ⟨bytes, found⟩ := Option.ne_none_iff_exists'.mp some
      by_cases none : bytes = []
      · subst none
        obtain ⟨read, state, parsed⟩ := kept.cpu
        refine never (fun disk' file holds' => ?_) (canFail_state { disk with faults := [] } rfl made
          (Tree.passable_of_entry present) kept.mem writable (Tree.writable_of_file state) found)
        obtain ⟨_, _, kept'⟩ := holds_iff.mp holds'
        obtain ⟨read', state', parsed'⟩ := kept'.cpu
        have chars : [] = read'.toUTF8.data.toList := by simpa using file.symm.trans state'
        have empty : read' = "" :=
          Option.some.inj ((fromUTF8_eq_some.mpr chars).symm.trans (fromUTF8_eq_some.mpr rfl))
        rw [empty, unread] at parsed'
        cases parsed'
      · refine never (fun disk' file holds' => none ?_) (canFail_first { disk with faults := [] } rfl made
          (Tree.passable_of_entry present) kept.mem writable found none)
        have first := (memory_of_holds holds' file).symm.trans memory
        cases bytes with
        | nil => rfl
        | cons byte bytes => cases first
  · intro harmless faults e disk' ends
    have halts : Attempt.Halts (Untouched disk) (snapshot.save formats dir) := halts_save present harmless
    obtain ⟨-, untouched⟩ := halts { disk with faults := faults } _ _ ⟨rfl, rfl, fun _ => rfl⟩ ends
    exact holds_of_same untouched.tree untouched.directoryLen holds

/-! ## Saving over itself -/

/-- The memory is in the file that the directory has for it. -/
structure OpenOn (snapshot : Snapshot) (disk : Disk) (dir : Path) (entry : Entry) : Prop where
  memory : snapshot.memory = []
  handle : ∃ fd offset, snapshot.memFd = some fd ∧ disk.opened[fd]? = some ⟨.named (dir ++ ["mem"]), offset⟩
  mem : disk.tree.entries (dir ++ ["mem"]) = some entry
  size : snapshot.memorySize.toNat = disk.entryLen entry

/-- Where a snapshot is, none of its files is a directory but perhaps the memory. -/
private theorem free_of_kept {info : SnapMeta} (kept : Kept formats disk dir (.file content) info state) :
    ∀ name ∈ names, disk.tree.entries (dir ++ [name]) ≠ some .directory := by
  have bytes : ∀ {size name} {value : Option (Bytes size)}, ReadsBytes disk.tree (dir ++ [name]) value →
      disk.tree.entries (dir ++ [name]) ≠ some .directory := by
    rintro size name (_ | value) reads directory
    · cases directory.symm.trans reads
    · cases directory.symm.trans reads
  obtain ⟨_, cpu, -⟩ := kept.cpu
  obtain ⟨_, metadata, -⟩ := kept.metadata
  have net : disk.tree.entries (dir ++ ["virtio_net.json"]) ≠ some .directory := by
    intro directory
    rcases kept.virtioNet with ⟨absent, -⟩ | ⟨_, file, -⟩
    · cases directory.symm.trans absent
    · cases directory.symm.trans file
  have chips : ∀ name ∈ ["irqchip0.bin", "irqchip1.bin", "irqchip2.bin"],
      disk.tree.entries (dir ++ [name]) ≠ some .directory := by
    have reads := kept.irqchips
    cases found : state.irqchips with
    | none =>
      rw [found] at reads
      obtain ⟨master, slave, ioapic⟩ := reads
      simp [master, slave, ioapic]
    | some chips =>
      rw [found] at reads
      obtain ⟨master, slave, ioapic, -⟩ := reads
      simpa using ⟨bytes master, bytes slave, bytes ioapic⟩
  have mem : disk.tree.entries (dir ++ ["mem"]) ≠ some .directory := by simp [kept.mem]
  have state : disk.tree.entries (dir ++ ["state.json"]) ≠ some .directory := fun directory => by
    cases directory.symm.trans cpu
  have info : disk.tree.entries (dir ++ ["meta.json"]) ≠ some .directory := fun directory => by
    cases directory.symm.trans metadata
  simp only [List.forall_mem_cons] at chips
  simpa [names] using ⟨mem, state, info, bytes kept.xsave, net, chips.1, chips.2.1, chips.2.2.1⟩

private theorem contents_of_file {tree : Tree} {fd offset : Nat} {path : Path} (file : tree.IsFile path content)
    (there : disk.opened[fd]? = some ⟨.named path, offset⟩) :
    ({ disk with tree := tree } : Disk).contents fd = some content := by
  unfold Disk.contents
  dsimp only
  rw [there, Option.bind_some]
  change (tree.entries path).bind Entry.bytes = some content
  rw [show tree.entries path = some (.file content) from file]
  rfl

/-- A snapshot that is saved over itself loses its memory. -/
private theorem self_save_fails (formats : Formats) (made : disk.tree.makeDirs dir = disk.tree) (passable : disk.tree.Passable dir)
    (on : snapshot.OpenOn disk dir (.file content)) (size : snapshot.memorySize ≠ 0) :
    ∃ e disk', (snapshot.save formats dir).Ends { disk with faults := [] } (.error e) disk' ∧
      disk'.tree.IsFile (dir ++ ["mem"]) [] := by
  obtain ⟨fd, offset, handle, there⟩ := on.handle
  have writable := Tree.writable_of_file on.mem
  have empty : (disk.tree.put (dir ++ ["mem"]) []).entries (dir ++ ["mem"]) = some (.file []) :=
    Tree.put_self writable []
  let cut : Disk := { disk with tree := disk.tree.put (dir ++ ["mem"]) [], faults := [] }
  have contents : cut.contents fd = some [] := contents_of_file empty there
  have short : ([] : List UInt8).length - (cut.seek fd 0).offset fd < snapshot.memorySize.toNat := by
    rw [seek_offset]
    exact Nat.pos_of_ne_zero fun zero => size (UInt64.toNat_inj.mp zero)
  obtain ⟨position, read⟩ : ∃ position,
      (readExact fd snapshot.memorySize.toNat : SnapshotAction (List UInt8)).Ends (cut.seek fd 0)
        (.error (.io .unexpectedEof)) ((cut.seek fd 0).seek fd position) :=
    ⟨_, readExact_short rfl ((seek_contents cut fd 0 fd).trans contents) short⟩
  have memory : (snapshot.saveMem dir).Ends { disk with faults := [] } (.error (.io .unexpectedEof))
      ((cut.seek fd 0).seek fd position) := by
    refine Attempt.bind_next ((openTruncate_ok rfl).mpr ⟨writable, rfl⟩) ?_
    rw [if_neg (not_not_intro on.memory), handle]
    refine Attempt.bind_next ((tryClone_ok rfl).mpr ⟨rfl, rfl⟩) ?_
    exact Attempt.bind_next ((seekStart_ok rfl).mpr rfl) (Attempt.bind_failed read)
  refine ⟨.io .unexpectedEof, (cut.seek fd 0).seek fd position,
    Attempt.bind_next ((createDirAll_ok rfl).mpr ⟨passable, rfl⟩) ?_, empty⟩
  dsimp only
  rw [made]
  exact Attempt.bind_failed memory

private theorem chips_of_kept {entry : Entry} {info : SnapMeta}
    (kept : Kept formats disk dir entry info (snapshot.stored disk)) :
    (∀ file ∈ snapshot.chipFiles, file.2 = none → disk.tree.entries (dir ++ [file.1]) = none) ∧
      snapshot.irqchips ≠ some ⟨none, none, none⟩ := by
  have reads : ReadsChips disk.tree dir snapshot.irqchips := kept.irqchips
  have absent : ∀ {size name} {value : Option (Bytes size)}, ReadsBytes disk.tree (dir ++ [name]) value →
      value.map Subtype.val = none → disk.tree.entries (dir ++ [name]) = none := by
    rintro size name (_ | value) reads none
    · exact reads
    · cases none
  unfold chipFiles
  cases found : snapshot.irqchips with
  | none =>
    rw [found] at reads
    obtain ⟨master, slave, ioapic⟩ := reads
    simp [master, slave, ioapic]
  | some chips =>
    rw [found] at reads
    obtain ⟨master, slave, ioapic, present⟩ := reads
    simp only [Option.bind_some, List.forall_mem_cons, List.not_mem_nil, false_implies, implies_true, and_true]
    refine ⟨⟨absent master, absent slave, absent ioapic⟩, fun all => present ?_⟩
    cases all
    exact ⟨rfl, rfl, rfl⟩

/-- A snapshot without a byte of memory is saved over itself as it was. -/
private theorem self_save_empty (disk : Disk) {info : SnapMeta} (calm : disk.faults = []) (laws : RoundTrips formats snapshot)
    (on : snapshot.OpenOn disk dir (.file []))
    (kept : Kept formats disk dir (.file []) info (snapshot.stored disk)) :
    ∃ disk', (snapshot.save formats dir).Ends disk (.ok ()) disk' ∧ Holds formats disk' dir (snapshot.stored disk) := by
  obtain ⟨fd, offset, handle, there⟩ := on.handle
  have present : disk.tree.entries (dir ++ ["mem"]) ≠ none := by simp [on.mem]
  have made := Tree.makeDirs_of_entry present
  have size : snapshot.memorySize.toNat = 0 := on.size
  have bytes : snapshot.bytes disk = [] := kept.memory
  have source : snapshot.source (truncated disk dir) = some [] := by
    unfold source first
    rw [if_neg (not_not_intro on.memory), handle, Option.bind_some, if_pos size]
  have mem : (disk.tree.makeDirs dir).Writable (dir ++ ["mem"]) := made.symm ▸ Tree.writable_of_file on.mem
  have distinct : ([("mem", []), ("state.json", written snapshot.cpu.toJson)].map Prod.fst).Nodup :=
    (by decide : ["mem", "state.json"].Nodup)
  have empty : (snapshot.midway disk dir []).tree.IsFile (dir ++ ["mem"]) [] :=
    Tree.putAll_mem distinct List.mem_cons_self mem
  have hashed : snapshot.hashed (snapshot.midway disk dir []) = some [] := by
    unfold hashed
    rw [if_neg (not_not_intro on.memory), handle, Option.bind_some]
    exact contents_of_file empty there
  have saved : Saved formats snapshot disk dir [] [] { snapshot.moved disk 0 with
      tree := snapshot.savedTree formats disk.tree dir [] [] } := by
    refine ⟨Tree.passable_of_entry present, source, hashed, fun file member => ?_, rfl⟩
    refine Tree.writable_makeDirs.mpr (free_of_kept kept file.1 ?_)
    exact files_names.subset (List.mem_map_of_mem member)
  refine ⟨_, (save_ok calm).mpr ⟨[], [], saved⟩, (holds_saved_iff laws saved).mpr ?_⟩
  refine ⟨?_, ?_, ?_, ?_, ?_, ?_, ?_, ?_⟩
  · simp [bytes]
  · intro held found
    rw [bytes] at found ⊢
    rw [Option.some.inj (hashed.symm.trans found)]
  · have kernel := kept.kernel
    rw [← kept.kernelVersion, ← kept.kernelHash] at kernel
    exact made.symm ▸ kernel
  · have placement := kept.placement
    rw [← kept.loadAddr] at placement
    exact bytes.symm ▸ placement
  · intro none
    have reads : ReadsBytes disk.tree (dir ++ ["xsave.bin"]) snapshot.xsave := kept.xsave
    rwa [none] at reads
  · intro none
    have reads : ReadsNet formats disk.tree (dir ++ ["virtio_net.json"]) snapshot.virtioNetState := kept.virtioNet
    rwa [none] at reads
  · exact (chips_of_kept kept).1
  · exact (chips_of_kept kept).2

theorem Fresh.openOn {opened : Disk} {entry : Entry} (fresh : snapshot.Fresh disk opened dir entry) :
    snapshot.OpenOn opened dir entry := by
  have same : opened.entryLen entry = disk.entryLen entry := by
    cases entry with
    | file content => rfl
    | directory => exact fresh.directoryLen
  exact ⟨fresh.memory, ⟨_, _, fresh.handle, fresh.there⟩, fresh.tree ▸ fresh.mem, fresh.size.trans same.symm⟩

theorem self_save_iff {entry : Entry} (laws : RoundTrips formats snapshot) (on : snapshot.OpenOn disk dir entry)
    (holds : Holds formats disk dir (snapshot.stored disk)) :
    (∀ result disk', (snapshot.save formats dir).Ends { disk with faults := [] } result disk' →
      Holds formats disk' dir (snapshot.stored disk)) ↔ entry = .directory ∨ snapshot.memorySize = 0 := by
  have present := present_of_holds holds
  have made := Tree.makeDirs_of_entry present
  have passable := Tree.passable_of_entry present
  have spared : entry = .directory → ∀ result disk', (snapshot.save formats dir).Ends { disk with faults := [] }
      result disk' → Holds formats disk' dir (snapshot.stored disk) := by
    rintro rfl result disk' ends
    have halts : Attempt.Halts (Untouched disk) (snapshot.save formats dir) := halts_save present (.inl on.mem)
    obtain ⟨-, untouched⟩ := halts { disk with faults := [] } _ _ ⟨rfl, rfl, fun _ => rfl⟩ ends
    exact holds_of_same untouched.tree untouched.directoryLen holds
  constructor
  · intro spares
    cases entry with
    | directory => exact .inl rfl
    | file content =>
      refine .inr ?_
      by_contra size
      obtain ⟨e, disk', ends, file⟩ := self_save_fails formats made passable on size
      have gone : [] = content :=
        (memory_of_holds (spares _ disk' ends) file).symm.trans (memory_of_holds holds on.mem)
      refine size (UInt64.toNat_inj.mp (on.size.trans ?_))
      rw [← gone]
      rfl
  · rintro (directory | size)
    · exact spared directory
    · intro result disk' ends
      cases entry with
      | directory => exact spared rfl result disk' ends
      | file content =>
        have empty : content = [] := List.eq_nil_of_length_eq_zero (on.size.symm.trans (by rw [size]; rfl))
        subst empty
        have calmly : Holds formats { disk with faults := [] } dir (snapshot.stored disk) :=
          holds_of_same rfl rfl holds
        obtain ⟨entry, info, kept⟩ := holds_iff.mp calmly
        cases Option.some.inj (on.mem.symm.trans kept.mem)
        obtain ⟨_, saved, after⟩ := self_save_empty { disk with faults := [] } rfl laws
          ⟨on.memory, on.handle, on.mem, on.size⟩ kept
        obtain ⟨-, rfl⟩ := saved.unique ends
        exact after

/-- The snapshot in a directory survives every failing save exactly if no save
gets past an empty memory file, and a save over itself exactly if there is no
memory to lose. -/
theorem save_spares_iff (unread : formats.parseCpu "" = none) (holds : Holds formats disk dir state) :
    ((∀ faults e disk', (snapshot.save formats dir).Ends { disk with faults := faults } (.error e) disk' →
      Holds formats disk' dir state) ↔ snapshot.Harmless disk dir) ∧
    ∀ entry, snapshot.OpenOn disk dir entry → snapshot.stored disk = state → RoundTrips formats snapshot →
      ((∀ result disk', (snapshot.save formats dir).Ends { disk with faults := [] } result disk' →
        Holds formats disk' dir state) ↔ entry = .directory ∨ snapshot.memorySize = 0) := by
  refine ⟨failure_spares_iff unread holds, ?_⟩
  rintro entry on rfl laws
  exact self_save_iff laws on holds

theorem oneByteDisk_holds : Holds oneByteFormats oneByteDisk ["s"] (oneByte.stored oneByteDisk) := by
  refine ⟨lazyOneByte, _, (load_ok rfl).mpr ⟨_, _, lazyOneByte_loads, rfl⟩, ?_⟩
  exact congrArg lazyOneByte.record (lazyOneByte_loads.fresh rfl).bytes

theorem oneByte_unread : oneByteFormats.parseCpu "" = none := by
  refine if_neg fun empty => written_cpu_ne zeroCpu ?_
  rw [written, ← empty]
  rfl

/-- One byte of memory is lost in some failing save. -/
theorem one_byte_is_not_spared :
    ¬ ∀ faults e disk', (oneByte.save oneByteFormats ["s"]).Ends { oneByteDisk with faults := faults } (.error e) disk' →
      Holds oneByteFormats disk' ["s"] (oneByte.stored oneByteDisk) := by
  intro spares
  rcases (save_spares_iff oneByte_unread oneByteDisk_holds).1.mp spares with directory | ⟨empty, -⟩
  · cases directory.symm.trans oneByte_mem
  · cases empty.symm.trans oneByte_mem

/-- A snapshot that was just loaded is saved into the directory it came from. -/
theorem self_save_destroys : ∃ opened e disk',
    (load oneByteFormats ["s"]).Ends oneByteDisk (.ok lazyOneByte) opened ∧
    (lazyOneByte.save oneByteFormats ["s"]).Ends opened (.error e) disk' ∧
    ¬ Holds oneByteFormats disk' ["s"] (lazyOneByte.stored opened) := by
  have fresh := lazyOneByte_loads.fresh rfl
  have present : oneByteDisk.tree.entries (["s"] ++ ["mem"]) ≠ none := present_of_holds oneByteDisk_holds
  rw [← fresh.tree] at present
  have size : lazyOneByte.memorySize ≠ 0 := by decide
  obtain ⟨e, disk', ends, empty⟩ := self_save_fails oneByteFormats (Tree.makeDirs_of_entry present)
    (Tree.passable_of_entry present) fresh.openOn size
  refine ⟨_, e, disk', (load_ok rfl).mpr ⟨_, _, lazyOneByte_loads, rfl⟩, ends, fun holds => ?_⟩
  cases (memory_of_holds holds empty).symm.trans fresh.bytes

end Snapshot
end TinyMachine.Snapshots
