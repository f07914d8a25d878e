import TinyMachine.SnapshotContents

/-! What `save` leaves in a directory: the files it writes, over those that
were there. -/
namespace TinyMachine.Snapshots
open Lib Disk VirtioNet Kernels

namespace Snapshot
variable {formats : Formats} {snapshot : Snapshot} {disk disk' : Disk} {dir path : Path}

/-- What is written as the memory. -/
def source (snapshot : Snapshot) (disk : Disk) : Option (List UInt8) :=
  if snapshot.memory ≠ [] then
    some snapshot.memory
  else
    snapshot.memFd.bind fun fd => disk.first fd snapshot.memorySize.toNat

/-- What the checksum is taken of. -/
def hashed (snapshot : Snapshot) (disk : Disk) : Option (List UInt8) :=
  if snapshot.memory ≠ [] then some snapshot.memory else snapshot.memFd.bind disk.contents

/-- The disk with the handle of the snapshot moved. -/
def moved (snapshot : Snapshot) (disk : Disk) (offset : Nat) : Disk :=
  if snapshot.memory ≠ [] then disk
  else
    match snapshot.memFd with
    | some fd => disk.seek fd offset
    | none => disk

/-! ## Files of a directory -/

/-- When nothing fails, these files are written. -/
def Saves (dir : Path) (x : SnapshotAction Unit) (files : List (String × List UInt8)) : Prop :=
  ∀ disk disk', disk.faults = [] → (x.Ends disk (.ok ()) disk' ↔
    (∀ file ∈ files, disk.tree.Writable (dir ++ [file.1])) ∧ disk' = { disk with tree := disk.tree.putAll dir files })

theorem saves_pure : Saves dir (pure ()) [] := by
  intro disk disk' _
  simp

theorem Saves.bind {x y : SnapshotAction Unit} {first second : List (String × List UInt8)}
    (before : Saves dir x first) (after : Saves dir y second) :
    Saves dir (x >>= fun _ => y) (first ++ second) := by
  intro disk disk' calm
  simp only [List.forall_mem_append, Tree.putAll_append]
  constructor
  · intro ends
    obtain ⟨_, _, one, two⟩ := Attempt.bind_ok.mp ends
    obtain ⟨writable, rfl⟩ := (before disk _ calm).mp one
    obtain ⟨later, rfl⟩ := (after _ _ (by exact calm)).mp two
    exact ⟨⟨writable, fun file member => Tree.writable_putAll.mp (later file member)⟩, rfl⟩
  · rintro ⟨⟨writable, later⟩, rfl⟩
    refine Attempt.bind_ok.mpr ⟨(), _, (before disk _ calm).mpr ⟨writable, rfl⟩, ?_⟩
    exact (after _ _ (by exact calm)).mpr ⟨fun file member => Tree.writable_putAll.mpr (later file member), rfl⟩

theorem saves_saveFile (name : String) (bytes : List UInt8) :
    Saves dir (saveFile (dir ++ [name]) bytes) [(name, bytes)] := by
  intro disk disk' calm
  simp only [List.forall_mem_singleton]
  constructor
  · intro ends
    obtain ⟨_, _, opened, rest⟩ := Attempt.bind_ok.mp ends
    obtain ⟨writable, rfl⟩ := (openTruncate_ok calm).mp opened
    obtain ⟨_, _, written, last⟩ := Attempt.bind_ok.mp rest
    obtain rfl := (writeAll_ok (by exact calm)).mp written
    rw [append_put writable, List.nil_append] at last
    exact ⟨writable, (syncAll_ok (by exact calm)).mp last⟩
  · rintro ⟨writable, rfl⟩
    refine Attempt.bind_ok.mpr ⟨(), _, (openTruncate_ok calm).mpr ⟨writable, rfl⟩, ?_⟩
    refine Attempt.bind_ok.mpr ⟨(), _, (writeAll_ok (by exact calm)).mpr rfl, ?_⟩
    rw [append_put writable, List.nil_append]
    exact (syncAll_ok (by exact calm)).mpr rfl

/-- The files that have something to write. -/
def present (files : List (String × Option (List UInt8))) : List (String × List UInt8) :=
  files.filterMap fun file => file.2.map (file.1, ·)

theorem present_append (first second : List (String × Option (List UInt8))) :
    present (first ++ second) = present first ++ present second := List.filterMap_append

theorem saves_saveOptional (name : String) (value : Option (List UInt8)) :
    Saves dir (saveOptional dir name value) (present [(name, value)]) := by
  cases value with
  | none => exact saves_pure
  | some bytes => exact saves_saveFile name bytes

def chipFiles (snapshot : Snapshot) : List (String × Option (List UInt8)) := [
  ("irqchip0.bin", snapshot.irqchips.bind fun chips => chips.masterPic.map Subtype.val),
  ("irqchip1.bin", snapshot.irqchips.bind fun chips => chips.slavePic.map Subtype.val),
  ("irqchip2.bin", snapshot.irqchips.bind fun chips => chips.ioapic.map Subtype.val)]

def optionalFiles (snapshot : Snapshot) : List (String × Option (List UInt8)) := [
  ("xsave.bin", snapshot.xsave.map Subtype.val),
  ("virtio_net.json", snapshot.virtioNetState.map fun state => written (virtioNetJson state))] ++ snapshot.chipFiles

theorem saves_saveIrqchips (snapshot : Snapshot) : Saves dir (snapshot.saveIrqchips dir) (present snapshot.chipFiles) := by
  unfold saveIrqchips chipFiles
  cases snapshot.irqchips with
  | none => exact saves_pure
  | some chips =>
    have last : Saves dir _ _ := (saves_saveOptional "irqchip1.bin" (chips.slavePic.map Subtype.val)).bind
      (saves_saveOptional "irqchip2.bin" (chips.ioapic.map Subtype.val))
    have whole := (saves_saveOptional "irqchip0.bin" (chips.masterPic.map Subtype.val)).bind last
    rw [← present_append, ← present_append] at whole
    exact whole

/-! ## The memory -/

/-- The disk on which `save` has made its directory and truncated the memory
file. -/
def truncated (disk : Disk) (dir : Path) : Disk :=
  { disk with tree := (disk.tree.makeDirs dir).put (dir ++ ["mem"]) [] }

theorem saveMem_ok (calm : disk.faults = []) :
    (snapshot.saveMem dir).Ends disk (.ok ()) disk' ↔ disk.tree.Writable (dir ++ ["mem"]) ∧
      ∃ bytes, snapshot.source { disk with tree := disk.tree.put (dir ++ ["mem"]) [] } = some bytes ∧
        disk' = { snapshot.moved disk snapshot.memorySize.toNat with tree := disk.tree.put (dir ++ ["mem"]) bytes } := by
  unfold saveMem
  rw [Attempt.bind_ok]
  simp only [openTruncate_ok calm]
  unfold source moved
  by_cases memory : snapshot.memory = []
  · simp only [memory, ne_eq, not_true_eq_false, if_false]
    cases snapshot.memFd with
    | none => simp [Attempt.bind_ok]
    | some fd =>
      constructor
      · rintro ⟨_, _, ⟨writable, rfl⟩, rest⟩
        obtain ⟨_, _, copied, next⟩ := Attempt.bind_ok.mp rest
        obtain ⟨rfl, rfl⟩ := (tryClone_ok (by exact calm)).mp copied
        obtain ⟨_, _, sought, next⟩ := Attempt.bind_ok.mp next
        obtain rfl := (seekStart_ok (by exact calm)).mp sought
        obtain ⟨bytes, _, read, next⟩ := Attempt.bind_ok.mp next
        obtain ⟨enough, rfl⟩ := (readFirst_ok (by exact calm)).mp read
        obtain ⟨_, _, written, last⟩ := Attempt.bind_ok.mp next
        obtain rfl := (writeAll_ok (by exact calm)).mp written
        rw [append_of_file (Tree.put_self writable [])] at last
        obtain rfl := (syncAll_ok (by exact calm)).mp last
        refine ⟨writable, bytes, enough, ?_⟩
        rw [seek_tree, Tree.put_put]
        rfl
      · rintro ⟨writable, bytes, enough, rfl⟩
        refine ⟨(), _, ⟨writable, rfl⟩, ?_⟩
        refine Attempt.bind_ok.mpr ⟨_, _, (tryClone_ok (by exact calm)).mpr ⟨rfl, rfl⟩, ?_⟩
        refine Attempt.bind_ok.mpr ⟨(), _, (seekStart_ok (by exact calm)).mpr rfl, ?_⟩
        refine Attempt.bind_ok.mpr ⟨_, _, (readFirst_ok (by exact calm)).mpr ⟨enough, rfl⟩, ?_⟩
        refine Attempt.bind_ok.mpr ⟨(), _, (writeAll_ok (by exact calm)).mpr rfl, ?_⟩
        rw [append_of_file (Tree.put_self writable []), seek_tree, Tree.put_put]
        exact (syncAll_ok (by exact calm)).mpr rfl
  · simp only [memory, ne_eq, not_false_eq_true, if_true]
    constructor
    · rintro ⟨_, _, ⟨writable, rfl⟩, rest⟩
      obtain ⟨_, _, written, last⟩ := Attempt.bind_ok.mp rest
      obtain rfl := (writeAll_ok (by exact calm)).mp written
      rw [append_put writable] at last
      exact ⟨writable, _, rfl, (syncAll_ok (by exact calm)).mp last⟩
    · rintro ⟨writable, bytes, same, rfl⟩
      cases same
      refine ⟨(), _, ⟨writable, rfl⟩, ?_⟩
      refine Attempt.bind_ok.mpr ⟨(), _, (writeAll_ok (by exact calm)).mpr rfl, ?_⟩
      rw [append_put writable]
      exact (syncAll_ok (by exact calm)).mpr rfl

/-- There are bytes in memory, or a handle on some. -/
def Sourced (snapshot : Snapshot) : Prop := snapshot.memory ≠ [] ∨ snapshot.memFd ≠ none

theorem sourced_of_source {bytes : List UInt8} (found : snapshot.source disk = some bytes) : snapshot.Sourced := by
  unfold source at found
  split at found
  · rename_i memory
    exact .inl memory
  · refine .inr fun closed => ?_
    simp [closed] at found

theorem memChecksum_ok {checksum : Option String} (calm : disk.faults = []) (sourced : snapshot.Sourced) :
    (snapshot.memChecksum formats).Ends disk (.ok checksum) disk' ↔ ∃ bytes, snapshot.hashed disk = some bytes ∧
      checksum = some (formats.blake3 bytes) ∧ disk' = snapshot.moved disk bytes.length := by
  unfold memChecksum hashed moved
  by_cases memory : snapshot.memory = []
  · simp only [memory, ne_eq, not_true_eq_false, if_false]
    cases handle : snapshot.memFd with
    | none => exact absurd sourced (by simp [Sourced, memory, handle])
    | some fd =>
      constructor
      · intro ends
        obtain ⟨_, _, copied, next⟩ := Attempt.bind_ok.mp ends
        obtain ⟨rfl, rfl⟩ := (tryClone_ok calm).mp copied
        obtain ⟨_, _, sought, next⟩ := Attempt.bind_ok.mp next
        obtain rfl := (seekStart_ok calm).mp sought
        obtain ⟨bytes, _, read, last⟩ := Attempt.bind_ok.mp next
        obtain ⟨found, rfl⟩ := (readWhole_ok calm).mp read
        obtain ⟨same, rfl⟩ := Attempt.pure_ends.mp last
        cases same
        exact ⟨bytes, found, rfl, rfl⟩
      · rintro ⟨bytes, found, rfl, rfl⟩
        refine Attempt.bind_ok.mpr ⟨fd, _, (tryClone_ok calm).mpr ⟨rfl, rfl⟩, ?_⟩
        refine Attempt.bind_ok.mpr ⟨(), _, (seekStart_ok calm).mpr rfl, ?_⟩
        refine Attempt.bind_ok.mpr ⟨bytes, _, (readWhole_ok calm).mpr ⟨found, rfl⟩, ?_⟩
        exact Attempt.pure_ends.mpr ⟨rfl, rfl⟩
  · simp [memory]

/-! ## The whole directory -/

/-- The files with these bytes as the memory, and the checksum of those. -/
def allFiles (formats : Formats) (snapshot : Snapshot) (bytes hashed : List UInt8) :
    List (String × Option (List UInt8)) :=
  [("mem", some bytes), ("state.json", some (written snapshot.cpu.toJson)),
    ("meta.json", some (written (snapshot.snapMeta (some (formats.blake3 hashed))).toJson))] ++ snapshot.optionalFiles

def files (formats : Formats) (snapshot : Snapshot) (bytes hashed : List UInt8) : List (String × List UInt8) :=
  present (snapshot.allFiles formats bytes hashed)

theorem moved_with_tree (snapshot : Snapshot) (disk : Disk) (tree : Tree) (offset : Nat) :
    snapshot.moved { disk with tree := tree } offset = { snapshot.moved disk offset with tree := tree } := by
  unfold moved
  split
  · rfl
  · cases snapshot.memFd with
    | none => rfl
    | some fd => rfl

theorem moved_tree (offset : Nat) : (snapshot.moved disk offset).tree = disk.tree := by
  unfold moved
  split
  · rfl
  · cases snapshot.memFd with
    | none => rfl
    | some fd => rfl

theorem moved_moved (first second : Nat) :
    snapshot.moved (snapshot.moved disk first) second = snapshot.moved disk second := by
  unfold moved
  split
  · rfl
  · cases snapshot.memFd with
    | none => rfl
    | some fd => exact seek_seek disk fd first second

theorem hashed_moved (offset : Nat) : snapshot.hashed (snapshot.moved disk offset) = snapshot.hashed disk := by
  unfold hashed moved
  split
  · rfl
  · cases snapshot.memFd with
    | none => rfl
    | some fd => exact seek_contents disk fd offset fd

theorem moved_faults (offset : Nat) : (snapshot.moved disk offset).faults = disk.faults := by
  unfold moved
  split
  · rfl
  · cases snapshot.memFd with
    | none => rfl
    | some fd => rfl

theorem moved_directoryLen (offset : Nat) : (snapshot.moved disk offset).directoryLen = disk.directoryLen := by
  unfold moved
  split
  · rfl
  · cases snapshot.memFd with
    | none => rfl
    | some fd => rfl

/-- The disk when the memory and the CPU state are written. -/
def midway (snapshot : Snapshot) (disk : Disk) (dir : Path) (bytes : List UInt8) : Disk :=
  { disk with tree := (disk.tree.makeDirs dir).putAll dir [("mem", bytes), ("state.json", written snapshot.cpu.toJson)] }

/-- What `save` has done when it succeeds. -/
structure Saved (formats : Formats) (snapshot : Snapshot) (disk : Disk) (dir : Path) (bytes hashed : List UInt8)
    (disk' : Disk) : Prop where
  passable : disk.tree.Passable dir
  source : snapshot.source (truncated disk dir) = some bytes
  digested : snapshot.hashed (snapshot.midway disk dir bytes) = some hashed
  writable : ∀ file ∈ snapshot.files formats bytes hashed, (disk.tree.makeDirs dir).Writable (dir ++ [file.1])
  after : disk' = { snapshot.moved disk hashed.length with
    tree := (disk.tree.makeDirs dir).putAll dir (snapshot.files formats bytes hashed) }

private theorem saves_rest (info : SnapMeta) :
    Saves dir (do
      saveFile (dir ++ ["meta.json"]) (written info.toJson)
      saveOptional dir "xsave.bin" (snapshot.xsave.map Subtype.val)
      saveOptional dir "virtio_net.json" (snapshot.virtioNetState.map fun state => written (virtioNetJson state))
      snapshot.saveIrqchips dir) (("meta.json", written info.toJson) :: present snapshot.optionalFiles) := by
  have net : Saves dir _ _ := (saves_saveOptional "virtio_net.json" (snapshot.virtioNetState.map fun state =>
    written (virtioNetJson state))).bind (saves_saveIrqchips snapshot)
  have xsave := (saves_saveOptional "xsave.bin" (snapshot.xsave.map Subtype.val)).bind net
  have whole := (saves_saveFile "meta.json" (written info.toJson)).bind xsave
  rw [← present_append, ← present_append] at whole
  exact whole

private theorem before_digest (offset : Nat) (bytes : List UInt8) :
    ({ snapshot.moved { disk with tree := disk.tree.makeDirs dir } offset with
      tree := ((disk.tree.makeDirs dir).put (dir ++ ["mem"]) bytes).putAll dir
        [("state.json", written snapshot.cpu.toJson)] } : Disk) =
      snapshot.moved (snapshot.midway disk dir bytes) offset := by
  rw [moved_with_tree snapshot disk (disk.tree.makeDirs dir)]
  exact (moved_with_tree snapshot disk _ offset).symm

private theorem after_rest (offset : Nat) (bytes hashed : List UInt8) :
    ({ snapshot.moved (snapshot.midway disk dir bytes) offset with
      tree := (snapshot.moved (snapshot.midway disk dir bytes) offset).tree.putAll dir
        (("meta.json", written (snapshot.snapMeta (some (formats.blake3 hashed))).toJson) ::
          present snapshot.optionalFiles) } : Disk) =
      { snapshot.moved disk offset with
        tree := (disk.tree.makeDirs dir).putAll dir (snapshot.files formats bytes hashed) } := by
  rw [moved_tree, midway, moved_with_tree snapshot disk]
  rfl

theorem save_ok (calm : disk.faults = []) :
    (snapshot.save formats dir).Ends disk (.ok ()) disk' ↔
      ∃ bytes hashed, Saved formats snapshot disk dir bytes hashed disk' := by
  have calm₁ : ∀ tree offset, ({ snapshot.moved { disk with tree := disk.tree.makeDirs dir } offset with
      tree := tree } : Disk).faults = [] := fun _ _ => (moved_faults _).trans calm
  have calm₂ : ∀ bytes offset, (snapshot.moved (snapshot.midway disk dir bytes) offset).faults = [] :=
    fun _ _ => (moved_faults _).trans calm
  constructor
  · intro ends
    obtain ⟨_, _, made, rest⟩ := Attempt.bind_ok.mp ends
    obtain ⟨passable, rfl⟩ := (createDirAll_ok calm).mp made
    obtain ⟨_, _, memory, rest⟩ := Attempt.bind_ok.mp rest
    obtain ⟨mem, bytes, source, rfl⟩ := (saveMem_ok (by exact calm)).mp memory
    obtain ⟨_, _, cpu, rest⟩ := Attempt.bind_ok.mp rest
    obtain ⟨state, rfl⟩ := (saves_saveFile "state.json" _ _ _ (calm₁ _ _)).mp cpu
    rw [before_digest] at rest
    obtain ⟨checksum, _, digest, rest⟩ := Attempt.bind_ok.mp rest
    obtain ⟨hashed, found, rfl, rfl⟩ := (memChecksum_ok (calm₂ _ _) (sourced_of_source source)).mp digest
    rw [moved_moved] at rest
    obtain ⟨later, rfl⟩ := (saves_rest _ _ _ (calm₂ _ _)).mp rest
    rw [hashed_moved] at found
    refine ⟨bytes, hashed, passable, source, found, ?_, after_rest hashed.length bytes hashed⟩
    rw [moved_tree] at later
    refine List.forall_mem_cons.mpr ⟨mem, List.forall_mem_cons.mpr ⟨?_, fun file member => ?_⟩⟩
    · exact Tree.writable_put.mp (state _ List.mem_cons_self)
    · exact Tree.writable_putAll.mp (later file member)
  · rintro ⟨bytes, hashed, passable, source, found, writable, rfl⟩
    obtain ⟨mem, writable⟩ := List.forall_mem_cons.mp writable
    obtain ⟨state, later⟩ := List.forall_mem_cons.mp writable
    refine Attempt.bind_ok.mpr ⟨(), _, (createDirAll_ok calm).mpr ⟨passable, rfl⟩, ?_⟩
    refine Attempt.bind_ok.mpr ⟨(), _, (saveMem_ok (by exact calm)).mpr ⟨mem, bytes, source, rfl⟩, ?_⟩
    refine Attempt.bind_ok.mpr ⟨(), _, (saves_saveFile "state.json" _ _ _ (calm₁ _ _)).mpr ⟨?_, rfl⟩, ?_⟩
    · rintro file member
      obtain rfl := List.mem_singleton.mp member
      exact Tree.writable_put.mpr state
    rw [before_digest]
    refine Attempt.bind_ok.mpr ⟨some (formats.blake3 hashed),
      snapshot.moved (snapshot.midway disk dir bytes) hashed.length, ?_, ?_⟩
    · rw [memChecksum_ok (calm₂ _ _) (sourced_of_source source), hashed_moved]
      exact ⟨hashed, found, rfl, (moved_moved _ _).symm⟩
    refine (saves_rest _ _ _ (calm₂ _ _)).mpr ⟨fun file member => ?_, (after_rest hashed.length bytes hashed).symm⟩
    rw [moved_tree]
    exact Tree.writable_putAll.mpr (later file member)

/-! ### Success in spite of what was in store -/

theorem steady_saveFile {path : Path} {bytes : List UInt8} : Steady (saveFile path bytes) :=
  steady_openTruncate.bind fun _ => steady_writeAll.bind fun _ => steady_syncAll

theorem steady_saveMem : Steady (snapshot.saveMem dir) := by
  unfold saveMem
  refine steady_openTruncate.bind fun _ => ?_
  split
  · exact steady_writeAll.bind fun _ => steady_syncAll
  · split
    · refine steady_tryClone.bind fun reader => steady_seekStart.bind fun _ => ?_
      exact steady_readExact.bind fun buf => steady_writeAll.bind fun _ => steady_syncAll
    · exact (steady_fail _).bind fun _ => steady_syncAll

private theorem steady_memChecksum : Steady (snapshot.memChecksum formats) := by
  unfold memChecksum
  split
  · exact steady_pure _
  · split
    · refine steady_tryClone.bind fun reader => steady_seekStart.bind fun _ => ?_
      exact steady_readRest.bind fun bytes => steady_pure _
    · exact steady_pure _

private theorem steady_saveOptional {name : String} {value : Option (List UInt8)} :
    Steady (saveOptional dir name value) := by
  cases value with
  | none => exact steady_pure ()
  | some bytes => exact steady_saveFile

private theorem steady_saveIrqchips : Steady (snapshot.saveIrqchips dir) := by
  unfold saveIrqchips
  split
  · exact steady_saveOptional.bind fun _ => steady_saveOptional.bind fun _ => steady_saveOptional
  · exact steady_pure ()

theorem steady_save : Steady (snapshot.save formats dir) := by
  refine steady_createDirAll.bind fun _ => steady_saveMem.bind fun _ => ?_
  refine steady_saveFile.bind fun _ => steady_memChecksum.bind fun checksum => ?_
  refine steady_saveFile.bind fun _ => steady_saveOptional.bind fun _ => ?_
  exact steady_saveOptional.bind fun _ => steady_saveIrqchips

/-! ### Looking at what was saved -/

/-- The names of the files that `save` may write. -/
def names : List String :=
  ["mem", "state.json", "meta.json", "xsave.bin", "virtio_net.json", "irqchip0.bin", "irqchip1.bin", "irqchip2.bin"]

private theorem present_names (files : List (String × Option (List UInt8))) :
    ((present files).map Prod.fst).Sublist (files.map Prod.fst) := by
  induction files with
  | nil => exact List.Sublist.refl _
  | cons file files ih =>
    obtain ⟨name, _ | bytes⟩ := file
    · exact ih.cons name
    · exact ih.cons_cons name

private theorem present_fresh {files : List (String × Option (List UInt8))} {name : String}
    (distinct : (files.map Prod.fst).Nodup) (member : (name, none) ∈ files) :
    name ∉ (present files).map Prod.fst := by
  induction files with
  | nil => cases member
  | cons file files ih =>
    obtain ⟨fresh, later⟩ := List.nodup_cons.mp distinct
    rcases List.mem_cons.mp member with rfl | inside
    · exact fun there => fresh ((present_names files).subset there)
    · obtain ⟨other, _ | content⟩ := file
      · exact ih later inside
      · refine fun there => (List.mem_cons.mp there).elim (fun same => fresh ?_) (ih later inside)
        rw [← same]
        exact List.mem_map_of_mem inside

variable {bytes hashed : List UInt8}

theorem names_nodup : names.Nodup := by decide

theorem allFiles_nodup : ((snapshot.allFiles formats bytes hashed).map Prod.fst).Nodup := names_nodup

theorem files_names : ((snapshot.files formats bytes hashed).map Prod.fst).Sublist names := present_names _

theorem files_nodup : ((snapshot.files formats bytes hashed).map Prod.fst).Nodup := files_names.nodup names_nodup

/-- The tree when everything is saved. -/
def savedTree (formats : Formats) (snapshot : Snapshot) (tree : Tree) (dir : Path) (bytes hashed : List UInt8) : Tree :=
  (tree.makeDirs dir).putAll dir (snapshot.files formats bytes hashed)

variable {tree : Tree}

theorem savedTree_other {other : Path} (apart : ∀ name ∈ names, other ≠ dir ++ [name]) :
    (snapshot.savedTree formats tree dir bytes hashed).entries other = (tree.makeDirs dir).entries other :=
  Tree.putAll_of_notMem fun _ member => apart _ (files_names.subset (List.mem_map_of_mem member))

/-- A file is written, or else stays what it was. -/
theorem savedTree_file {name : String} {value : Option (List UInt8)}
    (member : (name, value) ∈ snapshot.allFiles formats bytes hashed)
    (writable : ∀ file ∈ snapshot.files formats bytes hashed, (tree.makeDirs dir).Writable (dir ++ [file.1])) :
    (snapshot.savedTree formats tree dir bytes hashed).entries (dir ++ [name]) =
      (value.map Entry.file).or (tree.entries (dir ++ [name])) := by
  cases value with
  | some content =>
    have there : (name, content) ∈ snapshot.files formats bytes hashed := List.mem_filterMap.mpr ⟨_, member, rfl⟩
    exact Tree.putAll_mem files_nodup there (writable _ there)
  | none =>
    refine (Tree.putAll_of_notMem fun file there same => ?_).trans (Tree.makeDirs_file name)
    have named : name = file.1 := by simpa using same
    exact present_fresh allFiles_nodup member (named ▸ List.mem_map_of_mem there)

end Snapshot
end TinyMachine.Snapshots
