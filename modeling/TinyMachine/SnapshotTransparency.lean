import Mathlib.Data.List.Forall2
import TinyMachine.TemplateStoring
import TinyMachine.Lib.InStep

/-! A snapshot whose memory is left in its file, beside the same one with the
memory loaded: what the operations on them and on their clones do. -/
namespace TinyMachine.Snapshots
open Lib Disk

/-! ## Disks that differ in one offset -/

/-- The disks are the same but for where the handle on the memory file stands. -/
structure Near (mem : Path) (bytes : List UInt8) (fd : Nat) (disk other : Disk) : Prop where
  calm : disk.faults = []
  file : disk.tree.IsFile mem bytes
  handle : ∃ offset, disk.opened[fd]? = some ⟨.named mem, offset⟩
  same : ∃ offset, other = disk.seek fd offset

section Near
variable {mem path : Path} {bytes content : List UInt8} {fd : Nat} {disk other : Disk} {files : Tree}

theorem Near.refl (calm : disk.faults = []) (file : disk.tree.IsFile mem bytes)
    (handle : ∃ offset, disk.opened[fd]? = some ⟨.named mem, offset⟩) : Near mem bytes fd disk disk :=
  ⟨calm, file, handle, disk.offset fd, (seek_of_offset disk rfl).symm⟩

theorem Near.tree_eq (near : Near mem bytes fd disk other) : other.tree = disk.tree := by
  obtain ⟨offset, rfl⟩ := near.same
  rfl

theorem Near.contents (near : Near mem bytes fd disk other) : disk.contents fd = some bytes := by
  obtain ⟨offset, handle⟩ := near.handle
  have there : disk.tree.entries mem = some (.file bytes) := near.file
  rw [Disk.contents, handle, Option.bind_some]
  dsimp only
  rw [there]
  rfl

theorem Near.withTree (near : Near mem bytes fd disk other) (kept : files.IsFile mem bytes) :
    Near mem bytes fd { disk with tree := files } { other with tree := files } := by
  obtain ⟨offset, rfl⟩ := near.same
  exact ⟨near.calm, kept, near.handle, offset, rfl⟩

theorem Near.seek (near : Near mem bytes fd disk other) (offset offset' : Nat) :
    Near mem bytes fd (disk.seek fd offset) (other.seek fd offset') := by
  obtain ⟨_, rfl⟩ := near.same
  obtain ⟨stands, handle⟩ := near.handle
  refine ⟨near.calm, near.file, ⟨offset, ?_⟩, offset', by rw [seek_seek, seek_seek]⟩
  rw [Disk.seek]
  dsimp only
  rw [List.getElem?_modify_eq, handle]
  rfl

/-- The other disk is as near. -/
theorem Near.symm (near : Near mem bytes fd disk other) : Near mem bytes fd other disk := by
  obtain ⟨offset, rfl⟩ := near.same
  have again := near.seek offset (disk.offset fd)
  rw [seek_seek, seek_of_offset disk rfl] at again
  exact again

section Operations
variable {ε α : Type} [FromIo ε]

theorem near_operation {act : Disk → Except IoError α × Disk}
    (step : ∀ disk other, Near mem bytes fd disk other → (act disk).1 = (act other).1 ∧
      Near mem bytes fd (act disk).2 (act other).2) :
    Attempt.InStep (Near mem bytes fd) Eq (operation act : Attempt ε Disk α) (operation act) := by
  intro disk other near
  have calmly : ∀ disk : Disk, disk.faults = [] → (operation act : Attempt ε Disk α) disk =
      ((act disk).1.mapError FromIo.ofIo, (act disk).2) := by
    intro disk calm
    have still : disk.next = disk := by rw [next, calm, List.tail_nil, ← calm]
    have none : disk.fault = none := by rw [fault, calm]; rfl
    unfold operation
    rw [none, still]
    dsimp only
    rcases act disk with ⟨_ | _, _⟩ <;> rfl
  obtain ⟨same, after⟩ := step disk other near
  unfold Attempt.TogetherFrom
  rw [calmly disk near.calm, calmly other near.symm.calm, same]
  refine ⟨?_, after⟩
  cases (act other).1 with
  | ok a => exact .ok rfl
  | error e => exact .error _

theorem near_createDirAll : Attempt.InStep (Near mem bytes fd) Eq (createDirAll path : Attempt ε Disk Unit)
    (createDirAll path) := by
  refine near_operation fun disk other near => ?_
  rw [near.tree_eq]
  split
  · rename_i passable
    exact ⟨rfl, near.withTree ((Tree.isFile_makeDirs passable).mpr near.file)⟩
  · exact ⟨rfl, near⟩

theorem near_openTruncate (apart : path ≠ mem) :
    Attempt.InStep (Near mem bytes fd) Eq (openTruncate path : Attempt ε Disk Unit) (openTruncate path) := by
  refine near_operation fun disk other near => ?_
  rw [near.tree_eq]
  split
  · exact ⟨rfl, near.withTree ((Tree.put_of_ne apart.symm _).trans near.file)⟩
  · exact ⟨rfl, near⟩

theorem near_syncAll : Attempt.InStep (Near mem bytes fd) Eq (syncAll : Attempt ε Disk Unit) syncAll :=
  near_operation fun _ _ near => ⟨rfl, near⟩

theorem near_writeAll (apart : path ≠ mem) :
    Attempt.InStep (Near mem bytes fd) Eq (writeAll path content : Attempt ε Disk Unit) (writeAll path content) := by
  intro disk other near
  have appended : Near mem bytes fd (disk.append path content) (other.append path content) := by
    unfold append
    rw [near.tree_eq]
    split
    · exact near.withTree ((Tree.put_of_ne apart.symm _).trans near.file)
    · exact near
  have ends : ∀ {disk : Disk}, disk.faults = [] →
      (writeAll path content : Attempt ε Disk Unit) disk = (.ok (), disk.append path content) := fun calm =>
    (writeAll_ok calm).mpr rfl
  unfold Attempt.TogetherFrom
  rw [ends near.calm, ends near.symm.calm]
  exact ⟨.ok rfl, appended⟩

end Operations
end Near

namespace Snapshot
variable {formats : Formats} {home dir : Path} {bytes : List UInt8} {fd : Nat} {disk other : Disk}
  {snapshot lazy eager : Snapshot}

/-- The same snapshot, the second one with the bytes of the memory file in it. -/
structure Pairs (bytes : List UInt8) (fd : Nat) (lazy eager : Snapshot) : Prop where
  loaded : eager = { lazy with memory := bytes }
  memory : lazy.memory = [] ∨ lazy.memory = bytes
  handle : lazy.memFd = none ∨ lazy.memFd = some fd
  size : lazy.memorySize.toNat = bytes.length

/-- The snapshot has the bytes, or a handle on them. -/
def Supplies (bytes : List UInt8) (fd : Nat) (snapshot : Snapshot) : Prop :=
  (snapshot.memory ≠ [] ∧ snapshot.memory = bytes) ∨ (snapshot.memory = [] ∧ snapshot.memFd = some fd)

/-- The snapshot can be saved without its file, or from it. -/
def Savable (snapshot : Snapshot) : Prop := snapshot.Sourced ∨ snapshot.memorySize = 0

theorem Pairs.supplied (pairs : Pairs bytes fd lazy eager) (savable : lazy.Savable) :
    (lazy.Supplies bytes fd ∧ eager.Supplies bytes fd) ∨
      (eager = lazy ∧ lazy.memory = [] ∧ lazy.memFd = none) := by
  obtain ⟨rfl, memory, handle, size⟩ := pairs
  by_cases empty : bytes = []
  · subst empty
    have none : lazy.memory = [] := memory.elim id id
    have same : ({ lazy with memory := [] } : Snapshot) = lazy := by rw [← none]
    rw [same]
    rcases handle with closed | opened
    · exact .inr ⟨rfl, none, closed⟩
    · exact .inl ⟨.inr ⟨none, opened⟩, .inr ⟨none, opened⟩⟩
  · refine .inl ⟨?_, .inl ⟨empty, rfl⟩⟩
    rcases memory with none | held
    · refine .inr ⟨none, handle.resolve_left fun closed => ?_⟩
      rcases savable with (held | opened) | zero
      · exact held none
      · exact opened closed
      · rw [zero] at size
        exact empty (List.eq_nil_of_length_eq_zero size.symm)
    · exact .inl ⟨held ▸ empty, held⟩

/-! ## Saving -/

theorem near_saveFile {path : Path} {content : List UInt8} (apart : path ≠ home ++ ["mem"]) :
    Attempt.InStep (Near (home ++ ["mem"]) bytes fd) Eq (saveFile path content) (saveFile path content) :=
  (near_openTruncate apart).bind_eq fun _ => (near_writeAll apart).bind_eq fun _ => near_syncAll

/-- What is done behind the truncation of the memory file. -/
def fillMem (snapshot : Snapshot) (dir : Path) : SnapshotAction Unit :=
  if snapshot.memory ≠ [] then do
    writeAll (dir ++ ["mem"]) snapshot.memory
    syncAll
  else
    match snapshot.memFd with
    | some fd => do
      let reader ← tryClone fd
      seekStart reader
      let buf ← readExact reader snapshot.memorySize.toNat
      writeAll (dir ++ ["mem"]) buf
      syncAll
    | none => Attempt.fail (.invalid .noMemorySource)

theorem saveMem_eq (snapshot : Snapshot) (dir : Path) :
    snapshot.saveMem dir = openTruncate (dir ++ ["mem"]) >>= fun _ => snapshot.fillMem dir := by
  unfold saveMem fillMem
  refine congrArg (_ >>= ·) (funext fun _ => ?_)
  split
  · rfl
  · cases snapshot.memFd <;> rfl

/-- Where the bytes come from makes no difference but in the offset. -/
theorem fillMem_of_supplies (dir : Path) (calm : disk.faults = []) (held : disk.contents fd = some bytes)
    (size : snapshot.memorySize.toNat = bytes.length) (supplies : snapshot.Supplies bytes fd) :
    ∃ offset, snapshot.fillMem dir disk =
      (writeAll (dir ++ ["mem"]) bytes >>= fun _ => syncAll : SnapshotAction Unit) (disk.seek fd offset) := by
  unfold fillMem
  rcases supplies with ⟨some, rfl⟩ | ⟨none, opened⟩
  · refine ⟨disk.offset fd, ?_⟩
    rw [if_pos some, seek_of_offset disk rfl]
  · have whole : disk.first fd bytes.length = some bytes := by
      rw [first, held, Option.bind_some, if_pos (Nat.le_refl _), List.take_length]
      split
      · rename_i empty
        rw [List.eq_nil_of_length_eq_zero empty]
      · rfl
    refine ⟨bytes.length, ?_⟩
    rw [if_neg (not_not_intro none), opened, size]
    dsimp only
    rw [Attempt.bind_of_ends ((tryClone_ok calm).mpr ⟨rfl, rfl⟩),
      Attempt.bind_of_ends ((seekStart_ok calm).mpr rfl),
      Attempt.bind_of_ends ((readFirst_ok calm).mpr ⟨whole, rfl⟩)]

theorem memChecksum_of_supplies (formats : Formats) (calm : disk.faults = []) (held : disk.contents fd = some bytes)
    (supplies : snapshot.Supplies bytes fd) :
    ∃ offset, (snapshot.memChecksum formats).Ends disk (.ok (some (formats.blake3 bytes)))
      (disk.seek fd offset) := by
  rcases supplies with ⟨some, rfl⟩ | ⟨none, opened⟩
  · refine ⟨disk.offset fd, ?_⟩
    rw [seek_of_offset disk rfl, memChecksum, if_pos some]
    exact Attempt.pure_ends.mpr ⟨rfl, rfl⟩
  · have digested : snapshot.hashed disk = Option.some bytes := by
      rw [hashed, if_neg (not_not_intro none), opened]
      exact held
    have moved : snapshot.moved disk bytes.length = disk.seek fd bytes.length := by
      rw [Snapshot.moved, if_neg (not_not_intro none), opened]
    have sourced : snapshot.Sourced := .inr (by simp [opened])
    exact ⟨bytes.length, (memChecksum_ok calm sourced).mpr ⟨bytes, digested, rfl, moved.symm⟩⟩

/-- Two sources of the same bytes, or the same snapshot without any. -/
theorem near_fillMem (pairs : Pairs bytes fd lazy eager) (savable : lazy.Savable) (apart : dir ≠ home) :
    Attempt.InStep (Near (home ++ ["mem"]) bytes fd) Eq (lazy.fillMem dir) (eager.fillMem dir) := by
  have other : dir ++ ["mem"] ≠ home ++ ["mem"] := fun same => apart (List.append_cancel_right same)
  rcases pairs.supplied savable with ⟨one, two⟩ | ⟨rfl, none, closed⟩
  · intro disk other' near
    have size : eager.memorySize.toNat = bytes.length := by rw [pairs.loaded]; exact pairs.size
    obtain ⟨offset, left⟩ := fillMem_of_supplies dir near.calm near.contents pairs.size one
    obtain ⟨offset', right⟩ := fillMem_of_supplies dir near.symm.calm near.symm.contents size two
    refine Attempt.TogetherFrom.of_eq left right ?_
    exact ((near_writeAll other).bind_eq fun _ => near_syncAll) _ _ (near.seek offset offset')
  · unfold fillMem
    rw [if_neg (not_not_intro none), closed]
    exact Attempt.inStep_fail _

theorem near_memChecksum (pairs : Pairs bytes fd lazy eager) (savable : lazy.Savable) :
    Attempt.InStep (Near (home ++ ["mem"]) bytes fd) Eq (lazy.memChecksum formats) (eager.memChecksum formats) := by
  rcases pairs.supplied savable with ⟨one, two⟩ | ⟨rfl, none, closed⟩
  · intro disk other near
    obtain ⟨offset, left⟩ := memChecksum_of_supplies formats near.calm near.contents one
    obtain ⟨offset', right⟩ := memChecksum_of_supplies formats near.symm.calm near.symm.contents two
    unfold Attempt.TogetherFrom
    rw [show _ = _ from left, show _ = _ from right]
    exact ⟨.ok rfl, near.seek offset offset'⟩
  · unfold memChecksum
    rw [if_neg (not_not_intro none), closed]
    exact Attempt.inStep_pure rfl

theorem near_saveOptional {name : String} {value : Option (List UInt8)} (apart : dir ≠ home) :
    Attempt.InStep (Near (home ++ ["mem"]) bytes fd) Eq (saveOptional dir name value)
      (saveOptional dir name value) := by
  cases value with
  | none => exact Attempt.inStep_pure rfl
  | some content => exact near_saveFile fun same => apart (List.append_inj_left' same rfl)

theorem near_save (formats : Formats) (pairs : Pairs bytes fd lazy eager) (savable : lazy.Savable)
    (apart : dir ≠ home) :
    Attempt.InStep (Near (home ++ ["mem"]) bytes fd) Eq (lazy.save formats dir) (eager.save formats dir) := by
  have elsewhere : ∀ name, dir ++ [name] ≠ home ++ ["mem"] := fun name same =>
    apart (List.append_inj_left' same rfl)
  have filled : Attempt.InStep (Near (home ++ ["mem"]) bytes fd) Eq (lazy.fillMem dir) (eager.fillMem dir) :=
    near_fillMem pairs savable apart
  have digested : Attempt.InStep (Near (home ++ ["mem"]) bytes fd) Eq (lazy.memChecksum formats)
      (eager.memChecksum formats) := near_memChecksum pairs savable
  have memory : Attempt.InStep (Near (home ++ ["mem"]) bytes fd) Eq (lazy.saveMem dir) (eager.saveMem dir) := by
    rw [saveMem_eq, saveMem_eq]
    exact (near_openTruncate (elsewhere "mem")).bind_eq fun _ => filled
  obtain ⟨rfl, -, -, -⟩ := pairs
  refine near_createDirAll.bind_eq fun _ => memory.bind_eq fun _ => (near_saveFile (elsewhere _)).bind_eq fun _ => ?_
  refine digested.bind_eq fun checksum => (near_saveFile (elsewhere _)).bind_eq fun _ => ?_
  refine (near_saveOptional apart).bind_eq fun _ => (near_saveOptional apart).bind_eq fun _ => ?_
  unfold saveIrqchips
  dsimp only
  cases lazy.irqchips with
  | none => exact Attempt.inStep_pure rfl
  | some chips =>
    refine (near_saveOptional apart).bind_eq fun _ => (near_saveOptional apart).bind_eq fun _ => ?_
    exact near_saveOptional apart

/-! ## Loading the memory -/

/-- The memory is there, or the handle stands at the start of the file, or there
is nothing to read. -/
def Readable (snapshot : Snapshot) (disk : Disk) : Prop :=
  snapshot.memory ≠ [] ∨ (∃ fd, snapshot.memFd = some fd ∧ disk.offset fd = 0) ∨ snapshot.memorySize = 0

/-- Of an empty file nothing is read. -/
theorem ensureMemoryLoaded_of_empty (calm : disk.faults = []) (none : snapshot.memory = [])
    (opened : snapshot.memFd = some fd) (size : snapshot.memorySize.toNat = 0) :
    snapshot.ensureMemoryLoaded.Ends disk (.ok snapshot) disk := by
  have same : ({ snapshot with memory := [] } : Snapshot) = snapshot := by rw [← none]
  have read : (readExact fd 0 : SnapshotAction (List UInt8)).Ends disk (.ok []) disk :=
    Attempt.pure_ends.mpr ⟨rfl, rfl⟩
  have run : snapshot.ensureMemoryLoaded = (do
      let reader ← tryClone fd
      let buf ← readExact reader 0
      return { snapshot with memory := buf } : SnapshotAction Snapshot) := by
    rw [ensureMemoryLoaded, if_neg (not_not_intro none), size]
    split
    · rename_i fd' known
      cases opened.symm.trans known
      rfl
    · rename_i closed
      cases opened.symm.trans closed
  rw [run]
  refine Attempt.bind_ok.mpr ⟨fd, _, (tryClone_ok calm).mpr ⟨rfl, rfl⟩, ?_⟩
  exact Attempt.bind_ok.mpr ⟨[], _, read, Attempt.pure_ends.mpr ⟨congrArg Except.ok same.symm, rfl⟩⟩

theorem near_ensureMemoryLoaded (near : Near (home ++ ["mem"]) bytes fd disk other)
    (pairs : Pairs bytes fd lazy eager) (readable : lazy.Readable disk) :
    Attempt.TogetherFrom (Near (home ++ ["mem"]) bytes fd) (fun one two => one = two ∧ Pairs bytes fd two two)
      lazy.ensureMemoryLoaded eager.ensureMemoryLoaded disk other := by
  have whole : Pairs bytes fd eager eager := by
    obtain ⟨rfl, -, handle, size⟩ := pairs
    exact ⟨rfl, .inr rfl, handle, size⟩
  by_cases empty : bytes = []
  · -- Nothing is read, and both are the same.
    subst empty
    have none : lazy.memory = [] := pairs.memory.elim id id
    obtain rfl : eager = lazy := by rw [pairs.loaded, ← none]
    rcases pairs.handle with closed | opened
    · unfold ensureMemoryLoaded
      rw [if_neg (not_not_intro none), closed]
      exact Attempt.inStep_fail _ _ _ near
    · have size : eager.memorySize.toNat = 0 := pairs.size
      unfold Attempt.TogetherFrom
      rw [show _ = _ from ensureMemoryLoaded_of_empty near.calm none opened size,
        show _ = _ from ensureMemoryLoaded_of_empty near.symm.calm none opened size]
      exact ⟨.ok ⟨rfl, whole⟩, near⟩
  · have held : eager.memory ≠ [] := by rw [pairs.loaded]; exact empty
    have right : eager.ensureMemoryLoaded other = (.ok eager, other) := by
      rw [ensureMemoryLoaded, if_pos held]
      rfl
    by_cases none : lazy.memory = []
    · obtain ⟨fd', opened, start⟩ := (readable.resolve_left (not_not_intro none)).resolve_right fun zero => by
        have size := pairs.size
        rw [zero] at size
        exact empty (List.eq_nil_of_length_eq_zero size.symm)
      obtain rfl : fd' = fd := by
        rcases pairs.handle with closed | known
        · rw [closed] at opened
          cases opened
        · exact Option.some.inj (opened.symm.trans known)
      have left := ensureMemoryLoaded_of_start near.calm none opened start near.contents pairs.size
      have after := near.seek bytes.length (other.offset fd')
      rw [seek_of_offset other rfl] at after
      unfold Attempt.TogetherFrom
      rw [right, show _ = _ from left, ← pairs.loaded]
      exact ⟨.ok ⟨rfl, whole⟩, after⟩
    · have left : lazy.ensureMemoryLoaded disk = (.ok lazy, disk) := by
        rw [ensureMemoryLoaded, if_pos none]
        rfl
      have same : lazy = eager := by rw [pairs.loaded, ← pairs.memory.resolve_left none]
      unfold Attempt.TogetherFrom
      rw [right, left]
      exact ⟨.ok ⟨same, whole⟩, near⟩

end Snapshot

end TinyMachine.Snapshots

namespace TinyMachine.Templates
open Lib Disk Kernels Snapshots Snapshot

variable {formats : RegistryFormats} {mode : Overflow} {home : Path} {bytes : List UInt8} {fd : Nat}
  {disk other : Disk} {registry : TemplateRegistry} {variant : Variant} {now : String} {lazy eager : Snapshot}

/-! ## Storing in the registry -/

/-- The snapshot has the bytes itself, or there are none. -/
def HasBytes (snapshot : Snapshot) : Prop := snapshot.memory ≠ [] ∨ snapshot.memorySize = 0

/-- The registry puts nothing over the memory file. -/
structure StoresElsewhere (mode : Overflow) (registry : TemplateRegistry) (variant : Variant) (home : Path) :
    Prop where
  snapshot : ∀ version, registry.nextVersion variant mode = some version →
    registry.snapshotDir variant version ≠ home
  list : join registry.root "registry.json" ≠ home ++ ["mem"]

theorem pairs_clone (pairs : Pairs bytes fd lazy eager) : Pairs bytes fd lazy.clone eager.clone := by
  obtain ⟨rfl, memory, -, size⟩ := pairs
  exact ⟨rfl, memory, .inl rfl, size⟩

/-- Recording the kernel does not look at the memory, and leaves it as it is. -/
theorem recorded_memory (registry : TemplateRegistry) (variant : Variant) (snapshot : Snapshot)
    (sha256 : List UInt8 → String) (tree : Tree) (memory : List UInt8) :
    registry.recorded variant sha256 tree { snapshot with memory := memory } =
      { registry.recorded variant sha256 tree snapshot with memory := memory } ∧
      (registry.recorded variant sha256 tree snapshot).memory = snapshot.memory ∧
      (registry.recorded variant sha256 tree snapshot).memorySize = snapshot.memorySize ∧
      (registry.recorded variant sha256 tree snapshot).memFd = none := by
  cases known : registry.kernelRegistry with
  | none =>
    simp only [TemplateRegistry.recorded, known]
    exact ⟨rfl, rfl, rfl, rfl⟩
  | some kernels =>
    cases found : kernels.resolved tree (variant.kernelVersion.getD kernels.defaultVersion)
        variant.kernelProfile.asStr with
    | none =>
      simp only [TemplateRegistry.recorded, known, found]
      exact ⟨rfl, rfl, rfl, rfl⟩
    | some kernelPath =>
      simp only [TemplateRegistry.recorded, known, found]
      exact ⟨rfl, rfl, rfl, rfl⟩

theorem pairs_recorded (registry : TemplateRegistry) (variant : Variant) (pairs : Pairs bytes fd lazy eager)
    (sha256 : List UInt8 → String) (tree : Tree) :
    Pairs bytes fd (registry.recorded variant sha256 tree lazy) (registry.recorded variant sha256 tree eager) := by
  obtain ⟨rfl, memory, -, size⟩ := pairs
  obtain ⟨loaded, held, length, closed⟩ := recorded_memory registry variant lazy sha256 tree bytes
  exact ⟨loaded, held.symm ▸ memory, .inl closed, length.symm ▸ size⟩

theorem savable_recorded (registry : TemplateRegistry) (variant : Variant) (hasBytes : HasBytes lazy)
    (sha256 : List UInt8 → String) (tree : Tree) :
    (registry.recorded variant sha256 tree lazy).Savable := by
  obtain ⟨-, held, length, -⟩ := recorded_memory registry variant lazy sha256 tree []
  exact hasBytes.imp (fun some => .inl (held.symm ▸ some)) fun zero => length.trans zero

/-- The disks are near, and the registries are the same one at this place. -/
abbrev NearRegistries (root : Path) (home : Path) (bytes : List UInt8) (fd : Nat) :
    TemplateRegistry × Disk → TemplateRegistry × Disk → Prop :=
  Attempt.Beside (fun registry => registry.root = root) (Near (home ++ ["mem"]) bytes fd)

theorem near_saveRegistry {root : Path} (apart : join root "registry.json" ≠ home ++ ["mem"]) :
    Attempt.InStep (NearRegistries root home bytes fd) Eq saveRegistry saveRegistry := by
  rintro ⟨registry, disk⟩ ⟨_, other⟩ ⟨rfl, rfl, near⟩
  have opened : Attempt.InStep (NearRegistries registry.root home bytes fd) Eq
      (Attempt.onSecond (openTruncate (join registry.root "registry.json")) : RegistryAction Unit) _ :=
    (near_openTruncate apart).onSecond
  have written : Attempt.InStep (NearRegistries registry.root home bytes fd) Eq
      (Attempt.onSecond (writeAll (join registry.root "registry.json") (registryText registry.templates)) :
        RegistryAction Unit) _ := (near_writeAll apart).onSecond
  exact (opened.bind_eq fun _ => written) (registry, disk) (registry, other) ⟨rfl, rfl, near⟩

theorem near_storeSnapshot (near : Near (home ++ ["mem"]) bytes fd disk other) (pairs : Pairs bytes fd lazy eager)
    (hasBytes : HasBytes lazy) (elsewhere : StoresElsewhere mode registry variant home) :
    Attempt.TogetherFrom (NearRegistries registry.root home bytes fd) Eq
      (storeSnapshot formats mode now variant lazy) (storeSnapshot formats mode now variant eager)
      (registry, disk) (registry, other) := by
  have size : eager.memorySize = lazy.memorySize := by rw [pairs.loaded]
  unfold storeSnapshot
  refine Attempt.TogetherFrom.of_eq (Attempt.bind_of_ends (Attempt.get_ends.mpr ⟨rfl, rfl⟩))
    (Attempt.bind_of_ends (Attempt.get_ends.mpr ⟨rfl, rfl⟩)) ?_
  dsimp only
  cases next : registry.nextVersion variant mode with
  | none => exact Attempt.inStep_fail _ _ _ ⟨rfl, rfl, near⟩
  | some version =>
    dsimp only
    have apart := elsewhere.snapshot version next
    refine (Attempt.InStep.onSecond near_createDirAll).bind_eq (fun _ => ?_) _ _ ⟨rfl, rfl, near⟩
    rintro ⟨registry', disk'⟩ ⟨_, other'⟩ ⟨rfl, root, near'⟩
    refine Attempt.TogetherFrom.of_eq
      (Attempt.bind_of_ends (Attempt.onSecond_ends.mpr
        ⟨(TemplateRegistry.withKernel_ends near'.calm).mpr ⟨rfl, rfl⟩, rfl⟩))
      (Attempt.bind_of_ends (Attempt.onSecond_ends.mpr
        ⟨(TemplateRegistry.withKernel_ends near'.symm.calm).mpr ⟨rfl, rfl⟩, rfl⟩)) ?_
    dsimp only at near' ⊢
    rw [near'.tree_eq, size]
    have cloned := pairs_recorded registry variant pairs formats.sha256 disk'.tree
    have saved := near_save formats.toFormats cloned (savable_recorded registry variant hasBytes formats.sha256
      disk'.tree) apart
    refine (saved.adapt.onSecond.bind_eq fun _ => ?_) _ _ ⟨rfl, root, near'⟩
    refine Attempt.InStep.bind_eq ?inserted fun _ => ?listed
    case inserted =>
      rintro ⟨registry'', disk''⟩ ⟨_, other''⟩ ⟨rfl, root, near''⟩
      exact ⟨.ok rfl, rfl, root, near''⟩
    case listed => exact (near_saveRegistry elsewhere.list).bind_eq fun _ => Attempt.inStep_pure rfl

/-! ## Calls on a snapshot and its clones -/

inductive Operation where
  | save (dir : Path)
  | ensureMemoryLoaded
  | clone
  | store (now : String) (variant : Variant)

/-- An operation on one of the snapshots. -/
structure Call where
  member : Nat
  operation : Operation

inductive Answer where
  | done
  | memory (bytes : List UInt8)
  | stored (info : TemplateMeta)

/-- The answer, the snapshot afterwards and the clones that are made of it. -/
structure Outcome where
  answer : Answer
  snapshot : Snapshot
  clones : List Snapshot

def Operation.on (formats : RegistryFormats) (mode : Overflow) (snapshot : Snapshot) :
    Operation → RegistryAction Outcome
  | .save dir => do
    Attempt.onSecond ((snapshot.save formats.toFormats dir).adapt .snapshot)
    return ⟨.done, snapshot, []⟩
  | .ensureMemoryLoaded => do
    let loaded ← Attempt.onSecond (snapshot.ensureMemoryLoaded.adapt .snapshot)
    return ⟨.memory loaded.memory, loaded, []⟩
  | .clone => return ⟨.done, snapshot, [snapshot.clone]⟩
  | .store now variant => do
    let info ← storeSnapshot formats mode now variant snapshot
    return ⟨.stored info, snapshot, []⟩

/-- A snapshot and its clones, with the registry and the disk. -/
structure Family where
  members : List Snapshot
  registry : TemplateRegistry
  disk : Disk

/-- A call on a member that there is not does nothing. -/
def Family.step (formats : RegistryFormats) (mode : Overflow) (family : Family) (call : Call) :
    Option (Except RegistryError Answer) × Family :=
  match family.members[call.member]? with
  | none => (none, family)
  | some snapshot =>
    match call.operation.on formats mode snapshot (family.registry, family.disk) with
    | (.ok outcome, (registry, disk)) => (some (.ok outcome.answer),
      ⟨family.members.set call.member outcome.snapshot ++ outcome.clones, registry, disk⟩)
    | (.error e, (registry, disk)) => (some (.error e), ⟨family.members, registry, disk⟩)

def Family.run (formats : RegistryFormats) (mode : Overflow) (family : Family) :
    List Call → List (Option (Except RegistryError Answer)) × Family
  | [] => ([], family)
  | call :: rest =>
    let (answer, family) := family.step formats mode call
    let (answers, family) := family.run formats mode rest
    (answer :: answers, family)

/-- Every call that succeeds on the second family gives the same on the first
one, and the same files and registry are there after all of them. -/
structure Transparent (formats : RegistryFormats) (mode : Overflow) (calls : List Call) (lazy eager : Family) :
    Prop where
  answers : ∀ (i : Nat) (answer : Answer),
    (eager.run formats mode calls).1[i]? = some (some (Except.ok answer)) →
      (lazy.run formats mode calls).1[i]? = some (some (Except.ok answer))
  registry : (lazy.run formats mode calls).2.registry = (eager.run formats mode calls).2.registry
  tree : (lazy.run formats mode calls).2.disk.tree = (eager.run formats mode calls).2.disk.tree

/-! ## When the memory may be left in its file -/

def Operation.Ready (mode : Overflow) (home : Path) (snapshot : Snapshot) (registry : TemplateRegistry)
    (disk : Disk) : Operation → Prop
  | .save dir => dir ≠ home ∧ snapshot.Savable
  | .ensureMemoryLoaded => snapshot.Readable disk
  | .clone => True
  | .store _ variant => HasBytes snapshot ∧ StoresElsewhere mode registry variant home

def Family.Ready (mode : Overflow) (home : Path) (family : Family) (call : Call) : Prop :=
  ∀ snapshot, family.members[call.member]? = some snapshot →
    call.operation.Ready mode home snapshot family.registry family.disk

/-- Each call meets the condition in the state before it. -/
def Family.AllReady (formats : RegistryFormats) (mode : Overflow) (home : Path) (family : Family) : List Call → Prop
  | [] => True
  | call :: rest => family.Ready mode home call ∧ (family.step formats mode call).2.AllReady formats mode home rest

/-- The members are the same but for their memory, the registry is the same one
and the disks are near. -/
structure Abreast (home : Path) (bytes : List UInt8) (fd : Nat) (lazy eager : Family) : Prop where
  members : List.Forall₂ (Pairs bytes fd) lazy.members eager.members
  registry : lazy.registry = eager.registry
  disk : Near (home ++ ["mem"]) bytes fd lazy.disk eager.disk

/-- Equal answers, and pairs of snapshots. -/
structure SameOutcome (bytes : List UInt8) (fd : Nat) (outcome other : Outcome) : Prop where
  answer : outcome.answer = other.answer
  snapshot : Pairs bytes fd outcome.snapshot other.snapshot
  clones : List.Forall₂ (Pairs bytes fd) outcome.clones other.clones

theorem together_operation (formats : RegistryFormats) {operation : Operation}
    (near : Near (home ++ ["mem"]) bytes fd disk other) (pairs : Pairs bytes fd lazy eager)
    (ready : operation.Ready mode home lazy registry disk) :
    Attempt.TogetherFrom (NearRegistries registry.root home bytes fd) (SameOutcome bytes fd)
      (operation.on formats mode lazy) (operation.on formats mode eager) (registry, disk) (registry, other) := by
  have beside : NearRegistries registry.root home bytes fd (registry, disk) (registry, other) := ⟨rfl, rfl, near⟩
  cases operation with
  | save dir =>
    obtain ⟨apart, savable⟩ := ready
    have saved := (near_save formats.toFormats pairs savable apart).adapt (g := RegistryError.snapshot)
    exact (saved.onSecond.bind_eq fun _ => Attempt.inStep_pure ⟨rfl, pairs, .nil⟩) _ _ beside
  | ensureMemoryLoaded =>
    obtain ⟨same, after⟩ := (near_ensureMemoryLoaded near pairs ready).adapt (g := RegistryError.snapshot)
    have loaded : Attempt.TogetherFrom (NearRegistries registry.root home bytes fd) _
        (Attempt.onSecond (lazy.ensureMemoryLoaded.adapt RegistryError.snapshot))
        (Attempt.onSecond (eager.ensureMemoryLoaded.adapt RegistryError.snapshot))
        (registry, disk) (registry, other) := ⟨same, rfl, rfl, after⟩
    refine loaded.bind fun one two fit => ?_
    obtain ⟨rfl, whole⟩ := fit
    exact Attempt.inStep_pure ⟨rfl, whole, .nil⟩
  | clone => exact Attempt.inStep_pure ⟨rfl, pairs, .cons (pairs_clone pairs) .nil⟩ _ _ beside
  | store now variant =>
    obtain ⟨hasBytes, elsewhere⟩ := ready
    refine (near_storeSnapshot near pairs hasBytes elsewhere).bind fun one two fit => ?_
    subst fit
    exact Attempt.inStep_pure ⟨rfl, pairs, .nil⟩

theorem member_of_pairs {one two : List Snapshot} (members : List.Forall₂ (Pairs bytes fd) one two) (i : Nat) :
    (one[i]? = none ∧ two[i]? = none) ∨
      ∃ lazy eager, one[i]? = some lazy ∧ two[i]? = some eager ∧ Pairs bytes fd lazy eager := by
  induction members generalizing i with
  | nil => exact .inl ⟨rfl, rfl⟩
  | cons pairs _ ih =>
    cases i with
    | zero => exact .inr ⟨_, _, rfl, rfl, pairs⟩
    | succ i => exact ih i

theorem pairs_set {one two : List Snapshot} (members : List.Forall₂ (Pairs bytes fd) one two) (i : Nat)
    (pairs : Pairs bytes fd lazy eager) : List.Forall₂ (Pairs bytes fd) (one.set i lazy) (two.set i eager) := by
  induction members generalizing i with
  | nil => exact .nil
  | cons first rest ih =>
    cases i with
    | zero => exact .cons pairs rest
    | succ i => exact .cons first (ih i)

theorem abreast_step (formats : RegistryFormats) {one two : Family} {call : Call}
    (abreast : Abreast home bytes fd one two) (ready : one.Ready mode home call) :
    (one.step formats mode call).1 = (two.step formats mode call).1 ∧
      Abreast home bytes fd (one.step formats mode call).2 (two.step formats mode call).2 := by
  obtain ⟨members, registry, disk⟩ := abreast
  unfold Family.step
  rcases member_of_pairs members call.member with ⟨here, there⟩ | ⟨lazy, eager, here, there, pairs⟩
  · rw [here, there]
    exact ⟨rfl, members, registry, disk⟩
  · obtain ⟨same, known, -, near⟩ := together_operation formats disk pairs (ready lazy here)
    rw [here, there, ← registry]
    dsimp only
    revert same known near
    rcases call.operation.on formats mode lazy (one.registry, one.disk) with ⟨result, registry', disk'⟩
    rcases call.operation.on formats mode eager (one.registry, two.disk) with ⟨result', registry'', disk''⟩
    rintro same known near
    cases same with
    | error e => exact ⟨rfl, members, known, near⟩
    | ok fit =>
      refine ⟨congrArg (fun answer => some (Except.ok answer)) fit.answer, ?_, known, near⟩
      exact List.rel_append (pairs_set members call.member fit.snapshot) fit.clones

theorem abreast_run {calls : List Call} {one two : Family} (abreast : Abreast home bytes fd one two)
    (ready : one.AllReady formats mode home calls) :
    (one.run formats mode calls).1 = (two.run formats mode calls).1 ∧
      Abreast home bytes fd (one.run formats mode calls).2 (two.run formats mode calls).2 := by
  induction calls generalizing one two with
  | nil => exact ⟨rfl, abreast⟩
  | cons call rest ih =>
    obtain ⟨now, later⟩ := ready
    obtain ⟨answer, after⟩ := abreast_step formats abreast now
    obtain ⟨answers, last⟩ := ih after later
    exact ⟨congrArg₂ List.cons answer answers, last⟩

/-- A loaded snapshot and its clones do what they would do with the memory
loaded, as long as each call finds a source of the bytes. -/
theorem lazy_memory_is_transparent {snapshot : Snapshot} {opened : Disk} {calls : List Call} (calm : disk.faults = [])
    (loads : (Snapshot.load formats.toFormats home).Ends disk (.ok snapshot) opened)
    (mem : disk.tree.IsFile (home ++ ["mem"]) bytes)
    (ready : (Family.mk [snapshot] registry opened).AllReady formats mode home calls) :
    Transparent formats mode calls ⟨[snapshot], registry, opened⟩
      ⟨[{ snapshot with memory := bytes }], registry, opened⟩ := by
  obtain ⟨entry, fresh⟩ := fresh_of_load calm loads
  cases Option.some.inj (mem.symm.trans fresh.mem)
  have pairs : Pairs bytes disk.opened.length snapshot { snapshot with memory := bytes } :=
    ⟨rfl, .inl fresh.memory, .inr fresh.handle, fresh.size⟩
  have file : opened.tree.IsFile (home ++ ["mem"]) bytes := fresh.tree ▸ mem
  have near : Near (home ++ ["mem"]) bytes disk.opened.length opened opened :=
    .refl fresh.faults file ⟨0, fresh.there⟩
  have abreast : Abreast home bytes disk.opened.length ⟨[snapshot], registry, opened⟩
      ⟨[{ snapshot with memory := bytes }], registry, opened⟩ := ⟨.cons pairs .nil, rfl, near⟩
  obtain ⟨answers, after⟩ := abreast_run abreast ready
  exact ⟨fun i answer there => answers ▸ there, after.registry, after.disk.tree_eq.symm⟩

/-! ## One byte of memory -/

def oneByteRegistryFormats : RegistryFormats := { oneByteFormats with
  parseTemplates := fun _ => none
  parseKernels := fun _ => none }

/-- The disk behind `load`. -/
def openedOneByte : Disk := ⟨oneByteDisk.tree, [⟨.named ["s", "mem"], 0⟩, ⟨.named ["s", "mem"], 1⟩], [], 4096⟩

def oneByteFamily (memory : List UInt8) : Family :=
  ⟨[{ lazyOneByte with memory := memory }], ⟨["r"], .empty, none⟩, openedOneByte⟩

theorem load_oneByte : (Snapshot.load oneByteRegistryFormats.toFormats ["s"]).Ends oneByteDisk (.ok lazyOneByte)
    openedOneByte :=
  (Snapshot.load_ok rfl).mpr ⟨_, _, lazyOneByte_loads, rfl⟩

theorem one_byte_is_transparent :
    Transparent oneByteRegistryFormats .wrapping [⟨0, .ensureMemoryLoaded⟩, ⟨0, .clone⟩] (oneByteFamily [])
      (oneByteFamily [1]) := by
  refine lazy_memory_is_transparent rfl load_oneByte oneByte_mem ⟨?_, fun _ _ => trivial, trivial⟩
  rintro snapshot ⟨⟩
  exact .inr (.inl ⟨0, rfl, rfl⟩)

/-- A clone of the loaded snapshot has no memory to load. -/
theorem clone_has_no_memory : ¬ ∀ calls, Transparent oneByteRegistryFormats .wrapping calls (oneByteFamily [])
    (oneByteFamily [1]) := by
  intro law
  have loaded := (law [⟨0, .clone⟩, ⟨1, .ensureMemoryLoaded⟩]).answers 1 (.memory [1]) rfl
  cases loaded

end TinyMachine.Templates
