import TinyMachine.TemplateStoring
import TinyMachine.Lib.Digest

/-! When a stored template loads exactly as long as the kernel that the registry
resolved for it is what it was. -/
namespace TinyMachine.Templates
open Lib Disk Kernels Snapshots

variable {formats : RegistryFormats} {mode : Overflow} {now : String} {registry registry' : TemplateRegistry}
  {variant : Variant} {version : UInt32} {snapshot : Snapshot} {disk disk' : Disk} {info : TemplateMeta}

/-! ## Loading the latest version -/

theorem loadSnapshot_ok (latest : registry.latestVersion variant = some version) :
    (loadSnapshot formats variant).Ends (registry, disk) (.ok snapshot) (registry', disk') ↔
      (Snapshot.load formats.toFormats (registry.snapshotDir variant version)).Ends disk (.ok snapshot) disk' ∧
        registry' = registry := by
  constructor
  · intro ends
    obtain ⟨_, _, got, run⟩ := Attempt.bind_ok.mp ends
    obtain ⟨same, rfl⟩ := Attempt.get_ends.mp got
    cases same
    dsimp only at run
    rw [latest] at run
    obtain ⟨loaded, rfl⟩ := Attempt.onSecond_ends.mp run
    exact ⟨Attempt.adapt_ok.mp loaded, rfl⟩
  · rintro ⟨loaded, rfl⟩
    refine Attempt.bind_next (Attempt.get_ends.mpr ⟨rfl, rfl⟩) ?_
    dsimp only
    rw [latest]
    exact Attempt.onSecond_ends.mpr ⟨Attempt.adapt_ok.mpr loaded, rfl⟩

/-- The template of the variant loads when nothing fails. -/
def Loads (formats : RegistryFormats) (registry : TemplateRegistry) (variant : Variant) (disk : Disk) : Prop :=
  ∃ snapshot after, (loadSnapshot formats variant).Ends (registry, { disk with faults := [] }) (.ok snapshot) after

theorem loads_iff (latest : registry.latestVersion variant = some version) :
    Loads formats registry variant disk ↔
      ∃ state, Holds formats.toFormats disk (registry.snapshotDir variant version) state := by
  constructor
  · rintro ⟨snapshot, ⟨_, disk'⟩, ends⟩
    exact ⟨_, snapshot, disk', ((loadSnapshot_ok latest).mp ends).1, rfl⟩
  · rintro ⟨_, snapshot, disk', ends, -⟩
    exact ⟨snapshot, (registry, disk'), (loadSnapshot_ok latest).mpr ⟨ends, rfl⟩⟩

/-! ## Files beside those of the snapshot -/

theorem registryFile (registry : TemplateRegistry) : join registry.root "registry.json" = registry.root ++ ["registry.json"] :=
  join_plain (by decide)

theorem listed_other {other : Path} (apart : other ≠ registry.root ++ ["registry.json"]) :
    (listed registry disk).tree.entries other = disk.tree.entries other := by
  rw [← registryFile] at apart
  exact Tree.put_of_ne apart _

/-- The snapshot as the store records it. -/
def kept (formats : RegistryFormats) (registry : TemplateRegistry) (variant : Variant) (version : UInt32) (disk : Disk)
    (snapshot : Snapshot) : Snapshot :=
  registry.recorded variant formats.sha256 (prepared registry variant version disk).tree snapshot

namespace StoredAs
variable {between : Disk} (stored : StoredAs formats registry variant snapshot disk info registry' between disk')
include stored

theorem entries_other {path : Path} {last : String} (other : last ≠ "registry.json") :
    disk'.tree.entries (path ++ [last]) = between.tree.entries (path ++ [last]) := by
  have same : (registry.inserted info).root ++ ["registry.json"] = registry.root ++ ["registry.json"] := rfl
  rw [stored.listed]
  exact listed_other fun equal => other (name_inj equal)

variable (calm : disk.faults = [])
include calm

theorem whole : ∃ bytes hashed, Snapshot.Saved formats.toFormats (kept formats registry variant info.version disk snapshot)
    (prepared registry variant info.version disk) (registry.snapshotDir variant info.version) bytes hashed between :=
  (Snapshot.save_ok (by exact calm)).mp stored.saved

theorem entries_foreign {path : Path} {last : String} (foreign : last ∉ "registry.json" :: Snapshot.names) :
    disk'.tree.entries (path ++ [last]) = (prepared registry variant info.version disk).tree.entries (path ++ [last]) := by
  rw [List.mem_cons, not_or] at foreign
  obtain ⟨bytes, hashed, saved⟩ := stored.whole calm
  rw [stored.entries_other foreign.1, saved.after]
  exact (Snapshot.savedTree_foreign foreign.2).trans (by rw [prepared, Tree.makeDirs_makeDirs])

omit calm in
theorem entries_files : ∀ name ∈ Snapshot.names, disk'.tree.entries (registry.snapshotDir variant info.version ++ [name]) =
    between.tree.entries (registry.snapshotDir variant info.version ++ [name]) := by
  intro name member
  refine stored.entries_other ?_
  revert name
  decide

theorem metadata : ∃ hashed, disk'.tree.IsFile (registry.snapshotDir variant info.version ++ ["meta.json"])
    (written ((kept formats registry variant info.version disk snapshot).snapMeta (some (formats.blake3 hashed))).toJson) := by
  obtain ⟨bytes, hashed, saved⟩ := stored.whole calm
  refine ⟨hashed, (stored.entries_files _ (by decide)).trans ?_⟩
  rw [saved.after]
  exact Snapshot.savedTree_file (List.mem_cons_of_mem _ (List.mem_cons_of_mem _ List.mem_cons_self)) saved.writable

/-- What was stored can be loaded if it is within the limits of `load`. -/
theorem holds_iff (laws : RoundTrips formats.toFormats (kept formats registry variant info.version disk snapshot)) :
    (∃ state, Holds formats.toFormats disk' (registry.snapshotDir variant info.version) state) ↔
      (kept formats registry variant info.version disk snapshot).Loadable formats.toFormats
        (prepared registry variant info.version disk) (registry.snapshotDir variant info.version) := by
  obtain ⟨bytes, hashed, saved⟩ := stored.whole calm
  rw [← Snapshot.exists_holds_saved_iff laws saved]
  have length : disk'.directoryLen = between.directoryLen := by rw [stored.listed]; rfl
  have kernel : ∀ {version hash},
      KernelFits formats.toFormats disk'.tree (registry.snapshotDir variant info.version) version hash ↔
        KernelFits formats.toFormats between.tree (registry.snapshotDir variant info.version) version hash := by
    refine Snapshot.kernelFits_congr fun path last member => stored.entries_other ?_
    revert last
    decide
  constructor
  · rintro ⟨state, holds⟩
    exact ⟨state, Snapshot.holds_of_files _ _ length.symm (fun name member => (stored.entries_files name member).symm)
      kernel.mp holds⟩
  · rintro ⟨state, holds⟩
    exact ⟨state, Snapshot.holds_of_files _ _ length stored.entries_files kernel.mpr holds⟩

end StoredAs

/-! ## The file that is compared -/

/-- The file is the one that is hashed when the snapshot is loaded, and there is
a hash to compare with. -/
structure Compared (tree : Tree) (dir : Path) (snapshot : Snapshot) (path : Path) : Prop where
  hashed : snapshot.kernelHash ≠ ""
  found : ∃ kernelDir, Snapshot.kernelRegistryPath dir = some kernelDir ∧ tree.entries kernelDir ≠ none ∧
    kernelFile kernelDir snapshot.kernelVersion "base" = path

theorem whole_asStr (profile : KernelProfile) : '/' ∉ profile.asStr.toList := by
  cases profile <;> decide

theorem kernelOf_name {tree : Tree} {path : Path} (resolved : registry.kernelOf variant tree = some path) :
    ∃ home, path = home ++ ["vmlinux-" ++ variant.kernelProfile.asStr] := by
  obtain ⟨kernels, -, found⟩ := Option.bind_eq_some_iff.mp resolved
  obtain ⟨known, -, there⟩ := Option.bind_eq_some_iff.mp found
  split at there
  · cases there
    exact ⟨_, kernelFile_plain (whole_asStr variant.kernelProfile) _ _⟩
  · cases there

/-- No other file than that of the base profile is compared. -/
theorem not_compared_of_profile {tree home : Tree} {dir path : Path} (other : variant.kernelProfile ≠ .base)
    (resolved : registry.kernelOf variant home = some path) : ¬ Compared tree dir snapshot path := by
  rintro ⟨-, kernelDir, -, -, same⟩
  obtain ⟨parent, rfl⟩ := kernelOf_name resolved
  rw [kernelFile_plain (by decide)] at same
  have named := name_inj same
  revert named other
  cases variant.kernelProfile <;> decide

theorem foreign_kernel (profile : KernelProfile) :
    "vmlinux-" ++ profile.asStr ∉ "kernel" :: "registry.json" :: Snapshot.names := by
  cases profile <;> decide

theorem kept_versioned : (kept formats registry variant version disk snapshot).kernelVersion ≠ "" := by
  have named : ∀ version : String, (if version = "" then kernelDefaultVersion else version) ≠ "" := by
    intro version
    split
    · decide
    · assumption
  exact named _

theorem kernelRegistryPath_eq_some {dir kernelDir : Path} (found : Snapshot.kernelRegistryPath dir = some kernelDir) :
    ∃ home, kernelDir = home ++ ["kernel"] := by
  unfold Snapshot.kernelRegistryPath at found
  split at found
  · exact ⟨_, (Option.some.inj found).symm⟩
  · cases found

namespace StoredAs
variable {between : Disk} {path : Path} {bytes : List UInt8}
  (stored : StoredAs formats registry variant snapshot disk info registry' between disk') (calm : disk.faults = [])
  (laws : RoundTrips formats.toFormats (kept formats registry variant info.version disk snapshot))
  (resolved : registry.kernelOf variant (prepared registry variant info.version disk).tree = some path)
include stored calm laws resolved

/-- A change to the file that is compared is found out. -/
theorem detects {changed : Tree} (injective : Function.Injective formats.sha256)
    (compared : Compared (prepared registry variant info.version disk).tree (registry.snapshotDir variant info.version)
      (kept formats registry variant info.version disk snapshot) path)
    (loads : ∃ state, Holds formats.toFormats disk' (registry.snapshotDir variant info.version) state)
    (file : disk'.tree.IsFile path bytes)
    (others : ∀ other, other ≠ path → changed.entries other = disk'.tree.entries other)
    (different : ¬ changed.IsFile path bytes) :
    ¬ ∃ state, Holds formats.toFormats { disk' with tree := changed } (registry.snapshotDir variant info.version) state := by
  rintro ⟨state, holds⟩
  obtain ⟨old, before⟩ := loads
  obtain ⟨home, rfl⟩ := kernelOf_name resolved
  have foreign := foreign_kernel variant.kernelProfile
  obtain ⟨hashed, metadata⟩ := stored.metadata calm
  have apart : registry.snapshotDir variant info.version ++ ["meta.json"] ≠
      home ++ ["vmlinux-" ++ variant.kernelProfile.asStr] := by
    intro same
    rw [← name_inj same] at foreign
    exact foreign (by decide)
  have metadata' := (others _ apart).trans metadata
  obtain ⟨-, -, fits⟩ := Snapshot.kernel_of_holds laws before metadata
  obtain ⟨-, -, fits'⟩ := Snapshot.kernel_of_holds laws holds metadata'
  obtain ⟨digested, kernelDir, found, present, base⟩ := compared
  obtain ⟨parent, rfl⟩ := kernelRegistryPath_eq_some found
  have there : disk'.tree.entries (parent ++ ["kernel"]) ≠ none := by
    rwa [stored.entries_foreign calm (by decide)]
  have there' : changed.entries (parent ++ ["kernel"]) ≠ none := by
    rw [others _ fun same => foreign (by rw [← name_inj same]; decide)]
    exact there
  obtain ⟨held, file₁, digest₁⟩ := fits kept_versioned digested _ found there
  obtain ⟨held', file₂, digest₂⟩ := fits' kept_versioned digested _ found there'
  rw [base] at file₁ file₂
  have same : held = bytes := Entry.file.inj (Option.some.inj (file₁.symm.trans file))
  have same' : held' = held := injective (digest₂.trans digest₁.symm)
  exact different (same ▸ same' ▸ file₂)

/-- A change to a file that is not compared is not. -/
theorem passes_over
    (ignored : ¬ Compared (prepared registry variant info.version disk).tree (registry.snapshotDir variant info.version)
      (kept formats registry variant info.version disk snapshot) path)
    (loads : ∃ state, Holds formats.toFormats disk' (registry.snapshotDir variant info.version) state) (content : List UInt8) :
    ∃ state, Holds formats.toFormats { disk' with tree := disk'.tree.put path content }
      (registry.snapshotDir variant info.version) state := by
  obtain ⟨state, holds⟩ := loads
  obtain ⟨home, rfl⟩ := kernelOf_name resolved
  have foreign := foreign_kernel variant.kernelProfile
  obtain ⟨hashed, metadata⟩ := stored.metadata calm
  obtain ⟨version, hash, -⟩ := Snapshot.kernel_of_holds laws holds metadata
  refine ⟨state, Snapshot.holds_of_files disk' _ rfl (fun name member => Tree.put_of_ne ?_ _) ?_ holds⟩
  · intro same
    exact foreign (List.mem_cons_of_mem _ (List.mem_cons_of_mem _ (name_inj same ▸ member)))
  · rw [version, hash]
    intro fits versioned digested kernelDir found present
    obtain ⟨parent, rfl⟩ := kernelRegistryPath_eq_some found
    have apart : parent ++ ["kernel"] ≠ home ++ ["vmlinux-" ++ variant.kernelProfile.asStr] := fun same =>
      foreign (name_inj same ▸ List.mem_cons_self)
    have there : disk'.tree.entries (parent ++ ["kernel"]) ≠ none := by
      rwa [Tree.put_of_ne apart] at present
    obtain ⟨bytes, file, digest⟩ := fits versioned digested _ found there
    have elsewhere : kernelFile (parent ++ ["kernel"]) (kept formats registry variant info.version disk snapshot).kernelVersion
        "base" ≠ home ++ ["vmlinux-" ++ variant.kernelProfile.asStr] := by
      refine fun same => ignored ⟨digested, _, found, ?_, same⟩
      rwa [stored.entries_foreign calm (by decide)] at there
    exact ⟨bytes, (Tree.put_of_ne elsewhere _).trans file, digest⟩

end StoredAs
/-! ## Guarded templates -/

/-- The template loads as long as the kernel is what it was, and no longer. -/
structure Guards (formats : RegistryFormats) (registry : TemplateRegistry) (variant : Variant) (version : UInt32)
    (kernel : Option Path) (disk : Disk) : Prop where
  latest : registry.latestVersion variant = some version
  loads : Loads formats registry variant disk
  detects : ∀ path bytes, kernel = some path → disk.tree.IsFile path bytes → ∀ changed : Tree,
    (∀ other, other ≠ path → changed.entries other = disk.tree.entries other) → ¬ changed.IsFile path bytes →
      ¬ Loads formats registry variant { disk with tree := changed }

/-- There is a number for the version, the snapshot is within the limits of
`load`, and the kernel of the variant is the file that is compared. -/
structure Guarded (formats : RegistryFormats) (registry : TemplateRegistry) (variant : Variant) (version : UInt32)
    (snapshot : Snapshot) (disk : Disk) : Prop where
  counted : ((registry.latestVersion variant).getD 0).toNat + 1 < 2 ^ 32
  loadable : (kept formats registry variant version disk snapshot).Loadable formats.toFormats
    (prepared registry variant version disk) (registry.snapshotDir variant version)
  compared : ∀ path bytes, registry.kernelOf variant (prepared registry variant version disk).tree = some path →
    (prepared registry variant version disk).tree.IsFile path bytes →
      Compared (prepared registry variant version disk).tree (registry.snapshotDir variant version)
        (kept formats registry variant version disk snapshot) path

namespace StoredAs
variable {between : Disk} {path : Path} {bytes : List UInt8}
  (stored : StoredAs formats registry variant snapshot disk info registry' between disk') (calm : disk.faults = [])
include stored

omit calm in
theorem loads_iff (latest : registry'.latestVersion variant = some info.version) {disk : Disk} :
    Loads formats registry' variant disk ↔
      ∃ state, Holds formats.toFormats disk (registry.snapshotDir variant info.version) state := by
  rw [Templates.loads_iff latest, stored.inserted]
  rfl

include calm

theorem isFile_kernel (resolved : registry.kernelOf variant (prepared registry variant info.version disk).tree = some path) :
    disk'.tree.IsFile path bytes ↔ (prepared registry variant info.version disk).tree.IsFile path bytes := by
  obtain ⟨home, rfl⟩ := kernelOf_name resolved
  have foreign := foreign_kernel variant.kernelProfile
  unfold Tree.IsFile
  rw [stored.entries_foreign calm fun member => foreign (List.mem_cons_of_mem _ member)]

theorem compared_of_guards (laws : RoundTrips formats.toFormats (kept formats registry variant info.version disk snapshot))
    (resolved : registry.kernelOf variant (prepared registry variant info.version disk).tree = some path)
    (guards : Guards formats registry' variant info.version (some path) disk')
    (file : (prepared registry variant info.version disk).tree.IsFile path bytes) :
    Compared (prepared registry variant info.version disk).tree (registry.snapshotDir variant info.version)
      (kept formats registry variant info.version disk snapshot) path := by
  by_contra ignored
  have there := (stored.isFile_kernel calm resolved).mpr file
  obtain ⟨home, named⟩ := kernelOf_name resolved
  have changed : (disk'.tree.put path (bytes ++ [0])).IsFile path (bytes ++ [0]) := by
    subst named
    exact Tree.put_self (Tree.writable_of_file there) _
  refine guards.detects path bytes rfl there (disk'.tree.put path (bytes ++ [0]))
    (fun other apart => Tree.put_of_ne apart (bytes ++ [0])) (fun same => ?_) ?_
  · have equal := Entry.file.inj (Option.some.inj (changed.symm.trans same))
    simp at equal
  · have loads := (stored.loads_iff guards.latest).mp guards.loads
    exact (stored.loads_iff guards.latest).mpr (stored.passes_over calm laws resolved ignored loads _)

end StoredAs

/-- A stored template is guarded by the kernel of its variant exactly if that is
the file which `load` compares. -/
theorem guards_iff (calm : disk.faults = []) (injective : Function.Injective formats.sha256)
    (done : (storeSnapshot formats mode now variant snapshot).Ends (registry, disk) (.ok info) (registry', disk'))
    (laws : RoundTrips formats.toFormats (kept formats registry variant info.version disk snapshot)) :
    Guards formats registry' variant info.version
        (registry.kernelOf variant (prepared registry variant info.version disk).tree) disk' ↔
      Guarded formats registry variant info.version snapshot disk := by
  obtain ⟨version, between, next, rfl, stored⟩ := (storeSnapshot_ok calm).mp done
  have counted : (registry.inserted (infoOf now variant snapshot version)).latestVersion variant = some version ↔ _ :=
    TemplateRegistry.latestVersion_inserted rfl rfl next
  rw [← stored.inserted] at counted
  constructor
  · intro guards
    refine ⟨counted.mp guards.latest, (stored.holds_iff calm laws).mp ((stored.loads_iff guards.latest).mp guards.loads), ?_⟩
    intro path bytes resolved file
    exact stored.compared_of_guards calm laws resolved (resolved ▸ guards) file
  · intro guarded
    have latest := counted.mpr guarded.counted
    have loads := (stored.holds_iff calm laws).mpr guarded.loadable
    refine ⟨latest, (stored.loads_iff latest).mpr loads, ?_⟩
    intro path bytes resolved file changed others different again
    have compared := guarded.compared path bytes resolved ((stored.isFile_kernel calm resolved).mp file)
    exact stored.detects calm laws resolved injective compared loads file others different
      ((stored.loads_iff latest).mp again)

/-! ## Two kernels of one version -/

def kernelDigest : String := "4bf5122f344554c53bde2ebb8cd2b7e3d1600ad631c385a5d7cce23c7785459a"

/-- No two digests are the same, and that of the one byte is the real one. -/
def sampleSha256 (bytes : List UInt8) : String :=
  if bytes = [1] then kernelDigest else String.ofList ('x' :: bytes.map fun byte => Char.ofNat byte.toNat)

theorem sampleSha256_injective : Function.Injective sampleSha256 := by
  have same : sampleSha256 = digestWith [1] kernelDigest := rfl
  rw [same]
  apply digestWith_injective
  decide

def onKernel : Snapshot := { Snapshot.oneByte with kernelVersion := "1", kernelHash := kernelDigest }

def sampleFormats : RegistryFormats where
  blake3 := fun _ => Snapshot.oneByteDigest
  sha256 := sampleSha256
  parseCpu := Snapshot.table (text Snapshot.zeroCpu.toJson) Snapshot.zeroCpu
  parseMeta := Snapshot.table (text (onKernel.snapMeta (some Snapshot.oneByteDigest)).toJson)
    (onKernel.snapMeta (some Snapshot.oneByteDigest))
  parseVirtioNet := fun _ => none
  parseTemplates := fun _ => none
  parseKernels := fun _ => none

def sampleKernels : KernelRegistry where
  defaultVersion := "1"
  versions := fun version => if version = "1" then some ⟨["base", "gpu-vk"], kernelDigest⟩ else none
  kernelDir := ["t", "kernel"]

def sampleRegistry : TemplateRegistry := ⟨["t"], .empty, some sampleKernels⟩

def kernelTree : Tree :=
  ((Tree.bare.makeDirs ["t", "kernel", "v1"]).put ["t", "kernel", "v1", "vmlinux-base"] [1]).put
    ["t", "kernel", "v1", "vmlinux-gpu-vk"] [1]

def kernelDisk : Disk := ⟨kernelTree, [], [], 4096⟩

def sampleVariant (profile : KernelProfile) : Variant := ⟨"py", "a", profile, none⟩

/-- The disk with the directory for the first snapshot. -/
def sampleTree : Tree := kernelTree.makeDirs ["t", "py", "v1", "a"]

theorem sample_kept {profile : KernelProfile} {path : Path}
    (resolved : sampleRegistry.kernelOf (sampleVariant profile) sampleTree = some path) :
    sampleRegistry.recorded (sampleVariant profile) sampleSha256 sampleTree Snapshot.oneByte = onKernel := by
  have found : sampleKernels.resolved sampleTree "1" profile.asStr = some path := resolved
  unfold TemplateRegistry.recorded
  rw [show sampleRegistry.kernelRegistry = some sampleKernels from rfl]
  dsimp only
  rw [show (sampleVariant profile).kernelVersion.getD sampleKernels.defaultVersion = "1" from rfl,
    show (sampleVariant profile).kernelProfile = profile from rfl, found]
  rfl

theorem sample_dir {profile : KernelProfile} :
    sampleRegistry.snapshotDir (sampleVariant profile) 1 = ["t", "py", "v1", "a"] := by
  have lang : Plain "py" := by decide
  have name : Plain "a" := by decide
  have one : "v" ++ decimal 1 = "v1" := by decide +kernel
  rw [TemplateRegistry.snapshotDir_plain lang name, one]
  rfl

theorem sample_prepared {profile : KernelProfile} :
    prepared sampleRegistry (sampleVariant profile) 1 kernelDisk = ⟨sampleTree, [], [], 4096⟩ := by
  rw [prepared, sample_dir]
  rfl

theorem sample_stored {profile : KernelProfile} {path : Path}
    (resolved : sampleRegistry.kernelOf (sampleVariant profile) sampleTree = some path) : ∃ between registry' disk',
    StoredAs sampleFormats sampleRegistry (sampleVariant profile) Snapshot.oneByte kernelDisk
      (infoOf "" (sampleVariant profile) Snapshot.oneByte 1) registry' between disk' := by
  have free : ∀ name ∈ Snapshot.names, sampleTree.entries ["t", "py", "v1", "a", name] ≠ some .directory := by
    decide +kernel
  have saved : ∃ between, Snapshot.Saved sampleFormats.toFormats onKernel ⟨sampleTree, [], [], 4096⟩
      ["t", "py", "v1", "a"] [1] [1] between := by
    refine ⟨_, by decide +kernel, rfl, rfl, fun file member => ?_, rfl⟩
    exact Tree.writable_makeDirs.mpr (free _ (Snapshot.files_names.subset (List.mem_map_of_mem member)))
  obtain ⟨between, saved⟩ := saved
  have home : between.tree.Writable ["t", "registry.json"] := by
    rw [saved.after]
    exact Tree.writable_putAll.mpr (by decide +kernel)
  have recorded := sample_kept resolved
  refine ⟨between, _, _, ?_, ?_, rfl, ?_, rfl⟩
  · rw [show (infoOf "" (sampleVariant profile) Snapshot.oneByte 1).version = 1 from rfl, sample_dir]
    decide +kernel
  · rw [show (infoOf "" (sampleVariant profile) Snapshot.oneByte 1).version = 1 from rfl, sample_dir, sample_prepared]
    exact (Snapshot.save_ok rfl).mpr ⟨[1], [1], recorded.symm ▸ saved⟩
  · rw [registryFile]
    exact home

theorem onKernel_roundTrips : RoundTrips sampleFormats.toFormats onKernel where
  cpu := Snapshot.table_self (text Snapshot.zeroCpu.toJson) Snapshot.zeroCpu
  metadata := fun _ => Snapshot.table_self (text (onKernel.snapMeta (some Snapshot.oneByteDigest)).toJson) _
  virtioNet := by
    intro state none
    cases none

/-- A changed kernel of another profile than the base one is not found out. -/
theorem gpu_kernel_is_not_compared : ∃ info registry' disk',
    (storeSnapshot sampleFormats .checked "" (sampleVariant .gpuVk) Snapshot.oneByte).Ends
      (sampleRegistry, kernelDisk) (.ok info) (registry', disk') ∧
    RoundTrips sampleFormats.toFormats
      (kept sampleFormats sampleRegistry (sampleVariant .gpuVk) info.version kernelDisk Snapshot.oneByte) ∧
    ¬ Guards sampleFormats registry' (sampleVariant .gpuVk) info.version
      (sampleRegistry.kernelOf (sampleVariant .gpuVk)
        (prepared sampleRegistry (sampleVariant .gpuVk) info.version kernelDisk).tree) disk' := by
  have resolved : sampleRegistry.kernelOf (sampleVariant .gpuVk) sampleTree =
      some ["t", "kernel", "v1", "vmlinux-gpu-vk"] := by decide +kernel
  have file : sampleTree.entries ["t", "kernel", "v1", "vmlinux-gpu-vk"] = some (.file [1]) := by decide +kernel
  obtain ⟨between, registry', disk', stored⟩ := sample_stored resolved
  have made : prepared sampleRegistry (sampleVariant .gpuVk) 1 kernelDisk = ⟨sampleTree, [], [], 4096⟩ := sample_prepared
  have laws : RoundTrips sampleFormats.toFormats
      (kept sampleFormats sampleRegistry (sampleVariant .gpuVk) 1 kernelDisk Snapshot.oneByte) := by
    rw [kept, made]
    exact sample_kept resolved ▸ onKernel_roundTrips
  refine ⟨_, registry', disk', (storeSnapshot_ok rfl).mpr ⟨1, between, by decide +kernel, rfl, stored⟩, laws, ?_⟩
  intro guards
  have there : (prepared sampleRegistry (sampleVariant .gpuVk) 1 kernelDisk).tree = sampleTree := by rw [made]
  have resolved' := resolved
  rw [← there] at resolved' file
  have compared := stored.compared_of_guards rfl laws resolved' (resolved' ▸ guards) file
  exact not_compared_of_profile (by decide) resolved compared

theorem base_kernel_is_compared : ∃ info registry' disk',
    (storeSnapshot sampleFormats .checked "" (sampleVariant .base) Snapshot.oneByte).Ends
      (sampleRegistry, kernelDisk) (.ok info) (registry', disk') ∧
    Guards sampleFormats registry' (sampleVariant .base) info.version
      (sampleRegistry.kernelOf (sampleVariant .base)
        (prepared sampleRegistry (sampleVariant .base) info.version kernelDisk).tree) disk' := by
  have resolved : sampleRegistry.kernelOf (sampleVariant .base) sampleTree =
      some ["t", "kernel", "v1", "vmlinux-base"] := by decide +kernel
  obtain ⟨between, registry', disk', stored⟩ := sample_stored resolved
  have made : prepared sampleRegistry (sampleVariant .base) 1 kernelDisk = ⟨sampleTree, [], [], 4096⟩ := sample_prepared
  have same : kept sampleFormats sampleRegistry (sampleVariant .base) 1 kernelDisk Snapshot.oneByte = onKernel := by
    rw [kept, made]
    exact sample_kept resolved
  have done : (storeSnapshot sampleFormats .checked "" (sampleVariant .base) Snapshot.oneByte).Ends
      (sampleRegistry, kernelDisk) (.ok (infoOf "" (sampleVariant .base) Snapshot.oneByte 1)) (registry', disk') :=
    (storeSnapshot_ok rfl).mpr ⟨1, between, by decide +kernel, rfl, stored⟩
  have laws : RoundTrips sampleFormats.toFormats
      (kept sampleFormats sampleRegistry (sampleVariant .base) 1 kernelDisk Snapshot.oneByte) :=
    same.symm ▸ onKernel_roundTrips
  have absent : ∀ name ∈ Snapshot.names, sampleTree.entries ["t", "py", "v1", "a", name] = none := by decide +kernel
  have chips : onKernel.chipFiles.map Prod.fst ⊆ Snapshot.names := by decide
  have guarded : Guarded sampleFormats sampleRegistry (sampleVariant .base) 1 Snapshot.oneByte kernelDisk := by
    refine ⟨by decide +kernel, ?_, ?_⟩
    · rw [same, made, sample_dir]
      refine ⟨by decide, fun _ _ => rfl, ?_, ⟨by decide, by decide, by decide⟩, ?_, ?_, ?_⟩
      · rintro - - kernelDir ⟨⟩ -
        have file : (sampleTree.makeDirs ["t", "py", "v1", "a"]).entries (kernelFile ["t", "kernel"] "1" "base") =
          some (.file [1]) := by decide +kernel
        exact ⟨[1], file, rfl⟩
      · exact fun _ => ⟨none, absent _ (by decide)⟩
      · exact fun _ => ⟨none, .inl ⟨absent _ (by decide), rfl⟩⟩
      · exact fun file member _ => ⟨none, absent file.1 (chips (List.mem_map_of_mem member))⟩
    · rintro path bytes found -
      rw [made] at found
      cases Option.some.inj (resolved.symm.trans found)
      rw [same, made, sample_dir]
      exact ⟨by decide, ["t", "kernel"], rfl, by decide +kernel, by decide +kernel⟩
  exact ⟨_, registry', disk', done, (guards_iff rfl sampleSha256_injective done laws).mpr guarded⟩

end TinyMachine.Templates
