import TinyMachine.TemplateIntegrity
import TinyMachine.Lib.Runs

/-! The template store as a map from variants to the histories of their
snapshots, over runs of stores and of removals by the command line. -/
namespace TinyMachine.Templates
open Lib Disk Kernels Snapshots

/-! ## Histories -/

/-- A snapshot in the history of a variant. -/
structure Stored where
  lang : String
  name : String
  version : UInt32
  state : SavedState

namespace Stored

def Of (stored : Stored) (variant : Variant) : Prop := stored.lang = variant.lang ∧ stored.name = variant.name

instance (stored : Stored) (variant : Variant) : Decidable (stored.Of variant) :=
  inferInstanceAs (Decidable (_ ∧ _))

def key (stored : Stored) : String := stored.lang ++ ":" ++ stored.name ++ ":v" ++ decimal stored.version

def dir (root : Path) (stored : Stored) : Path := root ++ [stored.lang, "v" ++ decimal stored.version, stored.name]

end Stored

/-- A registry, the disk under it, and what was stored so far. -/
structure History where
  registry : TemplateRegistry
  disk : Disk
  stores : List Stored

/-- What was stored of a variant, the oldest first. -/
def History.of (history : History) (variant : Variant) : List Stored := history.stores.filter (Stored.Of · variant)

inductive HistoryStep where
  | store (now : String) (variant : Variant) (snapshot : Snapshot)
  | remove (lang name : String)

/-- What the run of a store adds to the history. -/
def History.adding (formats : RegistryFormats) (history : History) (variant : Variant) (snapshot : Snapshot) :
    Except RegistryError TemplateMeta → List Stored
  | .ok info => [⟨variant.lang, variant.name, info.version,
      (kept formats history.registry variant info.version history.disk snapshot).stored history.disk⟩]
  | .error _ => []

/-- The registry is opened in a root that has no list of templates. -/
def templateRuns (formats : RegistryFormats) (mode : Overflow) (root : Path) : System History HistoryStep where
  start history := history.stores = [] ∧ ∃ disk, disk.faults = [] ∧
    disk.tree.entries (root ++ ["registry.json"]) = none ∧
    (openRegistry formats root).Ends disk (.ok history.registry) history.disk
  step history label next := match label with
    | .store now variant snapshot => ∃ result,
      (storeSnapshot formats mode now variant snapshot).Ends (history.registry, history.disk) result
        (next.registry, next.disk) ∧
      next.stores = history.stores ++ history.adding formats variant snapshot result
    | .remove lang name => ∃ result,
      (cmdTemplateRemove formats root lang name).Ends history.disk result next.disk ∧
      next.registry = history.registry ∧ next.stores = history.stores

/-- The registry answers for the variant as its history does. -/
def History.Answers (formats : RegistryFormats) (history : History) (variant : Variant) : Prop :=
  match (history.of variant).getLast? with
  | none => history.registry.hasSnapshot variant = false ∧ ¬ Loads formats history.registry variant history.disk
  | some last => history.registry.hasSnapshot variant = true ∧
    ∃ snapshot after, (loadSnapshot formats variant).Ends (history.registry, { history.disk with faults := [] })
      (.ok snapshot) (history.registry, after) ∧ snapshot.stored after = last.state

/-- The store is a map from variants to growing histories. -/
structure History.Refines (formats : RegistryFormats) (history : History) : Prop where
  increasing : ∀ variant, (history.of variant).Pairwise fun earlier later => earlier.version < later.version
  answers : ∀ variant, history.Answers formats variant

/-! ## Names -/

/-- One part of a path, and without the separator of the keys. -/
def Simple (name : String) : Prop := Plain name ∧ ':' ∉ name.toList

instance (name : String) : Decidable (Simple name) := inferInstanceAs (Decidable (_ ∧ _))

theorem key_toList (stored : Stored) : stored.key.toList =
    stored.lang.toList ++ ':' :: (stored.name.toList ++ ':' :: 'v' :: (decimal stored.version).toList) := by
  simp [Stored.key]

/-- A key without colons in its names begins like the keys of its own variant
only. -/
theorem of_matches {stored : Stored} {variant : Variant} (lang : ':' ∉ stored.lang.toList)
    (name : ':' ∉ stored.name.toList) (like : TemplateRegistry.Matches variant stored.key) : stored.Of variant := by
  obtain ⟨rest, same⟩ := like
  have digits : ':' ∉ 'v' :: (decimal stored.version).toList := colon_notMem_decimal stored.version
  rw [key_toList] at same
  have parts : variant.lang.toList ++ ':' :: (variant.name.toList ++ ':' :: rest) =
      stored.lang.toList ++ ':' :: (stored.name.toList ++ ':' :: 'v' :: (decimal stored.version).toList) := by
    rw [← same]
    simp
  have counts := congrArg (List.count ':') parts
  simp only [List.count_append, List.count_cons_self, List.count_eq_zero_of_not_mem lang,
    List.count_eq_zero_of_not_mem name, List.count_eq_zero_of_not_mem digits] at counts
  have fresh : ':' ∉ variant.lang.toList := List.count_eq_zero.mp (by omega)
  have fresh' : ':' ∉ variant.name.toList := List.count_eq_zero.mp (by omega)
  have cut := congrArg (Text.splitOnce ':') parts
  rw [Text.splitOnce_append fresh, Text.splitOnce_append lang] at cut
  obtain ⟨langs, behind⟩ := Prod.mk.inj (Option.some.inj cut)
  have cut' := congrArg (Text.splitOnce ':') behind
  rw [Text.splitOnce_append fresh', Text.splitOnce_append name] at cut'
  exact ⟨(String.toList_inj.mp langs).symm, (String.toList_inj.mp (Prod.mk.inj (Option.some.inj cut')).1).symm⟩

theorem matches_of {stored : Stored} {variant : Variant} (own : stored.Of variant) :
    TemplateRegistry.Matches variant stored.key := by
  refine ⟨'v' :: (decimal stored.version).toList, ?_⟩
  rw [key_toList, own.1, own.2]
  simp

theorem keyVersion_key (stored : Stored) : keyVersion stored.key = some stored.version :=
  keyVersion_id ⟨stored.lang, stored.name, stored.version, 0, "", ""⟩

theorem dir_injective {root : Path} {stored other : Stored} (same : stored.dir root = other.dir root) :
    stored.lang = other.lang ∧ stored.version = other.version ∧ stored.name = other.name := by
  have parts := List.append_cancel_left same
  simp only [List.cons.injEq, and_true] at parts
  obtain ⟨lang, versions, name⟩ := parts
  have digits := congrArg (fun text => parseU32 (text.toList.tail)) versions
  have read : ∀ n : UInt32, parseU32 ("v" ++ decimal n).toList.tail = some n := by
    intro n
    rw [String.toList_append]
    exact parseU32_decimal n
  simp only [read, Option.some.injEq] at digits
  exact ⟨lang, digits, name⟩

theorem kernelRegistryPath_dir {root : Path} (stored : Stored) :
    Snapshot.kernelRegistryPath (stored.dir root) = some (root ++ ["kernel"]) := by
  have three : 3 ≤ (stored.dir root).length := by simp [Stored.dir]
  have above : (stored.dir root).dropLast.dropLast.dropLast = root := by
    have parts : stored.dir root = root ++ [stored.lang] ++ ["v" ++ decimal stored.version] ++ [stored.name] := by
      simp [Stored.dir]
    rw [parts, List.dropLast_concat, List.dropLast_concat, List.dropLast_concat]
  rw [Snapshot.kernelRegistryPath, if_pos three, above]

/-! ## What holds on every run -/

/-- The number that the next snapshot of the variant gets, unless it overflows. -/
def TemplateRegistry.following (registry : TemplateRegistry) (variant : Variant) : UInt32 :=
  (registry.latestVersion variant).getD 0 + 1

/-- There is a number for the version, nothing is where the files will be, the
snapshot has its memory at hand and is within the limits of `load`. -/
structure Possible (formats : RegistryFormats) (registry : TemplateRegistry) (variant : Variant) (snapshot : Snapshot)
    (disk : Disk) : Prop where
  counted : ((registry.latestVersion variant).getD 0).toNat + 1 < 2 ^ 32
  passable : disk.tree.Passable (registry.snapshotDir variant (registry.following variant))
  listed : (disk.tree.makeDirs (registry.snapshotDir variant (registry.following variant))).Writable
    (registry.root ++ ["registry.json"])
  vacant : ∀ name ∈ Snapshot.names,
    disk.tree.entries (registry.snapshotDir variant (registry.following variant) ++ [name]) = none
  filled : snapshot.memory ≠ []
  small : snapshot.memory.length ≤ maxSnapshotMemorySize
  placement : PlacementFits snapshot.loadAddr snapshot.memory.length
  someChip : snapshot.irqchips ≠ some ⟨none, none, none⟩
  kernel : KernelFits formats.toFormats
    (disk.tree.makeDirs (registry.snapshotDir variant (registry.following variant)))
    (registry.snapshotDir variant (registry.following variant))
    (kept formats registry variant (registry.following variant) disk snapshot).kernelVersion
    (kept formats registry variant (registry.following variant) disk snapshot).kernelHash
  laws : RoundTrips formats.toFormats (kept formats registry variant (registry.following variant) disk snapshot)

/-- The names are parts of paths without a colon, too. -/
structure Storable (formats : RegistryFormats) (registry : TemplateRegistry) (variant : Variant) (snapshot : Snapshot)
    (disk : Disk) : Prop extends Possible formats registry variant snapshot disk where
  lang : Simple variant.lang
  name : Simple variant.name

/-- What is stored can be, and no directory of a variant that is removed is
there. -/
def Plainly (formats : RegistryFormats) (root : Path) (history : History) : HistoryStep → Prop
  | .store _ variant snapshot => Storable formats history.registry variant snapshot history.disk
  | .remove lang name => ∀ version : UInt32,
    history.disk.tree.entries (join (join (join root lang) ("v" ++ decimal version)) name) = none

structure Sound (formats : RegistryFormats) (root : Path) (history : History) : Prop where
  rooted : history.registry.root = root
  calm : history.disk.faults = []
  kernel : history.disk.tree.entries (root ++ ["kernel"]) = some .directory
  keys : ∀ key, key ∈ history.registry.templates.keys ↔ ∃ stored ∈ history.stores, stored.key = key
  simple : ∀ stored ∈ history.stores, Simple stored.lang ∧ Simple stored.name
  increasing : ∀ variant, (history.of variant).Pairwise fun earlier later => earlier.version < later.version
  held : ∀ stored ∈ history.stores, Holds formats.toFormats history.disk (stored.dir root) stored.state

namespace Sound
variable {formats : RegistryFormats} {root : Path} {history : History} {variant : Variant}

theorem mem_versions (sound : Sound formats root history) {version : UInt32} :
    version ∈ history.registry.versions variant ↔ ∃ stored ∈ history.of variant, stored.version = version := by
  rw [TemplateRegistry.mem_versions]
  constructor
  · rintro ⟨key, listed, like, read⟩
    obtain ⟨stored, member, rfl⟩ := (sound.keys key).mp listed
    obtain ⟨lang, name⟩ := sound.simple stored member
    have own := of_matches lang.2 name.2 like
    refine ⟨stored, List.mem_filter.mpr ⟨member, decide_eq_true own⟩, ?_⟩
    exact Option.some.inj ((keyVersion_key stored).symm.trans read)
  · rintro ⟨stored, member, rfl⟩
    obtain ⟨there, own⟩ := List.mem_filter.mp member
    have key := (sound.keys _).mpr ⟨stored, there, rfl⟩
    exact ⟨stored.key, key, matches_of (of_decide_eq_true own), keyVersion_key stored⟩

/-- The latest version of a variant is that of the last snapshot stored for it. -/
theorem latestVersion (sound : Sound formats root history) :
    history.registry.latestVersion variant = (history.of variant).getLast?.map Stored.version := by
  rcases List.eq_nil_or_concat' (history.of variant) with none | ⟨before, last, parts⟩
  · rw [none]
    apply List.max?_eq_none_iff.mpr
    apply List.eq_nil_iff_forall_not_mem.mpr
    intro version member
    obtain ⟨stored, there, -⟩ := sound.mem_versions.mp member
    rw [none] at there
    exact List.not_mem_nil there
  · have order := sound.increasing variant
    rw [parts, List.pairwise_append] at order
    rw [parts, List.getLast?_concat, Option.map_some, TemplateRegistry.latestVersion_eq_some]
    refine ⟨sound.mem_versions.mpr ⟨last, parts ▸ List.mem_concat_self, rfl⟩, fun version member => ?_⟩
    obtain ⟨stored, there, rfl⟩ := sound.mem_versions.mp member
    rw [parts] at there
    rcases List.mem_append.mp there with old | new
    · exact UInt32.le_of_lt (order.2.2 stored old last List.mem_cons_self)
    · rw [List.mem_singleton.mp new]
      exact UInt32.le_refl _

theorem snapshotDir_stored (sound : Sound formats root history) {stored : Stored}
    (member : stored ∈ history.of variant) :
    history.registry.snapshotDir variant stored.version = stored.dir root := by
  obtain ⟨there, own⟩ := List.mem_filter.mp member
  obtain ⟨lang, name⟩ := of_decide_eq_true own
  obtain ⟨simpleLang, simpleName⟩ := sound.simple stored there
  rw [TemplateRegistry.snapshotDir_plain (lang ▸ simpleLang.1) (name ▸ simpleName.1), sound.rooted, ← lang, ← name]
  rfl

theorem refines (sound : Sound formats root history) : history.Refines formats := by
  refine ⟨sound.increasing, fun variant => ?_⟩
  have latest : history.registry.latestVersion variant = (history.of variant).getLast?.map Stored.version :=
    sound.latestVersion
  unfold History.Answers
  cases last : (history.of variant).getLast? with
  | none =>
    rw [last, Option.map_none] at latest
    dsimp only
    refine ⟨by rw [TemplateRegistry.hasSnapshot, latest]; rfl, ?_⟩
    rintro ⟨snapshot, ⟨registry, disk⟩, ends⟩
    obtain ⟨_, _, got, run⟩ := Attempt.bind_ok.mp ends
    obtain ⟨same, rfl⟩ := Attempt.get_ends.mp got
    cases same
    dsimp only at run
    rw [latest] at run
    cases (Attempt.fail_ends.mp run).1
  | some stored =>
    rw [last, Option.map_some] at latest
    dsimp only
    refine ⟨by rw [TemplateRegistry.hasSnapshot, latest]; rfl, ?_⟩
    have member := List.mem_of_getLast? last
    obtain ⟨snapshot, after, loaded, same⟩ := sound.held stored (List.mem_of_mem_filter member)
    rw [← sound.snapshotDir_stored member] at loaded
    exact ⟨snapshot, after, (loadSnapshot_ok latest).mpr ⟨loaded, rfl⟩, same⟩

end Sound

/-! ## One store -/

section Store
variable {formats : RegistryFormats} {mode : Overflow} {now : String} {root : Path}
  {registry registry' : TemplateRegistry}
  {variant : Variant} {version : UInt32} {snapshot : Snapshot} {disk disk' between : Disk} {history next : History}

/-- The store records a kernel, and drops the handle. -/
theorem kept_eq (formats : RegistryFormats) (registry : TemplateRegistry) (variant : Variant) (version : UInt32)
    (disk : Disk) (snapshot : Snapshot) : ∃ kernelVersion kernelHash,
      kept formats registry variant version disk snapshot =
        { snapshot.clone with kernelVersion := kernelVersion, kernelHash := kernelHash } := by
  unfold kept TemplateRegistry.recorded
  cases registry.kernelRegistry with
  | none => exact ⟨_, _, rfl⟩
  | some kernels =>
    dsimp only
    cases kernels.resolved (prepared registry variant version disk).tree
        (variant.kernelVersion.getD kernels.defaultVersion) variant.kernelProfile.asStr with
    | none => exact ⟨_, _, rfl⟩
    | some kernelPath => exact ⟨_, _, rfl⟩

theorem kept_memory : (kept formats registry variant version disk snapshot).memory = snapshot.memory := by
  obtain ⟨kernelVersion, kernelHash, same⟩ := kept_eq formats registry variant version disk snapshot
  rw [same, Snapshot.clone]

theorem kept_loadAddr : (kept formats registry variant version disk snapshot).loadAddr = snapshot.loadAddr := by
  obtain ⟨kernelVersion, kernelHash, same⟩ := kept_eq formats registry variant version disk snapshot
  rw [same, Snapshot.clone]

theorem kept_irqchips : (kept formats registry variant version disk snapshot).irqchips = snapshot.irqchips := by
  obtain ⟨kernelVersion, kernelHash, same⟩ := kept_eq formats registry variant version disk snapshot
  rw [same, Snapshot.clone]

theorem bytes_of_filled (filled : snapshot.memory ≠ []) (disk : Disk) : snapshot.bytes disk = snapshot.memory :=
  if_pos filled

theorem source_of_filled (filled : snapshot.memory ≠ []) (disk : Disk) : snapshot.source disk = some snapshot.memory :=
  if_pos filled

theorem hashed_of_filled (filled : snapshot.memory ≠ []) (disk : Disk) : snapshot.hashed disk = some snapshot.memory :=
  if_pos filled

theorem passable_makeDirs (tree : Tree) (dir : Path) : (tree.makeDirs dir).Passable dir :=
  fun above inside => .inr (if_pos ((List.mem_inits above dir).mp inside))

namespace Possible
variable (possible : Possible formats registry variant snapshot disk)
include possible

theorem nextVersion : registry.nextVersion variant mode = some (registry.following variant) :=
  Overflow.fit_of_fits possible.counted

theorem following_toNat :
    (registry.following variant).toNat = ((registry.latestVersion variant).getD 0).toNat + 1 := by
  rw [TemplateRegistry.following, UInt32.toNat_add]
  exact Nat.mod_eq_of_lt possible.counted

theorem saves : ∃ between,
    Snapshot.Saved formats.toFormats (kept formats registry variant (registry.following variant) disk snapshot)
      (prepared registry variant (registry.following variant) disk)
      (registry.snapshotDir variant (registry.following variant)) snapshot.memory snapshot.memory between := by
  have filled := possible.filled
  rw [← @kept_memory formats registry variant (registry.following variant) snapshot disk] at filled ⊢
  refine ⟨_, passable_makeDirs _ _, source_of_filled filled _, hashed_of_filled filled _, fun file member => ?_, rfl⟩
  apply Tree.writable_makeDirs.mpr
  have absent := possible.vacant file.1 (Snapshot.files_names.subset (List.mem_map_of_mem member))
  rw [prepared, Tree.makeDirs_file, absent]
  exact Option.some_ne_none _ ∘ Eq.symm

theorem stores (calm : disk.faults = []) (now : String) : ∃ between registry' disk',
    StoredAs formats registry variant snapshot disk (infoOf now variant snapshot (registry.following variant)) registry'
      between disk' := by
  obtain ⟨between, saved⟩ := possible.saves
  refine ⟨between, _, _, possible.passable, (Snapshot.save_ok (by exact calm)).mpr ⟨_, _, saved⟩, rfl, ?_, rfl⟩
  rw [registryFile, saved.after]
  apply Tree.writable_putAll.mpr
  rw [prepared, Tree.makeDirs_makeDirs]
  exact possible.listed

/-- What was stored is what is loaded. -/
theorem holds (calm : disk.faults = []) (stored : StoredAs formats registry variant snapshot disk
      (infoOf now variant snapshot (registry.following variant)) registry' between disk') :
    Holds formats.toFormats disk' (registry.snapshotDir variant (registry.following variant))
      ((kept formats registry variant (registry.following variant) disk snapshot).stored disk) := by
  obtain ⟨bytes, hashed, saved⟩ := stored.whole calm
  have filled := possible.filled
  rw [← @kept_memory formats registry variant (registry.following variant) snapshot disk] at filled
  have same : (kept formats registry variant (registry.following variant) disk snapshot).stored
      (prepared registry variant (registry.following variant) disk) =
      (kept formats registry variant (registry.following variant) disk snapshot).stored disk := by
    rw [Snapshot.stored, Snapshot.stored, bytes_of_filled filled, bytes_of_filled filled]
  have back : (kept formats registry variant (registry.following variant) disk snapshot).LoadsBack formats.toFormats
      (prepared registry variant (registry.following variant) disk)
      (registry.snapshotDir variant (registry.following variant)) := by
    have absent : ∀ name ∈ Snapshot.names, (prepared registry variant (registry.following variant) disk).tree.entries
        (registry.snapshotDir variant (registry.following variant) ++ [name]) = none := fun name member =>
      (Tree.makeDirs_file name).trans (possible.vacant name member)
    refine ⟨?_, ?_, ?_, ?_, fun _ => absent _ (by decide), fun _ => .inl ⟨absent _ (by decide), rfl⟩, ?_, ?_⟩
    · rw [bytes_of_filled filled, kept_memory]
      exact possible.small
    · intro held digested
      rw [hashed_of_filled filled, Option.some.injEq] at digested
      rw [bytes_of_filled filled, digested]
    · rw [prepared, Tree.makeDirs_makeDirs]
      exact possible.kernel
    · rw [bytes_of_filled filled, kept_memory, kept_loadAddr]
      exact possible.placement
    · intro file member _
      have named : file.1 ∈ Snapshot.names := by
        have first := List.mem_map_of_mem (f := Prod.fst) member
        exact List.mem_of_mem_drop (i := 5) first
      exact absent file.1 named
    · rw [kept_irqchips]
      exact possible.someChip
  have held : Holds formats.toFormats between (registry.snapshotDir variant (registry.following variant))
      ((kept formats registry variant (registry.following variant) disk snapshot).stored
        (prepared registry variant (registry.following variant) disk)) :=
    (Snapshot.holds_saved_iff possible.laws saved).mpr back
  rw [same] at held
  have length : disk'.directoryLen = between.directoryLen := by rw [stored.listed]; rfl
  apply Snapshot.holds_of_files between disk' length (fun name member => stored.entries_files name member) ?_ held
  apply (Snapshot.kernelFits_congr fun path last member => stored.entries_other ?_).mpr
  revert last
  decide

end Possible

/-- What is stored in another directory is still held. -/
theorem StoredAs.holds_other {info : TemplateMeta} {dir : Path} {state : SavedState} {home : Path}
    (stored : StoredAs formats registry variant snapshot disk info registry' between disk') (calm : disk.faults = [])
    (depth : (registry.snapshotDir variant info.version).length = dir.length)
    (apart : dir ≠ registry.snapshotDir variant info.version) (kernel : Snapshot.kernelRegistryPath dir = some home)
    (present : disk.tree.entries home ≠ none) (held : Holds formats.toFormats disk dir state) :
    Holds formats.toFormats disk' dir state := by
  obtain ⟨bytes, hashed, saved⟩ := stored.whole calm
  have length : disk'.directoryLen = disk.directoryLen := by
    have moved : between.directoryLen = disk.directoryLen := by
      rw [saved.after]
      exact Snapshot.moved_directoryLen _
    rw [stored.listed]
    exact moved
  apply Snapshot.holds_of_files disk disk' length ?_ ?_ held
  · intro name member
    have unlisted : name ≠ "registry.json" := by
      rintro rfl
      revert member
      decide
    have elsewhere : ∀ other ∈ Snapshot.names,
        dir ++ [name] ≠ registry.snapshotDir variant info.version ++ [other] := fun other _ same =>
      apart (List.append_inj_left' same rfl)
    have deeper : ¬ dir ++ [name] <+: registry.snapshotDir variant info.version := fun inside => by
      have shorter := inside.length_le
      rw [List.length_append, List.length_singleton] at shorter
      omega
    rw [stored.entries_other unlisted, saved.after]
    apply (Snapshot.savedTree_other elsewhere).trans
    rw [prepared, Tree.makeDirs_makeDirs]
    exact if_neg deeper
  · intro fits versioned digested kernelDir found _
    cases Option.some.inj (kernel.symm.trans found)
    obtain ⟨content, file, digest⟩ := fits versioned digested home kernel present
    refine ⟨content, ?_, digest⟩
    rw [kernelFile_plain (by decide)] at file ⊢
    unfold Tree.IsFile
    rw [stored.entries_foreign calm (by decide)]
    exact (Tree.isFile_makeDirs stored.passable).mpr file

theorem Sound.earlier (sound : Sound formats root history) {stored : Stored} (member : stored ∈ history.of variant)
    (storable : Storable formats history.registry variant snapshot history.disk) :
    stored.version < history.registry.following variant := by
  have latest : history.registry.latestVersion variant = (history.of variant).getLast?.map Stored.version :=
    sound.latestVersion
  have order := sound.increasing variant
  have number := storable.following_toNat
  rcases List.eq_nil_or_concat' (history.of variant) with none | ⟨before, last, parts⟩
  · rw [none] at member
    exact absurd member List.not_mem_nil
  · rw [parts, List.getLast?_concat, Option.map_some] at latest
    rw [latest, Option.getD_some] at number
    rw [parts, List.pairwise_append] at order
    rw [parts] at member
    rw [UInt32.lt_iff_toNat_lt, number]
    rcases List.mem_append.mp member with old | new
    · have below := UInt32.lt_iff_toNat_lt.mp (order.2.2 stored old last List.mem_cons_self)
      omega
    · rw [List.mem_singleton.mp new]
      omega

/-- The snapshot that a store adds. -/
def History.entry (formats : RegistryFormats) (history : History) (variant : Variant) (snapshot : Snapshot) : Stored :=
  ⟨variant.lang, variant.name, history.registry.following variant,
    (kept formats history.registry variant (history.registry.following variant) history.disk snapshot).stored
      history.disk⟩

theorem of_grown {entry : Stored} (added : next.stores = history.stores ++ [entry]) (other : Variant) :
    next.of other = history.of other ++ if entry.Of other then [entry] else [] := by
  have alone : [entry].filter (Stored.Of · other) = if entry.Of other then [entry] else [] := by
    by_cases own : entry.Of other
    · simp [own]
    · simp [own]
  rw [History.of, added, List.filter_append, alone]
  rfl

/-- Versions still increase behind a store. -/
theorem Sound.increasing_entry (sound : Sound formats root history)
    (storable : Storable formats history.registry variant snapshot history.disk) {other : Variant}
    (own : (history.entry formats variant snapshot).Of other) : ∀ earlier ∈ history.of other,
      earlier.version < (history.entry formats variant snapshot).version := by
  intro earlier old
  obtain ⟨there, of⟩ := List.mem_filter.mp old
  obtain ⟨lang, name⟩ := of_decide_eq_true of
  have same : earlier ∈ history.of variant :=
    List.mem_filter.mpr ⟨there, decide_eq_true ⟨lang.trans own.1.symm, name.trans own.2.symm⟩⟩
  exact sound.earlier same storable

/-- A store goes to a directory of its own. -/
theorem Sound.entry_apart (sound : Sound formats root history)
    (storable : Storable formats history.registry variant snapshot history.disk) {other : Stored}
    (old : other ∈ history.stores) : other.dir root ≠ (history.entry formats variant snapshot).dir root := by
  intro same
  obtain ⟨lang, version, name⟩ := dir_injective same
  have own : other ∈ history.of variant := List.mem_filter.mpr ⟨old, decide_eq_true ⟨lang, name⟩⟩
  have below := sound.earlier own storable
  rw [version] at below
  exact UInt32.lt_irrefl _ below

theorem Sound.snapshotDir_entry (sound : Sound formats root history)
    (storable : Storable formats history.registry variant snapshot history.disk) :
    history.registry.snapshotDir variant (history.registry.following variant) =
      (history.entry formats variant snapshot).dir root := by
  rw [TemplateRegistry.snapshotDir_plain storable.lang.1 storable.name.1, sound.rooted]
  rfl

/-- A store that is possible succeeds and adds to the history of its variant. -/
theorem Sound.store (sound : Sound formats root history)
    (storable : Storable formats history.registry variant snapshot history.disk)
    (stepped : (templateRuns formats mode root).step history (.store now variant snapshot) next) :
    Sound formats root next := by
  obtain ⟨result, ran, added⟩ := stepped
  obtain ⟨between, registry', disk', stored⟩ := storable.stores sound.calm now
  have done : (storeSnapshot formats mode now variant snapshot).Ends (history.registry, history.disk)
      (.ok (infoOf now variant snapshot (history.registry.following variant))) (registry', disk') :=
    (storeSnapshot_ok sound.calm).mpr ⟨_, between, storable.nextVersion, rfl, stored⟩
  obtain ⟨rfl, ended⟩ := ran.unique done
  obtain ⟨rfl, rfl⟩ := Prod.mk.inj ended
  have grown : next.stores = history.stores ++ [history.entry formats variant snapshot] := added
  have members : ∀ stored ∈ next.stores, stored ∈ history.stores ∨ stored = history.entry formats variant snapshot :=
    fun stored member => (List.mem_append.mp (grown ▸ member)).imp_right List.mem_singleton.mp
  refine ⟨(congrArg TemplateRegistry.root stored.inserted).trans sound.rooted, ?_, ?_, ?_, ?_, ?_, ?_⟩
  · obtain ⟨bytes, hashed, saved⟩ := stored.whole sound.calm
    have calm : between.faults = [] := by
      rw [saved.after]
      exact (Snapshot.moved_faults _).trans sound.calm
    rw [stored.listed]
    exact calm
  · rw [stored.entries_foreign sound.calm (by decide)]
    unfold prepared Tree.makeDirs
    dsimp only
    rw [sound.kernel, ite_self]
  · intro key
    have named : (infoOf now variant snapshot (history.registry.following variant)).id =
      (history.entry formats variant snapshot).key := rfl
    rw [stored.inserted, grown]
    unfold TemplateRegistry.inserted
    rw [TemplateRegistry.mem_insert_keys, named, sound.keys]
    simp only [List.mem_append, List.mem_singleton, or_and_right, exists_or, exists_eq_left]
    constructor
    · rintro (same | old)
      · exact .inr same.symm
      · exact .inl old
    · rintro (old | same)
      · exact .inr old
      · exact .inl same.symm
  · intro stored member
    rcases members stored member with old | rfl
    · exact sound.simple stored old
    · exact ⟨storable.lang, storable.name⟩
  · intro other
    rw [of_grown grown, List.pairwise_append]
    refine ⟨sound.increasing other, ?_, fun earlier old later new => ?_⟩
    · split
      · exact List.pairwise_singleton _ _
      · exact List.Pairwise.nil
    · split at new
      · next own =>
        obtain rfl := List.mem_singleton.mp new
        exact sound.increasing_entry storable own earlier old
      · exact absurd new List.not_mem_nil
  · have dir := sound.snapshotDir_entry storable
    intro other member
    rcases members other member with old | rfl
    · have apart := sound.entry_apart storable old
      rw [← dir] at apart
      have present : history.disk.tree.entries (root ++ ["kernel"]) ≠ none := by
        rw [sound.kernel]
        exact Option.some_ne_none _
      apply stored.holds_other sound.calm ?_ apart (kernelRegistryPath_dir other) present (sound.held other old)
      rw [show (infoOf now variant snapshot (history.registry.following variant)).version =
        history.registry.following variant from rfl, dir]
      simp [Stored.dir]
    · rw [← dir]
      exact storable.holds sound.calm stored

end Store

/-! ## Opening and removal -/

/-- The same files, and no fault to come. -/
structure Alike (before disk : Disk) : Prop where
  tree : disk.tree = before.tree
  directoryLen : disk.directoryLen = before.directoryLen
  calm : disk.faults = []

section Opening
variable {ε : Type} [FromIo ε] {formats : RegistryFormats} {root dir path : Path} {before disk disk' : Disk}

theorem alike_next (disk : Disk) (alike : Alike before disk) : Alike before disk.next :=
  ⟨alike.tree, alike.directoryLen, by rw [Disk.next, alike.calm]; rfl⟩

theorem alike_createDirAll (present : before.tree.entries dir = some .directory) :
    Attempt.Keeps (Alike before) (createDirAll dir : Attempt ε Disk Unit) := by
  apply keeps_operation alike_next
  intro disk alike
  split
  · have same : disk.tree.makeDirs dir = disk.tree := by
      rw [alike.tree]
      exact Tree.makeDirs_of_directory present
    dsimp only
    rw [same]
    exact alike
  · exact alike

theorem alike_readFile : Attempt.Keeps (Alike before) (readFile path : Attempt ε Disk (List UInt8)) := by
  apply keeps_operation alike_next
  intro disk alike
  split
  · exact alike
  · exact alike
  · exact alike

omit [FromIo ε] in
theorem alike_pathExists : Attempt.Keeps (Alike before) (pathExists path : Attempt ε Disk Bool) := by
  intro disk result disk' alike ends
  cases ends
  exact alike_next disk alike

theorem alike_loadKernels (present : before.tree.entries dir = some .directory) :
    Attempt.Keeps (Alike before) (loadKernels formats dir) := by
  apply (alike_createDirAll present).bind
  intro _
  apply alike_pathExists.bind
  intro there
  split
  · apply alike_readFile.bind
    intro bytes
    split
    · exact Attempt.keeps_fail _
    · split
      · exact Attempt.keeps_fail _
      · exact Attempt.keeps_pure _
  · exact Attempt.keeps_pure _

theorem join_kernel (root : Path) : join root "kernel" = root ++ ["kernel"] := join_plain (by decide)

theorem join_registry (root : Path) : join root "registry.json" = root ++ ["registry.json"] := join_plain (by decide)

/-- A root that has its directories is opened without a change. -/
theorem alike_openRegistry (present : before.tree.entries (root ++ ["kernel"]) = some .directory) :
    Attempt.Keeps (Alike before) (openRegistry formats root) := by
  have home : before.tree.entries root = some .directory :=
    before.tree.rooted root "kernel" (by rw [present]; exact Option.some_ne_none _)
  unfold openRegistry
  rw [join_kernel]
  apply (alike_createDirAll home).bind
  intro _
  apply (alike_createDirAll present).bind
  intro _
  apply (alike_loadKernels present).attempt.bind
  intro kernels
  apply alike_pathExists.bind
  intro there
  split
  · apply alike_readFile.bind
    intro bytes
    split
    · exact Attempt.keeps_fail _
    · exact Attempt.keeps_pure _
  · exact Attempt.keeps_pure _

/-- Nothing is removed of a variant that has no directory. -/
theorem alike_remove {lang name : String} {result : Except RegistryError Unit} (calm : disk.faults = [])
    (present : disk.tree.entries (root ++ ["kernel"]) = some .directory)
    (absent : ∀ version : UInt32,
      disk.tree.entries (join (join (join root lang) ("v" ++ decimal version)) name) = none)
    (ran : (cmdTemplateRemove formats root lang name).Ends disk result disk') : Alike disk disk' := by
  have opening := @alike_openRegistry formats root disk present
  rcases Attempt.bind_ends.mp ran with ⟨e, failed, -⟩ | ⟨registry, between, opened, rest⟩
  · exact opening disk _ disk' ⟨rfl, rfl, calm⟩ failed
  · have alike := opening disk _ between ⟨rfl, rfl, calm⟩ opened
    cases latest : registry.latestVersion ⟨lang, name, .base, none⟩ with
    | none =>
      rw [latest] at rest
      exact (Attempt.pure_ends.mp rest).2 ▸ alike
    | some version =>
      rw [latest] at rest
      have nothing := absent version
      rw [← alike.tree] at nothing
      dsimp only at rest
      rw [pathExists_bind alike.calm, nothing] at rest
      simp only [ne_eq, not_true_eq_false, decide_false, Bool.false_eq_true, if_false] at rest
      exact (Attempt.pure_ends.mp rest).2 ▸ alike

/-- An opened root without a list of templates has its directories, and a
registry without templates. -/
theorem openRegistry_empty {registry : TemplateRegistry} (calm : disk.faults = [])
    (unlisted : disk.tree.entries (root ++ ["registry.json"]) = none)
    (ran : (openRegistry formats root).Ends disk (.ok registry) disk') :
    registry.root = root ∧ registry.templates = .empty ∧ disk'.faults = [] ∧
      disk'.tree.entries (root ++ ["kernel"]) = some .directory := by
  unfold openRegistry at ran
  rw [join_kernel, join_registry] at ran
  obtain ⟨_, _, home, run⟩ := Attempt.bind_ok.mp ran
  obtain ⟨-, rfl⟩ := (createDirAll_ok calm).mp home
  obtain ⟨_, made, kernelDir, run⟩ := Attempt.bind_ok.mp run
  obtain ⟨-, rfl⟩ := (createDirAll_ok (by exact calm)).mp kernelDir
  obtain ⟨kernels, loaded, kernel, run⟩ := Attempt.bind_ok.mp run
  have present : ((disk.tree.makeDirs root).makeDirs (root ++ ["kernel"])).entries (root ++ ["kernel"]) =
      some .directory := if_pos List.prefix_rfl
  have alike := (@alike_loadKernels formats (root ++ ["kernel"])
    { disk with tree := (disk.tree.makeDirs root).makeDirs (root ++ ["kernel"]) } present).attempt
      _ _ loaded ⟨rfl, rfl, calm⟩ kernel
  have nothing : loaded.tree.entries (root ++ ["registry.json"]) = none := by
    have longer : ¬ root ++ ["registry.json"] <+: root := fun inside => by
      have shorter := inside.length_le
      rw [List.length_append, List.length_singleton] at shorter
      omega
    have other : ¬ root ++ ["registry.json"] <+: root ++ ["kernel"] := by
      rw [List.prefix_append_right_inj]
      decide
    rw [alike.tree]
    unfold Tree.makeDirs
    dsimp only
    rw [if_neg other, if_neg longer, unlisted]
  rw [pathExists_bind alike.calm, nothing] at run
  simp only [ne_eq, not_true_eq_false, decide_false, Bool.false_eq_true, if_false] at run
  obtain ⟨same, rfl⟩ := Attempt.pure_ends.mp run
  cases same
  refine ⟨rfl, rfl, alike.calm, ?_⟩
  rw [alike.tree]
  exact present

end Opening

/-! ## Whole runs -/

section Runs
variable {formats : RegistryFormats} {mode : Overflow} {root : Path} {history next : History}

theorem Sound.start (begins : (templateRuns formats mode root).start history) : Sound formats root history := by
  obtain ⟨nothing, disk, calm, unlisted, opened⟩ := begins
  obtain ⟨rooted, empty, quiet, kernel⟩ := openRegistry_empty calm unlisted opened
  have bare : ∀ stored, stored ∉ history.stores := fun stored => nothing ▸ List.not_mem_nil
  refine ⟨rooted, quiet, kernel, fun key => ?_, fun stored member => absurd member (bare stored), fun variant => ?_,
    fun stored member => absurd member (bare stored)⟩
  · rw [empty]
    refine ⟨fun member => absurd member List.not_mem_nil, ?_⟩
    rintro ⟨stored, member, -⟩
    exact absurd member (bare stored)
  · rw [History.of, nothing]
    exact List.Pairwise.nil

theorem Sound.remove {lang name : String} (sound : Sound formats root history)
    (absent : ∀ version : UInt32,
      history.disk.tree.entries (join (join (join root lang) ("v" ++ decimal version)) name) = none)
    (stepped : (templateRuns formats mode root).step history (.remove lang name) next) : Sound formats root next := by
  obtain ⟨result, ran, same, stores⟩ := stepped
  have alike := alike_remove sound.calm sound.kernel absent ran
  have of : ∀ variant, next.of variant = history.of variant := fun variant => by rw [History.of, stores, History.of]
  refine ⟨?_, alike.calm, ?_, ?_, ?_, fun variant => ?_, ?_⟩
  · rw [same]
    exact sound.rooted
  · rw [alike.tree]
    exact sound.kernel
  · rw [same, stores]
    exact sound.keys
  · rw [stores]
    exact sound.simple
  · rw [of]
    exact sound.increasing variant
  · intro stored member
    rw [stores] at member
    exact Snapshot.holds_of_same alike.tree alike.directoryLen (sound.held stored member)

/-- Runs of plain steps refine histories. -/
theorem templates_refine_histories (reached : (templateRuns formats mode root).Reached (Plainly formats root) history) :
    history.Refines formats := by
  have sound : Sound formats root history := by
    apply reached.invariant
    · intro history begins
      exact Sound.start begins
    · intro history step next sound plain stepped
      cases step with
      | store now variant snapshot => exact sound.store plain stepped
      | remove lang name => exact sound.remove plain stepped
  exact sound.refines

end Runs

/-! ## A root without a kernel -/

def onDefault : Snapshot := { Snapshot.oneByte with kernelVersion := kernelDefaultVersion }

def bareFormats : RegistryFormats where
  blake3 := fun _ => Snapshot.oneByteDigest
  sha256 := fun _ => ""
  parseCpu := Snapshot.table (text Snapshot.zeroCpu.toJson) Snapshot.zeroCpu
  parseMeta := Snapshot.table (text (onDefault.snapMeta (some Snapshot.oneByteDigest)).toJson)
    (onDefault.snapMeta (some Snapshot.oneByteDigest))
  parseVirtioNet := fun _ => none
  parseTemplates := fun _ => none
  parseKernels := fun _ => none

def bareRegistry : TemplateRegistry := ⟨["t"], .empty, some ⟨kernelDefaultVersion, fun _ => none, ["t", "kernel"]⟩⟩

/-- The directory of the kernels is made twice. -/
def bareDisk : Disk := ⟨((Tree.bare.makeDirs ["t"]).makeDirs ["t", "kernel"]).makeDirs ["t", "kernel"], [], [], 4096⟩

def bareHistory : History := ⟨bareRegistry, bareDisk, []⟩

theorem bare_start : (templateRuns bareFormats .checked ["t"]).start bareHistory := by
  refine ⟨rfl, ⟨Tree.bare, [], [], 4096⟩, rfl, ?_, ?_⟩
  · decide +kernel
  · unfold Attempt.Ends
    rfl

def bareVariant (name : String) : Variant := ⟨"py", name, .base, none⟩

theorem bare_dir {name : String} (plain : Plain name) :
    bareRegistry.snapshotDir (bareVariant name) (bareRegistry.following (bareVariant name)) =
      ["t", "py", "v1", name] := by
  have lang : Plain "py" := by decide
  have one : "v" ++ decimal 1 = "v1" := by decide +kernel
  rw [show bareRegistry.following (bareVariant name) = 1 from rfl, TemplateRegistry.snapshotDir_plain lang plain, one]
  rfl

theorem bare_kept {name : String} {disk : Disk} {version : UInt32} :
    kept bareFormats bareRegistry (bareVariant name) version disk Snapshot.oneByte = onDefault := rfl

/-- Two templates, one of which has a colon in its name, can be stored first. -/
theorem bare_possible {name : String} (member : name ∈ ["a", "a:b"]) :
    Possible bareFormats bareRegistry (bareVariant name) Snapshot.oneByte bareDisk := by
  have plain : Plain name := by
    revert name
    decide
  have laws : RoundTrips bareFormats.toFormats onDefault := {
    cpu := Snapshot.table_self (text Snapshot.zeroCpu.toJson) Snapshot.zeroCpu
    metadata := fun _ => Snapshot.table_self (text (onDefault.snapMeta (some Snapshot.oneByteDigest)).toJson) _
    virtioNet := fun _ none => by cases none }
  constructor
  · rw [show bareRegistry.latestVersion (bareVariant name) = none from rfl]
    decide
  · rw [bare_dir plain]
    revert name
    decide +kernel
  · rw [bare_dir plain]
    revert name
    decide +kernel
  · rw [bare_dir plain]
    revert name
    decide +kernel
  · exact List.cons_ne_nil 1 []
  · decide
  · exact ⟨by decide, by decide, by decide⟩
  · intro none
    cases none
  · rw [bare_kept]
    intro _ digested
    exact absurd rfl digested
  · rw [bare_kept]
    exact laws

theorem bare_store {name : String} (member : name ∈ ["a", "a:b"]) : ∃ next version state,
    (templateRuns bareFormats .checked ["t"]).step bareHistory (.store "" (bareVariant name) Snapshot.oneByte) next ∧
      next.stores = [⟨"py", name, version, state⟩] ∧
      next.registry.templates.keys = ["py:" ++ name ++ ":v" ++ decimal 1] := by
  obtain ⟨between, registry, disk, stored⟩ := (bare_possible member).stores rfl ""
  have done : (storeSnapshot bareFormats .checked "" (bareVariant name) Snapshot.oneByte).Ends
      (bareRegistry, bareDisk) (.ok _) (registry, disk) :=
    (storeSnapshot_ok rfl).mpr ⟨_, between, (bare_possible member).nextVersion, rfl, stored⟩
  refine ⟨⟨registry, disk, _⟩, _, _, ⟨_, done, rfl⟩, rfl, ?_⟩
  rw [stored.inserted]
  rfl

/-- A template with a colon in its name is taken for one of another name. -/
theorem a_colon_confuses_variants : ¬ ∀ history,
    (templateRuns bareFormats .checked ["t"]).Reached (fun _ _ => True) history → history.Refines bareFormats := by
  intro always
  obtain ⟨next, version, state, stepped, stores, keys⟩ := @bare_store "a:b" (by decide)
  have refines := always next (.next (.start bare_start) trivial stepped)
  have answers := refines.answers (bareVariant "a")
  have nothing : next.of (bareVariant "a") = [] := by
    rw [History.of, stores]
    simp [bareVariant, Stored.Of]
  have found : next.registry.hasSnapshot (bareVariant "a") = true := by
    unfold TemplateRegistry.hasSnapshot TemplateRegistry.latestVersion TemplateRegistry.versions
    rw [keys]
    decide +kernel
  rw [History.Answers, nothing, found] at answers
  cases answers.1

/-- A template is stored, and is found. -/
theorem templates_refine_histories_after_a_store : ∃ history : History,
    history.of (bareVariant "a") ≠ [] ∧ history.Refines bareFormats := by
  obtain ⟨next, version, state, stepped, stores, -⟩ := @bare_store "a" (by decide)
  have simple : Simple "py" ∧ Simple "a" := by decide
  have plain : Plainly bareFormats ["t"] bareHistory (.store "" (bareVariant "a") Snapshot.oneByte) :=
    ⟨bare_possible (by decide), simple.1, simple.2⟩
  refine ⟨next, ?_, templates_refine_histories (.next (.start bare_start) plain stepped)⟩
  rw [History.of, stores]
  simp [bareVariant, Stored.Of]

end TinyMachine.Templates
