import TinyMachine.SnapshotRoundTrip
import TinyMachine.TemplateRegistry
import TinyMachine.Lib.Text

/-! What storing a template does when nothing fails, and which version is
loaded after it. -/
namespace TinyMachine.Templates
open Lib Disk Kernels Snapshots

/-! ## Versions in keys -/

theorem parseU32_decimal (n : UInt32) : parseU32 (decimal n).toList = some n := by
  have digits : ∀ c ∈ Nat.toDigits 10 n.toNat, c.isDigit = true := fun c member =>
    Nat.isDigit_of_mem_toDigits (by decide) (by decide) member
  have unsigned : (Nat.toDigits 10 n.toNat).head? ≠ some '+' := by
    intro sign
    have digit := digits '+' (List.mem_of_head? sign)
    cases digit
  rw [decimal, String.toList_ofList, parseU32, if_neg unsigned]
  have nonempty : ¬ (Nat.toDigits 10 n.toNat = [] ∨ ¬ (Nat.toDigits 10 n.toNat).all Char.isDigit) := by
    simpa [Nat.toDigits_ne_nil] using digits
  have small := n.toNat_lt
  rw [if_neg nonempty, Nat.ofDigitChars_ten_toDigits, if_pos small]
  exact congrArg some (UInt32.ofNat_toNat)

theorem colon_notMem_decimal (n : UInt32) : ':' ∉ 'v' :: (decimal n).toList := by
  rw [decimal, String.toList_ofList]
  intro member
  rcases List.mem_cons.mp member with impossible | digit
  · cases impossible
  · cases Nat.isDigit_of_mem_toDigits (by decide) (by decide) digit

theorem plain_version (version : UInt32) : Plain ("v" ++ decimal version) := by
  have letters : ("v" ++ decimal version).toList = 'v' :: Nat.toDigits 10 version.toNat := by
    have digits : (decimal version).toList = Nat.toDigits 10 version.toNat := String.toList_ofList
    rw [String.toList_append, digits]
    rfl
  have first : ("v" ++ decimal version).toList.head? = some 'v' := by rw [letters]; rfl
  refine ⟨?_, ?_, ?_, ?_⟩
  · exact fun same => by simp [same] at first
  · exact fun same => by simp [same] at first
  · exact fun same => by simp [same] at first
  · rw [letters]
    intro slash
    rcases List.mem_cons.mp slash with impossible | digit
    · cases impossible
    · cases Nat.isDigit_of_mem_toDigits (by decide) (by decide) digit

theorem id_toList (info : TemplateMeta) : info.id.toList =
    (info.lang.toList ++ ':' :: info.variant.toList) ++ ':' :: 'v' :: (decimal info.version).toList := by
  simp [TemplateMeta.id]

theorem keyVersion_id (info : TemplateMeta) : keyVersion info.id = some info.version := by
  have last : info.id.toList.rtakeWhile (· ≠ ':') = 'v' :: (decimal info.version).toList := by
    rw [id_toList]
    exact Text.rtakeWhile_behind (colon_notMem_decimal info.version)
  rw [keyVersion, last]
  exact parseU32_decimal info.version

private theorem max_eq (a b : UInt32) : max a b = if a ≤ b then b else a := rfl

instance lawfulOrderMaxUInt32 : Std.LawfulOrderMax UInt32 := by
  refine .of_max_le_iff (fun a b c => ?_) (fun a b => ?_)
  · rw [max_eq]
    split
    · rename_i le
      exact ⟨fun below => ⟨UInt32.le_trans le below, below⟩, And.right⟩
    · rename_i gt
      have le : b ≤ a := (UInt32.le_total a b).resolve_left gt
      exact ⟨fun below => ⟨below, UInt32.le_trans le below⟩, And.left⟩
  · rw [max_eq]
    split
    · exact .inr rfl
    · exact .inl rfl

namespace TemplateRegistry
variable {registry : TemplateRegistry} {variant : Variant} {version latest : UInt32} {info : TemplateMeta}

theorem latestVersion_eq_some : registry.latestVersion variant = some latest ↔
    latest ∈ registry.versions variant ∧ ∀ version ∈ registry.versions variant, version ≤ latest :=
  List.max?_eq_some_iff

theorem snapshotDir_plain (lang : Plain variant.lang) (name : Plain variant.name) :
    registry.snapshotDir variant version = registry.root ++ [variant.lang, "v" ++ decimal version, variant.name] := by
  rw [snapshotDir, join_plain lang, join_plain (plain_version version), join_plain name]
  simp

/-- The key begins like those of the variant. -/
def Matches (variant : Variant) (key : String) : Prop :=
  (variant.lang ++ ":" ++ variant.name ++ ":").toList <+: key.toList

theorem mem_versions : version ∈ registry.versions variant ↔
    ∃ key ∈ registry.templates.keys, Matches variant key ∧ keyVersion key = some version := by
  simp [versions, Matches, and_assoc]

theorem matches_id (lang : info.lang = variant.lang) (name : info.variant = variant.name) :
    Matches variant info.id := by
  refine ⟨'v' :: (decimal info.version).toList, ?_⟩
  rw [id_toList, lang, name]
  simp

theorem mem_insert_keys {table : TemplateTable} {key : String} :
    key ∈ (table.insert info).keys ↔ key = info.id ∨ key ∈ table.keys := by
  unfold TemplateTable.insert TemplateTable.keys
  rw [List.map_cons, List.mem_cons]
  constructor
  · rintro (rfl | there)
    · exact .inl rfl
    · exact .inr ((List.filter_sublist.map TemplateMeta.id).subset there)
  · rintro (rfl | there)
    · exact .inl rfl
    · obtain ⟨other, member, rfl⟩ := List.mem_map.mp there
      by_cases same : other.id = info.id
      · exact .inl same
      · exact .inr (List.mem_map_of_mem (List.mem_filter.mpr ⟨member, decide_eq_true same⟩))

/-- The templates with this one. -/
def inserted (registry : TemplateRegistry) (info : TemplateMeta) : TemplateRegistry :=
  { registry with templates := registry.templates.insert info }

/-- What is stored as the next version is the latest afterwards unless the number
wraps around. -/
theorem latestVersion_inserted {mode : Overflow} (lang : info.lang = variant.lang) (name : info.variant = variant.name)
    (next : registry.nextVersion variant mode = some info.version) :
    (registry.inserted info).latestVersion variant = some info.version ↔
      ((registry.latestVersion variant).getD 0).toNat + 1 < 2 ^ 32 := by
  obtain ⟨-, number⟩ := Overflow.fit_eq_some.mp next
  have listed : ∀ {version}, version ∈ (registry.inserted info).versions variant ↔
      version = info.version ∨ version ∈ registry.versions variant := by
    intro version
    rw [mem_versions, mem_versions]
    constructor
    · rintro ⟨key, member, like, read⟩
      rcases mem_insert_keys.mp member with rfl | old
      · exact .inl (Option.some.inj (read.symm.trans (keyVersion_id info)))
      · exact .inr ⟨key, old, like, read⟩
    · rintro (rfl | ⟨key, member, like, read⟩)
      · exact ⟨info.id, mem_insert_keys.mpr (.inl rfl), matches_id lang name, keyVersion_id info⟩
      · exact ⟨key, mem_insert_keys.mpr (.inr member), like, read⟩
  rw [latestVersion_eq_some]
  constructor
  · rintro ⟨-, largest⟩
    by_contra wraps
    cases known : registry.latestVersion variant with
    | none =>
      rw [known] at wraps
      exact wraps (by decide)
    | some latest =>
      have below := largest latest (listed.mpr (.inr (latestVersion_eq_some.mp known).1))
      rw [known, Option.getD_some] at wraps number
      have small := latest.toNat_lt
      rw [← number, UInt32.le_iff_toNat_le, UInt32.toNat_add] at below
      have one : (1 : UInt32).toNat = 1 := rfl
      omega
  · intro fits
    refine ⟨listed.mpr (.inl rfl), fun version member => ?_⟩
    have larger : info.version.toNat = ((registry.latestVersion variant).getD 0).toNat + 1 := by
      rw [← number, UInt32.toNat_add]
      exact Nat.mod_eq_of_lt fits
    rcases listed.mp member with rfl | old
    · exact UInt32.le_refl _
    · cases known : registry.latestVersion variant with
      | none => simp [List.max?_eq_none_iff.mp known] at old
      | some latest =>
        have below := (latestVersion_eq_some.mp known).2 version old
        rw [known, Option.getD_some] at larger
        rw [UInt32.le_iff_toNat_le] at below ⊢
        omega

/-! ## The kernel of a stored snapshot -/

/-- The kernel that the registry has for the variant. -/
def kernelOf (registry : TemplateRegistry) (variant : Variant) (tree : Tree) : Option Path :=
  registry.kernelRegistry.bind fun kernels =>
    kernels.resolved tree (variant.kernelVersion.getD kernels.defaultVersion) variant.kernelProfile.asStr

/-- The clone with the kernel that is recorded in it. -/
def recorded (registry : TemplateRegistry) (variant : Variant) (sha256 : List UInt8 → String) (tree : Tree)
    (snapshot : Snapshot) : Snapshot :=
  let known := match registry.kernelRegistry with
    | some kernels =>
      let versionStr := variant.kernelVersion.getD kernels.defaultVersion
      match kernels.resolved tree versionStr variant.kernelProfile.asStr with
      | some kernelPath => { snapshot.clone with
          kernelVersion := if snapshot.kernelVersion = "" then versionStr else snapshot.kernelVersion
          kernelHash :=
            if snapshot.kernelHash = "" then
              (kernels.getHash versionStr).getD ((hashOf sha256 tree kernelPath).getD "")
            else snapshot.kernelHash }
      | none => snapshot.clone
    | none => snapshot.clone
  { known with kernelVersion := if known.kernelVersion = "" then kernelDefaultVersion else known.kernelVersion }

private theorem versioned (snapshot : Snapshot) (version : String) :
    (if snapshot.kernelVersion = "" then { snapshot with kernelVersion := version } else snapshot) =
      { snapshot with kernelVersion := if snapshot.kernelVersion = "" then version else snapshot.kernelVersion } := by
  split
  · rfl
  · rfl

theorem withKernel_ends {disk disk' : Disk} {sha256 : List UInt8 → String} {snapshot : Snapshot}
    {result : Except RegistryError Snapshot} (calm : disk.faults = []) :
    (registry.withKernel variant sha256 snapshot).Ends disk result disk' ↔
      result = .ok (registry.recorded variant sha256 disk.tree snapshot) ∧ disk' = disk := by
  have run : (registry.withKernel variant sha256 snapshot).Ends disk
      (.ok (registry.recorded variant sha256 disk.tree snapshot)) disk := by
    have done : ∀ known, (pure (if known.kernelVersion = "" then { known with kernelVersion := kernelDefaultVersion }
        else known) : Attempt RegistryError Disk Snapshot).Ends disk (.ok { known with
          kernelVersion := if known.kernelVersion = "" then kernelDefaultVersion else known.kernelVersion }) disk :=
      fun known => Attempt.pure_ends.mpr ⟨congrArg Except.ok (versioned known kernelDefaultVersion).symm, rfl⟩
    unfold withKernel recorded
    cases registry.kernelRegistry with
    | none => exact done snapshot.clone
    | some kernels =>
      dsimp only
      generalize variant.kernelVersion.getD kernels.defaultVersion = versionStr
      refine Attempt.bind_next (resolve_attempt calm) ?_
      cases kernels.resolved disk.tree versionStr variant.kernelProfile.asStr with
      | none => exact done snapshot.clone
      | some kernelPath =>
        dsimp only
        rw [versioned]
        by_cases hash : snapshot.kernelHash = ""
        · have same : snapshot.clone.kernelHash = "" := hash
          rw [if_pos same, if_pos hash]
          cases kernels.getHash versionStr with
          | some known => exact done _
          | none => exact Attempt.bind_next (computeSha256_attempt calm) (done _)
        · have same : ¬ snapshot.clone.kernelHash = "" := hash
          rw [if_neg same, if_neg hash]
          exact done _
  constructor
  · intro ends
    exact ends.unique run
  · rintro ⟨rfl, rfl⟩
    exact run

end TemplateRegistry

/-! ## A whole store -/

variable {formats : RegistryFormats} {mode : Overflow} {now : String} {registry registry' : TemplateRegistry}
  {variant : Variant} {snapshot : Snapshot} {disk disk' : Disk} {info : TemplateMeta}

def infoOf (now : String) (variant : Variant) (snapshot : Snapshot) (version : UInt32) : TemplateMeta where
  lang := variant.lang
  variant := variant.name
  version := version
  memorySize := snapshot.memorySize
  createdAt := now
  kernelProfile := variant.kernelProfile.asStr

def registryText (table : TemplateTable) : List UInt8 := written (.array (table.metas.map TemplateMeta.toJson))

/-- The disk with the list of the templates. -/
def listed (registry : TemplateRegistry) (disk : Disk) : Disk :=
  { disk with tree := disk.tree.put (join registry.root "registry.json") (registryText registry.templates) }

theorem saveRegistry_ok (calm : disk.faults = []) :
    saveRegistry.Ends (registry, disk) (.ok ()) (registry', disk') ↔
      registry' = registry ∧ disk.tree.Writable (join registry.root "registry.json") ∧ disk' = listed registry disk := by
  constructor
  · intro ends
    obtain ⟨_, _, got, rest⟩ := Attempt.bind_ok.mp ends
    obtain ⟨same, rfl⟩ := Attempt.get_ends.mp got
    cases same
    obtain ⟨_, ⟨registry₁, disk₁⟩, first, last⟩ := Attempt.bind_ok.mp rest
    obtain ⟨opened, rfl⟩ := Attempt.onSecond_ends.mp first
    obtain ⟨writable, rfl⟩ := (openTruncate_ok calm).mp opened
    obtain ⟨written, rfl⟩ := Attempt.onSecond_ends.mp last
    obtain rfl := (writeAll_ok (by exact calm)).mp written
    rw [append_put writable]
    exact ⟨rfl, writable, rfl⟩
  · rintro ⟨rfl, writable, rfl⟩
    refine Attempt.bind_next (Attempt.get_ends.mpr ⟨rfl, rfl⟩) ?_
    refine Attempt.bind_next (Attempt.onSecond_ends.mpr ⟨(openTruncate_ok calm).mpr ⟨writable, rfl⟩, rfl⟩) ?_
    refine Attempt.onSecond_ends.mpr ⟨(writeAll_ok (by exact calm)).mpr ?_, rfl⟩
    rw [append_put writable]
    rfl

/-- The disk with the directory for this version. -/
def prepared (registry : TemplateRegistry) (variant : Variant) (version : UInt32) (disk : Disk) : Disk :=
  { disk with tree := disk.tree.makeDirs (registry.snapshotDir variant version) }

/-- What has happened when a snapshot is stored. -/
structure StoredAs (formats : RegistryFormats) (registry : TemplateRegistry) (variant : Variant) (snapshot : Snapshot)
    (disk : Disk) (info : TemplateMeta) (registry' : TemplateRegistry) (between disk' : Disk) : Prop where
  passable : disk.tree.Passable (registry.snapshotDir variant info.version)
  saved : ((registry.recorded variant formats.sha256 (prepared registry variant info.version disk).tree snapshot).save
    formats.toFormats (registry.snapshotDir variant info.version)).Ends (prepared registry variant info.version disk)
      (.ok ()) between
  inserted : registry' = registry.inserted info
  writable : between.tree.Writable (join registry.root "registry.json")
  listed : disk' = listed (registry.inserted info) between

theorem storeSnapshot_ok (calm : disk.faults = []) :
    (storeSnapshot formats mode now variant snapshot).Ends (registry, disk) (.ok info) (registry', disk') ↔
      ∃ version between, registry.nextVersion variant mode = some version ∧ info = infoOf now variant snapshot version ∧
        StoredAs formats registry variant snapshot disk info registry' between disk' := by
  have calm' : ∀ {version snapshot between}, (Snapshot.save formats.toFormats snapshot
      (registry.snapshotDir variant version)).Ends (prepared registry variant version disk) (.ok ()) between →
      between.faults = [] := by
    intro version snapshot between saved
    obtain ⟨bytes, hashed, whole⟩ := (Snapshot.save_ok (by exact calm)).mp saved
    rw [whole.after]
    exact (Snapshot.moved_faults _).trans calm
  constructor
  · intro ends
    obtain ⟨_, _, got, run⟩ := Attempt.bind_ok.mp ends
    obtain ⟨same, rfl⟩ := Attempt.get_ends.mp got
    cases same
    dsimp only at run
    cases next : registry.nextVersion variant mode with
    | none => simp [next] at run
    | some version =>
      rw [next] at run
      obtain ⟨_, ⟨_, _⟩, one, run₁⟩ := Attempt.bind_ok.mp run
      obtain ⟨made, rfl⟩ := Attempt.onSecond_ends.mp one
      obtain ⟨passable, rfl⟩ := (createDirAll_ok calm).mp made
      obtain ⟨_, ⟨_, _⟩, two, run₂⟩ := Attempt.bind_ok.mp run₁
      obtain ⟨cloned, rfl⟩ := Attempt.onSecond_ends.mp two
      obtain ⟨known, rfl⟩ := (TemplateRegistry.withKernel_ends (by exact calm)).mp cloned
      cases known
      obtain ⟨_, ⟨_, between⟩, three, run₃⟩ := Attempt.bind_ok.mp run₂
      obtain ⟨kept, rfl⟩ := Attempt.onSecond_ends.mp three
      have saved := Attempt.adapt_ok.mp kept
      obtain ⟨_, ⟨_, _⟩, four, run₄⟩ := Attempt.bind_ok.mp run₃
      obtain ⟨-, inserted⟩ := Attempt.modify_ends.mp four
      cases inserted
      obtain ⟨_, ⟨_, _⟩, five, run₅⟩ := Attempt.bind_ok.mp run₄
      obtain ⟨rfl, writable, rfl⟩ := (saveRegistry_ok (calm' saved)).mp five
      obtain ⟨result, last⟩ := Attempt.pure_ends.mp run₅
      cases result
      cases last
      exact ⟨version, between, rfl, rfl, passable, saved, rfl, writable, rfl⟩
  · rintro ⟨version, between, next, rfl, passable, saved, rfl, writable, rfl⟩
    refine Attempt.bind_next (Attempt.get_ends.mpr ⟨rfl, rfl⟩) ?_
    dsimp only
    rw [next]
    refine Attempt.bind_next (Attempt.onSecond_ends.mpr ⟨(createDirAll_ok calm).mpr ⟨passable, rfl⟩, rfl⟩) ?_
    refine Attempt.bind_next (Attempt.onSecond_ends.mpr
      ⟨(TemplateRegistry.withKernel_ends (by exact calm)).mpr ⟨rfl, rfl⟩, rfl⟩) ?_
    refine Attempt.bind_next (Attempt.onSecond_ends.mpr ⟨Attempt.adapt_ok.mpr saved, rfl⟩) ?_
    refine Attempt.bind_next (Attempt.modify_ends.mpr ⟨rfl, rfl⟩) ?_
    refine Attempt.bind_next ((saveRegistry_ok (calm' saved)).mpr ⟨rfl, writable, rfl⟩) ?_
    exact Attempt.pure_ends.mpr ⟨rfl, rfl⟩

end TinyMachine.Templates
