import Mathlib.Data.List.DropRight
import Mathlib.Data.List.MinMax
import TinyMachine.Snapshot
import TinyMachine.Lib.Overflow

/-! The template registry: snapshots of the variants in numbered directories,
and the list of them that is kept in a file. -/
namespace TinyMachine.Templates
open Lib Disk Kernels Snapshots

inductive KernelProfile where
  | base
  | gpuVk
  | gpuVfio
  | gpuNvidia
  deriving DecidableEq, Repr

def KernelProfile.asStr : KernelProfile → String
  | .base => "base"
  | .gpuVk => "gpu-vk"
  | .gpuVfio => "gpu-vfio"
  | .gpuNvidia => "gpu-nvidia"

structure Variant where
  lang : String
  name : String
  kernelProfile : KernelProfile
  kernelVersion : Option String
  deriving DecidableEq, Repr

def Variant.id (variant : Variant) : String := variant.lang ++ ":" ++ variant.name

def decimal (n : UInt32) : String := String.ofList (Nat.toDigits 10 n.toNat)

structure TemplateMeta where
  lang : String
  variant : String
  version : UInt32
  memorySize : UInt64
  createdAt : String
  kernelProfile : String
  deriving DecidableEq

def TemplateMeta.id (info : TemplateMeta) : String :=
  info.lang ++ ":" ++ info.variant ++ ":v" ++ decimal info.version

def TemplateMeta.toJson (info : TemplateMeta) : Json := fields [
  ("lang", .string info.lang.toList), ("variant", .string info.variant.toList),
  ("version", .number info.version.toNat), ("memory_size", .number info.memorySize.toNat),
  ("created_at", .string info.createdAt.toList), ("kernel_profile", .string info.kernelProfile.toList)]

/-- The templates by their ids, in an order that means nothing. -/
structure TemplateTable where
  metas : List TemplateMeta
  distinct : (metas.map TemplateMeta.id).Nodup

namespace TemplateTable

def empty : TemplateTable := ⟨[], List.nodup_nil⟩

def insert (table : TemplateTable) (info : TemplateMeta) : TemplateTable where
  metas := info :: table.metas.filter fun other => other.id ≠ info.id
  distinct := by
    rw [List.map_cons, List.nodup_cons]
    refine ⟨fun there => ?_, (List.filter_sublist.map TemplateMeta.id).nodup table.distinct⟩
    obtain ⟨other, member, same⟩ := List.mem_map.mp there
    exact absurd same (of_decide_eq_true (List.mem_filter.mp member).2)

def keys (table : TemplateTable) : List String := table.metas.map TemplateMeta.id

end TemplateTable

structure TemplateRegistry where
  root : Path
  templates : TemplateTable
  kernelRegistry : Option KernelRegistry

inductive RegistryError where
  | io (e : IoError)
  | snapshot (e : SnapshotError)
  | variantNotFound (id : String)
  /-- The version number overflows in a build that checks for it. -/
  | panicked

instance : FromIo RegistryError := ⟨.io⟩

/-- The readers of the two registry files besides those of snapshots. -/
structure RegistryFormats extends Formats where
  parseTemplates : String → Option (List TemplateMeta)
  /-- What `registry.toml` says, without the directory. -/
  parseKernels : String → Option (String × (String → Option KernelVersion))

abbrev RegistryAction (α : Type) := Attempt RegistryError (TemplateRegistry × Disk) α

/-- `parse::<u32>`. -/
def parseU32 (text : List Char) : Option UInt32 :=
  let digits := if text.head? = some '+' then text.tail else text
  if digits = [] ∨ ¬ digits.all Char.isDigit then none
  else if Nat.ofDigitChars 10 digits 0 < 2 ^ 32 then some (.ofNat (Nat.ofDigitChars 10 digits 0))
  else none

/-- The version at the end of a key. -/
def keyVersion (key : String) : Option UInt32 :=
  let versionStr := key.toList.rtakeWhile (· ≠ ':')
  parseU32 (if versionStr.head? = some 'v' then versionStr.tail else versionStr)

namespace TemplateRegistry
variable (registry : TemplateRegistry) (variant : Variant)

def snapshotDir (version : UInt32) : Path :=
  join (join (join registry.root variant.lang) ("v" ++ decimal version)) variant.name

/-- The versions in the keys that begin like those of the variant. -/
def versions : List UInt32 :=
  (registry.templates.keys.filter fun key => (variant.lang ++ ":" ++ variant.name ++ ":").toList <+: key.toList).filterMap
    keyVersion

def latestVersion : Option UInt32 := (registry.versions variant).max?

def nextVersion (mode : Overflow) : Option UInt32 :=
  let latest := (registry.latestVersion variant).getD 0
  mode.fit (latest.toNat + 1 < 2 ^ 32) (latest + 1)

def hasSnapshot : Bool := (registry.latestVersion variant).isSome

/-- The clone of the snapshot with the kernel that it runs on. -/
def withKernel (sha256 : List UInt8 → String) (snapshot : Snapshot) : Attempt RegistryError Disk Snapshot := do
  let snapClone := snapshot.clone
  let snapClone ← match registry.kernelRegistry with
    | some kernels => do
      let versionStr := variant.kernelVersion.getD kernels.defaultVersion
      match ← (kernels.resolve versionStr variant.kernelProfile.asStr).attempt with
      | some kernelPath => do
        let snapClone :=
          if snapClone.kernelVersion = "" then { snapClone with kernelVersion := versionStr } else snapClone
        if snapClone.kernelHash = "" then
          match kernels.getHash versionStr with
          | some hash => pure { snapClone with kernelHash := hash }
          | none => do
            let computed ← (computeSha256 sha256 kernelPath).attempt
            pure { snapClone with kernelHash := computed.getD "" }
        else
          pure snapClone
      | none => pure snapClone
    | none => pure snapClone
  return if snapClone.kernelVersion = "" then { snapClone with kernelVersion := kernelDefaultVersion } else snapClone

end TemplateRegistry

variable (formats : RegistryFormats)

/-- `fs::write` of the list. -/
def saveRegistry : RegistryAction Unit := do
  let (registry, _) ← Attempt.get
  let path := join registry.root "registry.json"
  Attempt.onSecond (openTruncate path)
  Attempt.onSecond (writeAll path (written (.array (registry.templates.metas.map TemplateMeta.toJson))))

def storeSnapshot (mode : Overflow) (now : String) (variant : Variant) (snapshot : Snapshot) :
    RegistryAction TemplateMeta := do
  let (registry, _) ← Attempt.get
  match registry.nextVersion variant mode with
  | none => Attempt.fail .panicked
  | some version => do
    let dir := registry.snapshotDir variant version
    Attempt.onSecond (createDirAll dir)
    let snapClone ← Attempt.onSecond (registry.withKernel variant formats.sha256 snapshot)
    Attempt.onSecond ((snapClone.save formats.toFormats dir).adapt .snapshot)
    let info : TemplateMeta := {
      lang := variant.lang
      variant := variant.name
      version := version
      memorySize := snapshot.memorySize
      createdAt := now
      kernelProfile := variant.kernelProfile.asStr }
    Attempt.modify fun (registry, disk) => ({ registry with templates := registry.templates.insert info }, disk)
    saveRegistry
    return info

def loadSnapshot (variant : Variant) : RegistryAction Snapshot := do
  let (registry, _) ← Attempt.get
  match registry.latestVersion variant with
  | none => Attempt.fail (.variantNotFound variant.id)
  | some version =>
    Attempt.onSecond ((Snapshot.load formats.toFormats (registry.snapshotDir variant version)).adapt .snapshot)

/-! ## Opening, and removal by the command line -/

/-- `KernelRegistry::load`. -/
def loadKernels (kernelDir : Path) : Attempt KernelRegistryError Disk KernelRegistry := do
  createDirAll kernelDir
  let path := join kernelDir "registry.toml"
  if ← pathExists path then
    let bytes ← readFile path
    match String.fromUTF8? ⟨bytes.toArray⟩ with
    | none => Attempt.fail (.io .invalidData)
    | some data =>
      match formats.parseKernels data with
      | none => Attempt.fail .tomlParse
      | some (defaultVersion, versions) => return ⟨defaultVersion, versions, kernelDir⟩
  else
    return ⟨kernelDefaultVersion, fun _ => none, kernelDir⟩

def openRegistry (root : Path) : Attempt RegistryError Disk TemplateRegistry := do
  createDirAll root
  createDirAll (join root "kernel")
  let kernelRegistry ← (loadKernels formats (join root "kernel")).attempt
  let path := join root "registry.json"
  if ← pathExists path then
    let bytes ← readFile path
    match (String.fromUTF8? ⟨bytes.toArray⟩).bind formats.parseTemplates with
    | none => Attempt.fail (.io .invalidData)
    | some metas => return ⟨root, metas.foldl TemplateTable.insert .empty, kernelRegistry⟩
  else
    return ⟨root, .empty, kernelRegistry⟩

/-- `template remove`, which opens a registry of its own. -/
def cmdTemplateRemove (templatesDir : Path) (lang name : String) : Attempt RegistryError Disk Unit := do
  let registry ← openRegistry formats templatesDir
  match registry.latestVersion ⟨lang, name, .base, none⟩ with
  | none => pure ()
  | some version => do
    let variantDir := join (join (join templatesDir lang) ("v" ++ decimal version)) name
    if ← pathExists variantDir then
      removeDirAll variantDir

end TinyMachine.Templates
