import TinyMachine.Lib.Files

/-! The registry of kernel binaries: which file a version and a profile resolve
to, and the hash of a kernel file. -/
namespace TinyMachine.Kernels
open Lib Disk

inductive KernelRegistryError where
  | io (e : IoError)
  | tomlParse
  | versionNotFound (version : String)
  | profileNotFound (profile version : String)
  | hashMismatch (expected computed : String)
  | kernelFileNotFound (path : Path)

instance : FromIo KernelRegistryError := ⟨.io⟩

structure KernelVersion where
  profiles : List String
  hash : String

/-- The versions by their names. -/
structure KernelRegistry where
  defaultVersion : String
  versions : String → Option KernelVersion
  kernelDir : Path

def kernelDefaultVersion : String := "7.1.4"

def kernelFile (kernelDir : Path) (version profile : String) : Path :=
  join (join kernelDir ("v" ++ version)) ("vmlinux-" ++ profile)

abbrev Action (α : Type) := Attempt KernelRegistryError Disk α

/-- The hex digest of a file. -/
def computeSha256 (sha256 : List UInt8 → String) (path : Path) : Action String := do
  let data ← readFile path
  return sha256 data

def verifyKernelHash (sha256 : List UInt8 → String) (path : Path) (expected : String) : Action Unit := do
  let computed ← computeSha256 sha256 path
  if computed ≠ expected then
    Attempt.fail (.hashMismatch expected computed)

namespace KernelRegistry
variable (registry : KernelRegistry)

def resolveVersion (version profile : String) : Action Path :=
  match registry.versions version with
  | none => Attempt.fail (.versionNotFound version)
  | some known =>
    if profile ∉ known.profiles then
      Attempt.fail (.profileNotFound profile version)
    else do
      if ← pathExists (kernelFile registry.kernelDir version profile) then
        return kernelFile registry.kernelDir version profile
      else
        Attempt.fail (.kernelFileNotFound (kernelFile registry.kernelDir version profile))

def resolveDefault (profile : String) : Action Path :=
  if (registry.versions registry.defaultVersion).isSome then
    registry.resolveVersion registry.defaultVersion profile
  else
    Attempt.fail (.versionNotFound registry.defaultVersion)

/-- The version itself, or else the default one. -/
def resolve (version profile : String) : Action Path :=
  if (registry.versions version).isSome then registry.resolveVersion version profile
  else registry.resolveDefault profile

/-- The hash of the base kernel of a version. -/
def getHash (version : String) : Option String := (registry.versions version).map KernelVersion.hash

end KernelRegistry

/-! ## What a version resolves to -/

namespace KernelRegistry
variable (registry : KernelRegistry)

def resolvedVersion (version : String) : String :=
  if (registry.versions version).isSome then version else registry.defaultVersion

/-- The file of the version, or of the default one. -/
def resolvedPath (version profile : String) : Path :=
  kernelFile registry.kernelDir (registry.resolvedVersion version) profile

def resolved (tree : Tree) (version profile : String) : Option Path :=
  (registry.versions (registry.resolvedVersion version)).bind fun known =>
    if profile ∈ known.profiles ∧ tree.entries (registry.resolvedPath version profile) ≠ none then
      some (registry.resolvedPath version profile)
    else none

end KernelRegistry

theorem kernelFile_plain {profile : String} (whole : '/' ∉ profile.toList) (kernelDir : Path) (version : String) :
    kernelFile kernelDir version profile = join kernelDir ("v" ++ version) ++ ["vmlinux-" ++ profile] := by
  have letters : ("vmlinux-" ++ profile).toList = "vmlinux-".toList ++ profile.toList := String.toList_append
  have first : ("vmlinux-" ++ profile).toList.head? = some 'v' := by rw [letters]; rfl
  refine join_plain ⟨?_, ?_, ?_, ?_⟩
  · exact fun same => by simp [same] at first
  · exact fun same => by simp [same] at first
  · exact fun same => by simp [same] at first
  · rw [letters, List.mem_append]
    exact fun slash => slash.elim (by decide) whole

variable {disk disk' : Disk} {path : Path} {sha256 : List UInt8 → String} {hash expected : String}

theorem computeSha256_ok (calm : disk.faults = []) :
    (computeSha256 sha256 path).Ends disk (.ok hash) disk' ↔
      (∃ bytes, disk.tree.IsFile path bytes ∧ sha256 bytes = hash) ∧ disk' = disk := by
  rw [computeSha256, Attempt.bind_ok]
  simp only [readFile_ok calm, Attempt.pure_ends, Except.ok.injEq]
  constructor
  · rintro ⟨bytes, _, ⟨file, rfl⟩, rfl, rfl⟩
    exact ⟨⟨bytes, file, rfl⟩, rfl⟩
  · rintro ⟨⟨bytes, file, rfl⟩, rfl⟩
    exact ⟨bytes, _, ⟨file, rfl⟩, rfl, rfl⟩

theorem verifyKernelHash_ok (calm : disk.faults = []) :
    (verifyKernelHash sha256 path expected).Ends disk (.ok ()) disk' ↔
      (∃ bytes, disk.tree.IsFile path bytes ∧ sha256 bytes = expected) ∧ disk' = disk := by
  rw [verifyKernelHash, Attempt.bind_ok]
  simp only [computeSha256_ok calm]
  constructor
  · rintro ⟨hash, _, ⟨found, rfl⟩, rest⟩
    split at rest
    · simp at rest
    · rename_i same
      exact ⟨not_not.mp same ▸ found, (Attempt.pure_ends.mp rest).2⟩
  · rintro ⟨found, rfl⟩
    refine ⟨expected, _, ⟨found, rfl⟩, ?_⟩
    rw [if_neg (not_not_intro rfl)]
    exact Attempt.pure_ends.mpr ⟨rfl, rfl⟩

variable {registry : KernelRegistry} {version profile : String}

private theorem resolveVersion_attempt {ε : Type} (calm : disk.faults = []) :
    ((registry.resolveVersion version profile).attempt : Attempt ε Disk (Option Path)).Ends disk
      (.ok ((registry.versions version).bind fun known =>
        if profile ∈ known.profiles ∧ disk.tree.entries (kernelFile registry.kernelDir version profile) ≠ none then
          some (kernelFile registry.kernelDir version profile)
        else none)) disk := by
  rw [Attempt.attempt_ends]
  unfold KernelRegistry.resolveVersion
  cases registry.versions version with
  | none => exact .inr ⟨_, Attempt.fail_ends.mpr ⟨rfl, rfl⟩, rfl⟩
  | some known =>
    rw [Option.bind_some]
    dsimp only
    by_cases listed : profile ∈ known.profiles
    · rw [if_neg (not_not_intro listed)]
      by_cases absent : disk.tree.entries (kernelFile registry.kernelDir version profile) = none
      · refine .inr ⟨.kernelFileNotFound (kernelFile registry.kernelDir version profile),
          (pathExists_bind calm).mpr ?_, by rw [if_neg (by simp [absent])]⟩
        rw [if_neg (by simp [absent])]
        exact Attempt.fail_ends.mpr ⟨rfl, rfl⟩
      · refine .inl ⟨_, (pathExists_bind calm).mpr ?_, by rw [if_pos ⟨listed, absent⟩]⟩
        rw [if_pos (by simp [absent])]
        exact Attempt.pure_ends.mpr ⟨rfl, rfl⟩
    · refine .inr ⟨.profileNotFound profile version, ?_, by rw [if_neg (by simp [listed])]⟩
      rw [if_pos listed]
      exact Attempt.fail_ends.mpr ⟨rfl, rfl⟩

theorem resolve_attempt {ε : Type} (calm : disk.faults = []) :
    ((registry.resolve version profile).attempt : Attempt ε Disk (Option Path)).Ends disk
      (.ok (registry.resolved disk.tree version profile)) disk := by
  unfold KernelRegistry.resolve KernelRegistry.resolved KernelRegistry.resolvedPath KernelRegistry.resolvedVersion
  by_cases known : (registry.versions version).isSome
  · rw [if_pos known, if_pos known]
    exact resolveVersion_attempt calm
  · rw [if_neg known, if_neg known]
    unfold KernelRegistry.resolveDefault
    by_cases default : (registry.versions registry.defaultVersion).isSome
    · rw [if_pos default]
      exact resolveVersion_attempt calm
    · rw [if_neg default, Option.not_isSome_iff_eq_none.mp default]
      exact Attempt.attempt_ends.mpr (.inr ⟨_, Attempt.fail_ends.mpr ⟨rfl, rfl⟩, rfl⟩)

/-- The hash of a file that can be read. -/
def hashOf (sha256 : List UInt8 → String) (tree : Tree) (path : Path) : Option String :=
  ((tree.entries path).bind Entry.bytes).map sha256

theorem computeSha256_attempt {ε : Type} (calm : disk.faults = []) :
    ((computeSha256 sha256 path).attempt : Attempt ε Disk (Option String)).Ends disk
      (.ok (hashOf sha256 disk.tree path)) disk := by
  rw [Attempt.attempt_ends, hashOf]
  cases found : (disk.tree.entries path).bind Entry.bytes with
  | none =>
    obtain ⟨e, failed⟩ := readFile_failed (ε := KernelRegistryError) calm found
    exact .inr ⟨e, Attempt.bind_failed failed, rfl⟩
  | some bytes =>
    obtain ⟨entry, there, read⟩ := Option.bind_eq_some_iff.mp found
    cases entry with
    | directory => cases read
    | file content =>
      cases read
      exact .inl ⟨_, (computeSha256_ok calm).mpr ⟨⟨_, there, rfl⟩, rfl⟩, rfl⟩

end TinyMachine.Kernels
