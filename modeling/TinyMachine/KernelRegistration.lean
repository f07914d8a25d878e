import Mathlib.Data.List.Sort
import TinyMachine.KernelRegistry

/-! Registering kernel versions and choosing the default one: what a call leaves
in the registry in memory, whatever its directory holds and its disk does. -/
namespace TinyMachine.KernelRegistration
open Lib Disk Kernels

/-! ## The registry and what a call meets -/

/-- The registry with the hashes it keeps for each profile of a version. -/
structure Registry extends KernelRegistry where
  profileHashes : String → List (String × String)

/-- The order in which a hash map yields its entries. -/
structure HashOrder where
  arrange : List (String × String) → List (String × String)
  perm : ∀ entries, (arrange entries).Perm entries

/-- What stands in a directory. -/
def contents (tree : Tree) (dir : Path) (name : String) : Option Entry := tree.entries (dir ++ [name])

/-- The disk with its faults in store, the order in which it lists directories,
that of the hash maps, and the text of a registry unless TOML has none. -/
structure World where
  disk : Disk
  listing : Path → List String
  lists : ∀ dir, disk.tree.entries dir = some .directory →
    (listing dir).Nodup ∧ ∀ name, name ∈ listing dir ↔ contents disk.tree dir name ≠ none
  order : HashOrder
  toToml : Registry → Option (List UInt8)

def readDir (listing : Path → List String) (path : Path) : Action (List String) := operation fun disk =>
  match disk.tree.entries path with
  | some .directory => (.ok (listing path), disk)
  | some (.file _) => (.error .notADirectory, disk)
  | none => (.error .notFound, disk)

/-- The next entry of a directory, which may not be readable. -/
def nextEntry : Action Unit := operation fun disk => (.ok (), disk)

/-! ## Walking through a version directory -/

/-- The profile whose kernel a file is. -/
def kernelProfile (name : String) : Option String := (name.toList.dropPrefix? "vmlinux-".toList).map String.ofList

/-- What was found so far. -/
structure Walk where
  profiles : List String
  profileHashes : List (String × String)
  baseHash : Option String

namespace Walk

def start : Walk := ⟨[], [], none⟩

def add (walk : Walk) (profile hash : String) : Walk where
  profiles := walk.profiles ++ [profile]
  profileHashes := (profile, hash) :: walk.profileHashes.filter fun known => known.1 ≠ profile
  baseHash := if profile = "base" then some hash else walk.baseHash

/-- The hash of the base kernel, or else the first of the hash map. -/
def hash (order : HashOrder) (walk : Walk) : String :=
  walk.baseHash.getD (((order.arrange walk.profileHashes).head?.map Prod.snd).getD "")

def visit (sha256 : List UInt8 → String) (dir : Path) (walk : Walk) (name : String) : Action Walk := do
  nextEntry
  match kernelProfile name with
  | none => return walk
  | some profile =>
    let hash ← computeSha256 sha256 (dir ++ [name])
    return walk.add profile hash

end Walk

def versionDir (kernelDir : Path) (version : String) : Path := join kernelDir ("v" ++ version)

/-- What `register_version` finds before it changes anything. -/
def discover (sha256 : List UInt8 → String) (world : World) (kernelDir : Path) (version : String) :
    Action (KernelVersion × List (String × String)) := do
  let dir := versionDir kernelDir version
  if ← pathExists dir then
    let names ← readDir world.listing dir
    let walk ← names.foldlM (Walk.visit sha256 dir) .start
    return (⟨walk.profiles.insertionSort (· ≤ ·), walk.hash world.order⟩, walk.profileHashes)
  else
    Attempt.fail (.kernelFileNotFound dir)

/-! ## Calls -/

abbrev RegistryAction (α : Type) := Attempt KernelRegistryError (Registry × Disk) α

namespace Registry

def save (world : World) (registry : Registry) : Action Unit := do
  let path := join registry.kernelDir "registry.toml"
  match world.toToml registry with
  | none => Attempt.fail .tomlParse
  | some data =>
    openTruncate path
    writeAll path data

def insert (registry : Registry) (version : String) (known : KernelVersion)
    (hashes : List (String × String)) : Registry :=
  { registry with
    versions := Function.update registry.versions version (some known)
    profileHashes := Function.update registry.profileHashes version hashes }

def withDefault (registry : Registry) (version : String) : Registry := { registry with defaultVersion := version }

end Registry

/-- A version that is not registered may be set as well, if its directory is
there. -/
def checkDefault (registry : Registry) (version : String) : Action Unit :=
  if (registry.versions version).isSome then
    return ()
  else do
    if ← pathExists (versionDir registry.kernelDir version) then
      return ()
    else
      Attempt.fail (.versionNotFound version)

/-- The registry in memory changes first, and is saved then. -/
def commit (world : World) (prepare : Registry → Action Registry) : RegistryAction Unit := do
  let (registry, _) ← Attempt.get
  let changed ← Attempt.onSecond (prepare registry)
  Attempt.modify fun (_, disk) => (changed, disk)
  Attempt.onSecond (changed.save world)

def registering (sha256 : List UInt8 → String) (world : World) (version : String) (registry : Registry) :
    Action Registry := do
  let (known, hashes) ← discover sha256 world registry.kernelDir version
  return registry.insert version known hashes

def choosing (version : String) (registry : Registry) : Action Registry := do
  checkDefault registry version
  return registry.withDefault version

def registerVersion (sha256 : List UInt8 → String) (world : World) (version : String) : RegistryAction Unit :=
  commit world (registering sha256 world version)

def setDefault (world : World) (version : String) : RegistryAction Unit := commit world (choosing version)

inductive Call where
  | registerVersion (version : String)
  | setDefault (version : String)
  | resolve (version profile : String)

/-- The call, which meets this world. -/
def Call.perform (sha256 : List UInt8 → String) (world : World) : Call → RegistryAction Unit
  | .registerVersion version => KernelRegistration.registerVersion sha256 world version
  | .setDefault version => KernelRegistration.setDefault world version
  | .resolve version profile => do
    let (registry, _) ← Attempt.get
    let _ ← Attempt.onSecond (registry.resolve version profile)
    return ()

/-! ## Runs of calls -/

/-- The registry, and whether the calls so far tell that its default version is
registered: it was when it was set, or has been since. -/
structure Session where
  registry : Registry
  settled : Bool

namespace Session
variable (sha256 : List UInt8 → String)

def refused : Except KernelRegistryError Unit → Bool
  | .error (.versionNotFound _) => true
  | _ => false

def settles (session : Session) : Call → Except KernelRegistryError Unit → Bool
  | .registerVersion version, .ok () => session.settled || version == session.registry.defaultVersion
  | .registerVersion _, .error _ => session.settled
  | .setDefault version, result =>
    if (session.registry.versions version).isSome then session.settled || result.toBool
    else session.settled && refused result
  | .resolve _ _, _ => session.settled

/-- The call in a world of its own. -/
def next (session : Session) (event : Call × World) : Session :=
  let ended := event.1.perform sha256 event.2 (session.registry, event.2.disk)
  ⟨ended.2.1, session.settles event.1 ended.1⟩

/-- A registry as it was opened, and the calls after that. -/
def run (registry : Registry) (events : List (Call × World)) : Session :=
  events.foldl (next sha256) ⟨registry, false⟩

end Session

/-! ## What the calls promise -/

/-- The default version is registered, and each of its kernels that is there is
found by a disk that answers. -/
def Findable (registry : Registry) : Prop := ∃ known, registry.versions registry.defaultVersion = some known ∧
  ∀ profile ∈ known.profiles, ∀ disk : Disk, disk.fault = none →
    disk.tree.entries (kernelFile registry.kernelDir registry.defaultVersion profile) ≠ none →
    (registry.resolveDefault profile).Ends disk
      (.ok (kernelFile registry.kernelDir registry.defaultVersion profile)) disk.next

/-- The call has changed the registry, and does not get it saved. -/
def SavingFails (sha256 : List UInt8 → String) (registry : Registry) (world : World) (call : Call) : Prop :=
  ∃ changed between e after, (changed.save world).Ends between (.error e) after ∧ match call with
    | .registerVersion version => (registering sha256 world version registry).Ends world.disk (.ok changed) between
    | .setDefault version => (choosing version registry).Ends world.disk (.ok changed) between
    | .resolve _ _ => False

def digest (sha256 : List UInt8 → String) (entries : String → Option Entry) (name : String) : String :=
  (((entries name).bind Entry.bytes).map sha256).getD ""

/-- The directory has a base kernel, or its kernels are all the same. -/
def Decisive (sha256 : List UInt8 → String) (entries : String → Option Entry) : Prop :=
  entries "vmlinux-base" ≠ none ∨ ∀ one other, entries one ≠ none → entries other ≠ none →
    (kernelProfile one).isSome → (kernelProfile other).isSome → digest sha256 entries one = digest sha256 entries other

/-- Two registrations of a directory with these contents, by whatever registry
and in whatever world, record one hash. -/
def Determined (sha256 : List UInt8 → String) (entries : String → Option Entry) : Prop :=
  ∀ (registry other : Registry) version version' world world' registry' other' disk disk',
    contents world.disk.tree (versionDir registry.kernelDir version) = entries →
    contents world'.disk.tree (versionDir other.kernelDir version') = entries →
    (registerVersion sha256 world version).Ends (registry, world.disk) (.ok ()) (registry', disk) →
    (registerVersion sha256 world' version').Ends (other, world'.disk) (.ok ()) (other', disk') →
    registry'.getHash version = other'.getHash version'

/-! ## How the calls end -/

section Ends
variable {sha256 : List UInt8 → String} {world : World} {registry registry' : Registry} {disk disk' : Disk}
  {version : String}

private theorem operation_done {α : Type} {act : Disk → Except IoError α × Disk} {a : α}
    (ends : (operation act : Action α).Ends disk (.ok a) disk') : act disk.next = (.ok a, disk') := by
  unfold Attempt.Ends operation at ends
  split at ends
  · cases ends
  · split at ends
    · rename_i ran
      cases ends
      exact ran
    · cases ends

private theorem readFile_done {path : Path} {bytes : List UInt8}
    (ends : (readFile path : Action (List UInt8)).Ends disk (.ok bytes) disk') :
    disk.tree.entries path = some (.file bytes) ∧ disk'.tree = disk.tree := by
  have ran := operation_done ends
  split at ran
  · rename_i there
    cases ran
    exact ⟨there, rfl⟩
  · cases ran
  · cases ran

private theorem computeSha256_done {path : Path} {hash : String}
    (ends : (computeSha256 sha256 path).Ends disk (.ok hash) disk') :
    hash = (((disk.tree.entries path).bind Entry.bytes).map sha256).getD "" ∧ disk'.tree = disk.tree := by
  obtain ⟨bytes, between, read, done⟩ := Attempt.bind_ok.mp ends
  obtain ⟨there, kept⟩ := readFile_done read
  obtain ⟨same, rfl⟩ := Attempt.pure_ends.mp done
  rw [there]
  exact ⟨Except.ok.inj same, kept⟩

private theorem readDir_done {listing : Path → List String} {path : Path} {names : List String}
    (ends : (readDir listing path).Ends disk (.ok names) disk') :
    disk.tree.entries path = some .directory ∧ names = listing path ∧ disk'.tree = disk.tree := by
  have ran := operation_done ends
  split at ran
  · rename_i there
    cases ran
    exact ⟨there, rfl, rfl⟩
  · cases ran
  · cases ran

private theorem pathExists_done {path : Path} {result : Except KernelRegistryError Bool} :
    (pathExists path : Action Bool).Ends disk result disk' ↔
      result = .ok (disk.fault.isNone ∧ disk.tree.entries path ≠ none) ∧ disk' = disk.next := by
  unfold Attempt.Ends pathExists
  rw [Prod.mk.injEq]
  exact and_congr eq_comm eq_comm

/-- A call that fails before it changes the registry leaves it as it was. -/
theorem commit_ends {prepare : Registry → Action Registry} {result : Except KernelRegistryError Unit} :
    (commit world prepare).Ends (registry, disk) result (registry', disk') ↔
      (∃ e, (prepare registry).Ends disk (.error e) disk' ∧ result = .error e ∧ registry' = registry) ∨
        ∃ between, (prepare registry).Ends disk (.ok registry') between ∧
          (registry'.save world).Ends between result disk' := by
  unfold commit
  rw [Attempt.bind_ends]
  constructor
  · rintro (⟨e, got, -⟩ | ⟨⟨_, _⟩, ⟨_, _⟩, got, ran⟩)
    · simp at got
    · obtain ⟨same, moved⟩ := Attempt.get_ends.mp got
      cases same
      cases moved
      rcases Attempt.bind_ends.mp ran with ⟨e, failed, rfl⟩ | ⟨changed, ⟨_, between⟩, done, changing⟩
      · obtain ⟨failed, rfl⟩ := Attempt.onSecond_ends.mp failed
        exact .inl ⟨e, failed, rfl, rfl⟩
      · rcases Attempt.bind_ends.mp changing with ⟨e, failed, -⟩ | ⟨⟨⟩, ⟨_, _⟩, modified, saving⟩
        · simp at failed
        · obtain ⟨-, moved⟩ := Attempt.modify_ends.mp modified
          cases moved
          obtain ⟨saved, rfl⟩ := Attempt.onSecond_ends.mp saving
          exact .inr ⟨between, (Attempt.onSecond_ends.mp done).1, saved⟩
  · rintro (⟨e, failed, rfl, rfl⟩ | ⟨between, done, saved⟩)
    · refine .inr ⟨_, _, Attempt.get_ends.mpr ⟨rfl, rfl⟩, ?_⟩
      exact Attempt.bind_failed (Attempt.onSecond_ends.mpr ⟨failed, rfl⟩)
    · refine .inr ⟨_, _, Attempt.get_ends.mpr ⟨rfl, rfl⟩, ?_⟩
      refine Attempt.bind_next (Attempt.onSecond_ends.mpr ⟨done, rfl⟩) ?_
      refine Attempt.bind_next (Attempt.modify_ends.mpr ⟨rfl, rfl⟩) ?_
      exact Attempt.onSecond_ends.mpr ⟨saved, rfl⟩

theorem registering_ok {changed : Registry} (ends : (registering sha256 world version registry).Ends disk (.ok changed) disk') :
    ∃ found, (discover sha256 world registry.kernelDir version).Ends disk (.ok found) disk' ∧
      changed = registry.insert version found.1 found.2 := by
  obtain ⟨⟨known, hashes⟩, between, found, done⟩ := Attempt.bind_ok.mp ends
  obtain ⟨same, rfl⟩ := Attempt.pure_ends.mp done
  exact ⟨_, found, Except.ok.inj same⟩

theorem choosing_ok {changed : Registry} (ends : (choosing version registry).Ends disk (.ok changed) disk') :
    changed = registry.withDefault version := by
  obtain ⟨⟨⟩, between, -, done⟩ := Attempt.bind_ok.mp ends
  exact Except.ok.inj (Attempt.pure_ends.mp done).1

/-- A version that is not registered is refused as not found, and by nothing
else. -/
theorem choosing_error {e : KernelRegistryError} (ends : (choosing version registry).Ends disk (.error e) disk') :
    e = .versionNotFound version ∧ registry.versions version = none := by
  rcases Attempt.bind_ends.mp ends with ⟨e, failed, same⟩ | ⟨⟨⟩, between, -, done⟩
  · cases same
    unfold checkDefault at failed
    split at failed
    · simp at failed
    · rename_i unknown
      refine ⟨?_, Option.not_isSome_iff_eq_none.mp unknown⟩
      rcases Attempt.bind_ends.mp failed with ⟨e, impossible, -⟩ | ⟨there, between, -, rest⟩
      · simp [pathExists_done] at impossible
      · split at rest
        · simp at rest
        · exact Except.error.inj (Attempt.fail_ends.mp rest).1
  · simp at done

private theorem operation_failed {α : Type} {act : Disk → Except IoError α × Disk} {e : KernelRegistryError}
    (ends : (operation act : Action α).Ends disk (.error e) disk') : ∃ cause, e = .io cause := by
  unfold Attempt.Ends operation at ends
  split at ends
  · cases ends
    exact ⟨_, rfl⟩
  · split at ends
    · cases ends
    · cases ends
      exact ⟨_, rfl⟩

private theorem writeAll_failed {path : Path} {bytes : List UInt8} {e : KernelRegistryError}
    (ends : (writeAll path bytes : Action Unit).Ends disk (.error e) disk') : ∃ cause, e = .io cause := by
  unfold Attempt.Ends writeAll at ends
  split at ends
  · cases ends
  · split at ends
    · cases ends
      exact ⟨_, rfl⟩
    · cases ends

theorem save_error {e : KernelRegistryError} (ends : (registry.save world).Ends disk (.error e) disk') :
    e ≠ .versionNotFound version := by
  unfold Registry.save at ends
  dsimp only at ends
  split at ends
  · obtain ⟨same, -⟩ := Attempt.fail_ends.mp ends
    rw [Except.error.inj same]
    exact KernelRegistryError.noConfusion
  · rcases Attempt.bind_ends.mp ends with ⟨e, failed, same⟩ | ⟨⟨⟩, between, -, failed⟩
    · obtain ⟨cause, rfl⟩ := operation_failed failed
      rw [Except.error.inj same]
      exact KernelRegistryError.noConfusion
    · obtain ⟨cause, rfl⟩ := writeAll_failed failed
      exact KernelRegistryError.noConfusion

theorem resolve_keeps {profile : String} {result : Except KernelRegistryError Unit}
    (ends : ((Call.resolve version profile).perform sha256 world).Ends (registry, disk) result (registry', disk')) :
    registry' = registry := by
  rcases Attempt.bind_ends.mp ends with ⟨e, got, -⟩ | ⟨⟨_, _⟩, ⟨_, _⟩, got, resolving⟩
  · simp at got
  · obtain ⟨same, moved⟩ := Attempt.get_ends.mp got
    cases same
    cases moved
    rcases Attempt.bind_ends.mp resolving with ⟨e, failed, -⟩ | ⟨path, ⟨_, _⟩, done, last⟩
    · exact (Attempt.onSecond_ends.mp failed).2
    · have moved := (Attempt.pure_ends.mp last).2
      cases moved
      exact (Attempt.onSecond_ends.mp done).2

end Ends

/-! ## Errors, and the default version -/

section Sessions
variable {sha256 : List UInt8 → String}

/-- What fails changes nothing, unless it is the saving that fails. -/
theorem perform_error {call : Call} {world : World} {registry registry' : Registry} {disk' : Disk}
    {e : KernelRegistryError}
    (ends : (call.perform sha256 world).Ends (registry, world.disk) (.error e) (registry', disk')) :
    registry' = registry ∨ SavingFails sha256 registry world call := by
  cases call with
  | registerVersion version =>
    rcases commit_ends.mp ends with ⟨_, -, -, same⟩ | ⟨between, prepared, failed⟩
    · exact .inl same
    · exact .inr ⟨registry', between, e, disk', failed, prepared⟩
  | setDefault version =>
    rcases commit_ends.mp ends with ⟨_, -, -, same⟩ | ⟨between, prepared, failed⟩
    · exact .inl same
    · exact .inr ⟨registry', between, e, disk', failed, prepared⟩
  | resolve version profile => exact .inl (resolve_keeps ends)

/-- The default version is registered, if the calls tell so. -/
def Session.Settled (session : Session) : Prop :=
  session.settled = true → (session.registry.versions session.registry.defaultVersion).isSome

namespace Session.Settled
variable {session : Session} {world : World} {version : String} {result : Except KernelRegistryError Unit}
  {registry' : Registry} {disk' : Disk}

theorem register (settled : session.Settled)
    (ends : (registerVersion sha256 world version).Ends (session.registry, world.disk) result (registry', disk')) :
    Settled ⟨registry', session.settles (.registerVersion version) result⟩ := by
  rcases commit_ends.mp ends with ⟨e, -, rfl, rfl⟩ | ⟨between, prepared, -⟩
  · exact settled
  · obtain ⟨found, -, rfl⟩ := registering_ok prepared
    intro told
    change (Function.update session.registry.versions version (some found.1) session.registry.defaultVersion).isSome
    by_cases same : session.registry.defaultVersion = version
    · rw [same, Function.update_self]
      rfl
    · rw [Function.update_of_ne same]
      cases result with
      | error e => exact settled told
      | ok done =>
        have before : session.settled = true := by simpa [settles, Ne.symm same] using told
        exact settled before

theorem choose (settled : session.Settled)
    (ends : (setDefault world version).Ends (session.registry, world.disk) result (registry', disk')) :
    Settled ⟨registry', session.settles (.setDefault version) result⟩ := by
  rcases commit_ends.mp ends with ⟨e, failed, rfl, rfl⟩ | ⟨between, prepared, saving⟩
  · obtain ⟨rfl, unknown⟩ := choosing_error failed
    intro told
    have before : session.settled = true := by simpa [settles, refused, unknown] using told
    exact settled before
  · have changed := choosing_ok prepared
    subst changed
    intro told
    by_cases known : (session.registry.versions version).isSome
    · exact known
    · have turned : refused result = true := by
        dsimp only [settles] at told
        rw [if_neg known, Bool.and_eq_true] at told
        exact told.2
      -- after the check only the saving fails, and it finds no version missing
      unfold refused at turned
      split at turned
      · exact absurd rfl (save_error saving)
      · cases turned

theorem next (settled : session.Settled) (event : Call × World) : (session.next sha256 event).Settled := by
  obtain ⟨call, world⟩ := event
  obtain ⟨result, ⟨registry', disk'⟩, ends, same⟩ : ∃ result after,
      (call.perform sha256 world).Ends (session.registry, world.disk) result after ∧
      session.next sha256 (call, world) = ⟨after.1, session.settles call result⟩ := ⟨_, _, rfl, rfl⟩
  rw [same]
  cases call with
  | registerVersion version => exact settled.register ends
  | setDefault version => exact settled.choose ends
  | resolve version profile =>
    cases resolve_keeps ends
    exact settled

theorem run (registry : Registry) (events : List (Call × World)) : (Session.run sha256 registry events).Settled := by
  have initial : Session.Settled ⟨registry, false⟩ := fun told => by cases told
  unfold Session.run
  generalize Session.mk registry false = session at initial
  induction events generalizing session with
  | nil => exact initial
  | cons event events ih => exact ih _ (initial.next event)

end Session.Settled

theorem findable_of_registered {registry : Registry} (known : (registry.versions registry.defaultVersion).isSome) :
    Findable registry := by
  obtain ⟨version, there⟩ := Option.isSome_iff_exists.mp known
  refine ⟨version, there, fun profile listed disk free present => ?_⟩
  unfold KernelRegistry.resolveDefault KernelRegistry.resolveVersion
  rw [if_pos known, there]
  dsimp only
  rw [if_neg (not_not_intro listed)]
  refine Attempt.bind_next (pathExists_done.mpr ⟨rfl, rfl⟩) ?_
  rw [if_pos (by simp [free, present])]
  exact Attempt.pure_ends.mpr ⟨rfl, rfl⟩

end Sessions

/-! ## The recorded hash -/

theorem kernelProfile_base {name : String} : kernelProfile name = some "base" ↔ name = "vmlinux-base" := by
  unfold kernelProfile
  rw [Option.map_eq_some_iff]
  simp only [List.dropPrefix?_eq_some_iff, beq_iff_eq, exists_eq_right]
  constructor
  · rintro ⟨rest, letters, base⟩
    rw [← String.toList_inj, letters, ← String.toList_ofList (l := rest), base]
    rfl
  · rintro rfl
    exact ⟨"base".toList, rfl, rfl⟩

namespace Walk
variable {sha256 : List UInt8 → String} {dir : Path} {walk walk' : Walk} {disk disk' : Disk} {name : String}
  {names : List String}

/-- What the walk makes of a file whose hash is known. -/
def step (hash : String → String) (walk : Walk) (name : String) : Walk :=
  match kernelProfile name with
  | none => walk
  | some profile => walk.add profile (hash name)

theorem visit_done (ends : (visit sha256 dir walk name).Ends disk (.ok walk') disk') :
    walk' = walk.step (digest sha256 (contents disk.tree dir)) name ∧ disk'.tree = disk.tree := by
  obtain ⟨⟨⟩, between, came, rest⟩ := Attempt.bind_ok.mp ends
  have moved := operation_done came
  cases moved
  unfold step
  split at rest
  · obtain ⟨same, rfl⟩ := Attempt.pure_ends.mp rest
    exact ⟨Except.ok.inj same, rfl⟩
  · obtain ⟨hash, last, computed, done⟩ := Attempt.bind_ok.mp rest
    obtain ⟨rfl, kept⟩ := computeSha256_done computed
    obtain ⟨same, rfl⟩ := Attempt.pure_ends.mp done
    exact ⟨Except.ok.inj same, kept⟩

theorem all_done (ends : (names.foldlM (visit sha256 dir) walk).Ends disk (.ok walk') disk') :
    walk' = names.foldl (step (digest sha256 (contents disk.tree dir))) walk ∧ disk'.tree = disk.tree := by
  induction names generalizing walk disk with
  | nil =>
    obtain ⟨same, rfl⟩ := Attempt.pure_ends.mp ends
    exact ⟨Except.ok.inj same, rfl⟩
  | cons name names ih =>
    obtain ⟨next, between, first, rest⟩ := Attempt.bind_ok.mp ends
    obtain ⟨rfl, kept⟩ := visit_done first
    have later := ih rest
    rw [kept] at later
    exact later

variable {hash : String → String}

theorem step_baseHash : (walk.step hash name).baseHash =
    if name = "vmlinux-base" then some (hash name) else walk.baseHash := by
  unfold step
  cases named : kernelProfile name with
  | none =>
    have other : name ≠ "vmlinux-base" := fun same => by
      rw [kernelProfile_base.mpr same] at named
      cases named
    exact (if_neg other).symm
  | some profile =>
    have base : profile = "base" ↔ name = "vmlinux-base" := by
      rw [← kernelProfile_base, named, Option.some.injEq]
    simp only [add, base]

/-- The base kernel is found wherever it stands in the listing. -/
theorem baseHash_eq : (names.foldl (step hash) walk).baseHash =
    if "vmlinux-base" ∈ names then some (hash "vmlinux-base") else walk.baseHash := by
  induction names generalizing walk with
  | nil => simp
  | cons name names ih =>
    rw [List.foldl_cons, ih, step_baseHash]
    by_cases later : "vmlinux-base" ∈ names
    · simp [later]
    · by_cases same : name = "vmlinux-base"
      · simp [same]
      · simp [later, same, Ne.symm same]

/-- A hash that was recorded is that of a kernel of the listing. -/
theorem mem_step {entry : String × String} (member : entry ∈ (walk.step hash name).profileHashes) :
    entry ∈ walk.profileHashes ∨ (kernelProfile name).isSome ∧ entry.2 = hash name := by
  unfold step at member
  split at member
  · exact .inl member
  · rename_i profile named
    rcases List.mem_cons.mp member with rfl | kept
    · exact .inr ⟨by rw [named]; rfl, rfl⟩
    · exact .inl (List.mem_of_mem_filter kept)

theorem mem_profileHashes {entry : String × String} (member : entry ∈ (names.foldl (step hash) walk).profileHashes) :
    entry ∈ walk.profileHashes ∨ ∃ name ∈ names, (kernelProfile name).isSome ∧ entry.2 = hash name := by
  induction names generalizing walk with
  | nil => exact .inl member
  | cons name names ih =>
    rcases ih member with early | ⟨later, there, found⟩
    · rcases mem_step early with before | found
      · exact .inl before
      · exact .inr ⟨name, List.mem_cons_self, found⟩
    · exact .inr ⟨later, List.mem_cons_of_mem _ there, found⟩

theorem step_ne_nil (kernel : (kernelProfile name).isSome ∨ walk.profileHashes ≠ []) :
    (walk.step hash name).profileHashes ≠ [] := by
  unfold step
  split
  · rename_i other
    rw [other] at kernel
    simpa using kernel
  · exact List.cons_ne_nil _ _

theorem profileHashes_ne_nil (kernel : (∃ name ∈ names, (kernelProfile name).isSome) ∨ walk.profileHashes ≠ []) :
    (names.foldl (step hash) walk).profileHashes ≠ [] := by
  induction names generalizing walk with
  | nil => simpa using kernel
  | cons name names ih =>
    refine ih ?_
    rcases kernel with ⟨found, there, kernel⟩ | before
    · rcases List.mem_cons.mp there with rfl | later
      · exact .inr (step_ne_nil (.inl kernel))
      · exact .inl ⟨found, later, kernel⟩
    · exact .inr (step_ne_nil (.inr before))

variable {order order' : HashOrder} {names' : List String}

theorem base_isSome : (kernelProfile "vmlinux-base").isSome := by rw [kernelProfile_base.mpr rfl]; rfl

theorem hash_base (base : "vmlinux-base" ∈ names) :
    (names.foldl (step hash) start).hash order = hash "vmlinux-base" := by
  rw [Walk.hash, baseHash_eq, if_pos base]
  rfl

/-- Where all kernels have one hash, the order of the map does not count. -/
theorem hash_agreed {kernel : String} (there : kernel ∈ names) (named : (kernelProfile kernel).isSome)
    (agreed : ∀ other ∈ names, (kernelProfile other).isSome → hash other = hash kernel) :
    (names.foldl (step hash) start).hash order = hash kernel := by
  by_cases base : "vmlinux-base" ∈ names
  · rw [hash_base base]
    exact agreed _ base base_isSome
  · rw [Walk.hash, baseHash_eq, if_neg base]
    have perm := order.perm (names.foldl (step hash) start).profileHashes
    have some : order.arrange (names.foldl (step hash) start).profileHashes ≠ [] := fun empty => by
      rw [empty] at perm
      exact profileHashes_ne_nil (.inl ⟨kernel, there, named⟩) perm.symm.eq_nil
    obtain ⟨entry, rest, arranged⟩ := List.exists_cons_of_ne_nil some
    have member : entry ∈ (names.foldl (step hash) start).profileHashes := by
      rw [← perm.mem_iff, arranged]
      exact List.mem_cons_self
    rcases mem_profileHashes member with before | ⟨other, present, isKernel, found⟩
    · cases before
    · rw [arranged]
      exact found.trans (agreed other present isKernel)

theorem hash_bare (bare : ∀ name ∈ names, ¬ (kernelProfile name).isSome) :
    (names.foldl (step hash) start).hash order = "" := by
  have base : "vmlinux-base" ∉ names := fun there => bare _ there base_isSome
  have empty : (names.foldl (step hash) start).profileHashes = [] := by
    refine List.eq_nil_iff_forall_not_mem.mpr fun entry member => ?_
    rcases mem_profileHashes member with before | ⟨name, there, kernel, -⟩
    · cases before
    · exact bare name there kernel
  rw [Walk.hash, baseHash_eq, if_neg base, empty, (order.perm []).eq_nil]
  rfl

/-- The hash is one of the set of names, not of their order. -/
theorem hash_congr (same : ∀ name, name ∈ names ↔ name ∈ names')
    (decisive : "vmlinux-base" ∈ names ∨ ∀ one ∈ names, ∀ other ∈ names,
      (kernelProfile one).isSome → (kernelProfile other).isSome → hash one = hash other) :
    (names.foldl (step hash) start).hash order = (names'.foldl (step hash) start).hash order' := by
  rcases decisive with base | agreed
  · rw [hash_base base, hash_base ((same _).mp base)]
  · by_cases bare : ∀ name ∈ names, ¬ (kernelProfile name).isSome
    · rw [hash_bare bare, hash_bare fun name there => bare name ((same name).mpr there)]
    · push Not at bare
      obtain ⟨kernel, there, named⟩ := bare
      rw [hash_agreed there named fun other present isKernel => agreed other present kernel there isKernel named]
      refine (hash_agreed ((same kernel).mp there) named fun other present isKernel => ?_).symm
      exact agreed other ((same other).mpr present) kernel there isKernel named

end Walk

section Recording
variable {sha256 : List UInt8 → String} {world : World} {kernelDir : Path} {version : String} {disk' : Disk}
  {found : KernelVersion × List (String × String)} {registry registry' : Registry}

theorem discover_done (ends : (discover sha256 world kernelDir version).Ends world.disk (.ok found) disk') :
    world.disk.tree.entries (versionDir kernelDir version) = some .directory ∧
      found.1.hash = ((world.listing (versionDir kernelDir version)).foldl
        (Walk.step (digest sha256 (contents world.disk.tree (versionDir kernelDir version)))) .start).hash world.order := by
  obtain ⟨there, between, checked, rest⟩ := Attempt.bind_ok.mp ends
  obtain ⟨-, rfl⟩ := pathExists_done.mp checked
  split at rest
  · obtain ⟨names, opened, listed, walking⟩ := Attempt.bind_ok.mp rest
    obtain ⟨directory, rfl, kept⟩ := readDir_done listed
    obtain ⟨walk, last, walked, done⟩ := Attempt.bind_ok.mp walking
    obtain ⟨rfl, -⟩ := Walk.all_done walked
    obtain ⟨same, -⟩ := Attempt.pure_ends.mp done
    rw [Except.ok.inj same, kept]
    exact ⟨directory, rfl⟩
  · simp at rest

theorem registerVersion_done
    (ends : (registerVersion sha256 world version).Ends (registry, world.disk) (.ok ()) (registry', disk')) :
    world.disk.tree.entries (versionDir registry.kernelDir version) = some .directory ∧
      registry'.getHash version = some (((world.listing (versionDir registry.kernelDir version)).foldl
        (Walk.step (digest sha256 (contents world.disk.tree (versionDir registry.kernelDir version)))) .start).hash
          world.order) := by
  rcases commit_ends.mp ends with ⟨e, -, failed, -⟩ | ⟨between, prepared, -⟩
  · cases failed
  · obtain ⟨found, discovered, rfl⟩ := registering_ok prepared
    obtain ⟨directory, hash⟩ := discover_done discovered
    refine ⟨directory, ?_⟩
    rw [← hash]
    simp [KernelRegistry.getHash, Registry.insert]

theorem determined_of_decisive {entries : String → Option Entry} (decisive : Decisive sha256 entries) :
    Determined sha256 entries := by
  intro registry other version version' world world' registry' other' disk disk' here there one two
  obtain ⟨directory, recorded⟩ := registerVersion_done one
  obtain ⟨directory', recorded'⟩ := registerVersion_done two
  rw [here] at recorded
  rw [there] at recorded'
  have listed := (world.lists _ directory).2
  have listed' := (world'.lists _ directory').2
  simp only [here] at listed
  simp only [there] at listed'
  rw [recorded, recorded']
  refine congrArg some (Walk.hash_congr (fun name => (listed name).trans (listed' name).symm) ?_)
  rcases decisive with base | agreed
  · exact .inl ((listed _).mpr base)
  · exact .inr fun one here other there => agreed one other ((listed one).mp here) ((listed other).mp there)

end Recording

/-- Whatever the calls met: an error leaves the registry as it was, unless it is
the saving that fails; a default version that is registered is found; and a
directory with a base kernel, or with kernels that are all the same, has one
hash. -/
theorem registry_consistent (sha256 : List UInt8 → String) (registry : Registry) (events : List (Call × World)) :
    (∀ (call : Call) (world : World) e registry' disk',
      (call.perform sha256 world).Ends ((Session.run sha256 registry events).registry, world.disk) (.error e)
        (registry', disk') → registry' = (Session.run sha256 registry events).registry ∨
          SavingFails sha256 (Session.run sha256 registry events).registry world call) ∧
      ((Session.run sha256 registry events).settled = true →
        Findable (Session.run sha256 registry events).registry) ∧
      ∀ entries, Decisive sha256 entries → Determined sha256 entries :=
  ⟨fun _ _ _ _ _ ends => perform_error ends,
    fun told => findable_of_registered (Session.Settled.run registry events told),
    fun _ decisive => determined_of_decisive decisive⟩

/-! ## Where the calls promise no more -/

/-- The directory of one version, with two kernels and no base kernel. -/
def twoKernels : Tree where
  entries path :=
    if path = [] ∨ path = ["v1"] then some .directory
    else if path = ["v1", "vmlinux-a"] then some (.file [1])
    else if path = ["v1", "vmlinux-b"] then some (.file [2])
    else none
  rooted path name present := by
    rcases path with _ | ⟨first, _ | ⟨second, rest⟩⟩
    · simp
    · by_cases version : first = "v1"
      · simp [version]
      · simp [version] at present
    · simp at present

def twoNames (dir : Path) : List String :=
  if dir = [] then ["v1"] else if dir = ["v1"] then ["vmlinux-a", "vmlinux-b"] else []

def inOrder (order : HashOrder) (faults : List (Option Nat)) : World where
  disk := ⟨twoKernels, [], faults, 4096⟩
  listing := twoNames
  lists dir directory := by
    rcases dir with _ | ⟨first, _ | ⟨second, rest⟩⟩
    · refine ⟨by simp [twoNames], fun name => ?_⟩
      simp [twoNames, contents, twoKernels]
    · by_cases version : first = "v1"
      · subst version
        refine ⟨by simp [twoNames], fun name => ?_⟩
        by_cases one : name = "vmlinux-a"
        · simp [twoNames, contents, twoKernels, one]
        · simp [twoNames, contents, twoKernels, one]
      · simp [twoKernels, version] at directory
    · simp only [twoKernels] at directory
      split_ifs at directory <;> simp_all
  order := order
  toToml _ := some []

def insertionOrder : HashOrder := ⟨id, fun _ => .rfl⟩

def reverseOrder : HashOrder := ⟨List.reverse, List.reverse_perm⟩

/-- The digests of the two kernels. -/
def kernelDigests (bytes : List UInt8) : String :=
  if bytes = [1] then "4bf5122f344554c53bde2ebb8cd2b7e3d1600ad631c385a5d7cce23c7785459a"
  else "dbc1b4c900ffe48d575b5da5c638040125f65db0fe3e24494b76ea986457d986"

/-- The registry of a directory that has no list of versions. -/
def opened : Registry := ⟨⟨kernelDefaultVersion, fun _ => none, []⟩, fun _ => []⟩

def registered : Registry := (Session.run kernelDigests opened [(.registerVersion "1", inOrder insertionOrder [])]).registry

/-- A default version is set although its saving fails; one that is not
registered is set, and then not found with its kernel there; and without a base
kernel the recorded hash is the one that the hash map yields first. -/
theorem registry_inconsistent :
    (∃ registry disk, (setDefault (inOrder insertionOrder [some 0]) "1").Ends
        (registered, (inOrder insertionOrder [some 0]).disk) (.error (.io .other)) (registry, disk) ∧
      registry.defaultVersion ≠ registered.defaultVersion) ∧
    (∃ registry disk, (setDefault (inOrder insertionOrder []) "1").Ends
        (opened, (inOrder insertionOrder []).disk) (.ok ()) (registry, disk) ∧
      disk.fault = none ∧
      disk.tree.entries (kernelFile registry.kernelDir registry.defaultVersion "a") = some (.file [1]) ∧
      (registry.resolveDefault "a").Ends disk (.error (.versionNotFound "1")) disk) ∧
    ∃ one other disk disk',
      (registerVersion kernelDigests (inOrder insertionOrder []) "1").Ends
        (opened, (inOrder insertionOrder []).disk) (.ok ()) (one, disk) ∧
      (registerVersion kernelDigests (inOrder reverseOrder []) "1").Ends
        (opened, (inOrder reverseOrder []).disk) (.ok ()) (other, disk') ∧
      one.getHash "1" ≠ other.getHash "1" := by
  refine ⟨⟨_, _, rfl, by decide +kernel⟩, ⟨_, _, rfl, rfl, by decide +kernel, rfl⟩, ?_⟩
  exact ⟨_, _, _, _, rfl, rfl, by decide +kernel⟩

end TinyMachine.KernelRegistration
