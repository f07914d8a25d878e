import Mathlib.Algebra.BigOperators.Group.List.Basic
import TinyMachine.LayerResolution
import TinyMachine.Lib.Overflow
import TinyMachine.Vm

/-! What the composer computes of a plan beside what the registry put into it:
the composition key, the memory and the kernel profile. -/
namespace TinyMachine.Composer
open Lib Layers

/-- `to_hex` -/
def toHex (digest : List UInt8) : String :=
  String.ofList (digest.flatMap fun byte => [Nat.digitChar (byte.toNat / 16), Nat.digitChar (byte.toNat % 16)])

/-- `Composer::composition_key` -/
def compositionKey (blake3 : List UInt8 → List UInt8) (plan : CompositionPlan) : String :=
  toHex (blake3 (codeBytes (plan.kernelProfile ++ ":" ++ ",".intercalate (plan.layers.map (·.hash)))))

def calculateMemory (mode : Overflow) (layers : List LayerMetadata) : Option UInt64 := do
  let layerMemory ← layers.foldlM (fun sum layer => mode.add64 sum layer.memoryMb) 0
  let total ← mode.add64 64 layerMemory
  return max total 128

def gpuProfiles : List String := ["gpu-nvidia", "gpu-vfio", "gpu-vk"]

/-- One of these names is provided. No letter outside ASCII has one of theirs
for its lower case. -/
def provides (names : List String) (layer : LayerMetadata) : Bool :=
  layer.provides.any fun p => String.ofList (p.toList.map Char.toLower) ∈ names

/-- A profile that is named, by priority, or else one for a library. -/
def determineKernelProfile (layers : List LayerMetadata) : Option String :=
  match gpuProfiles.find? fun profile => layers.any fun layer => layer.kernelProfile = some profile with
  | some profile => some profile
  | none =>
    if layers.any (provides ["pytorch", "torch"]) then some "gpu-nvidia"
    else if layers.any (provides ["tinygrad"]) then some "gpu-vk"
    else none

end TinyMachine.Composer

namespace TinyMachine.Layers
open Lib Composer

namespace LayerRegistry

/-- The metadata of the layers of a plan. -/
def metadataOf (registry : LayerRegistry) (layers : List LayerRef) : List LayerMetadata :=
  layers.filterMap registry.metadataForLayer

/-- The key in the plan, which the registry hashes under a prefix. -/
def planKey (blake3 : List UInt8 → List UInt8) (plan : CompositionPlan) : String :=
  plan.compositionKey fun text => toHex (blake3 (codeBytes text))

/-- Both compute the same of a plan, and its layers have one profile in any
order. -/
structure FactsAgree (registry : LayerRegistry) (blake3 : List UInt8 → List UInt8) (mode : Overflow)
    (plan : CompositionPlan) : Prop where
  key : compositionKey blake3 plan = planKey blake3 plan
  memory : calculateMemory mode (registry.metadataOf plan.layers) = some plan.memoryMb
  profile : (determineKernelProfile (registry.metadataOf plan.layers)).getD "base" = plan.kernelProfile
  order : ∀ layers, layers.Perm plan.layers → registry.kernelProfileFromLayers layers = plan.kernelProfile ∧
    determineKernelProfile (registry.metadataOf layers) = determineKernelProfile (registry.metadataOf plan.layers)

/-! ## The key -/

theorem toHex_digits (digest : List UInt8) : 'o' ∉ (toHex digest).toList := by
  have digit (n : Nat) (small : n < 16) : Nat.digitChar n ≠ 'o' := by
    revert n
    decide
  rw [toHex, String.toList_ofList, List.mem_flatMap]
  rintro ⟨byte, -, member⟩
  have bound := byte.toNat_lt
  rcases List.mem_cons.mp member with high | low
  · exact digit _ (by omega) high.symm
  · exact digit _ (Nat.mod_lt _ (by decide)) (List.mem_singleton.mp low).symm

/-- The prefix of the one is in no key of the other. -/
theorem keys_differ (blake3 : List UInt8 → List UInt8) (plan : CompositionPlan) :
    compositionKey blake3 plan ≠ planKey blake3 plan := by
  intro same
  refine toHex_digits _ (?_ : 'o' ∈ (compositionKey blake3 plan).toList)
  rw [same, planKey, CompositionPlan.compositionKey, String.toList_append]
  exact List.mem_append_left _ (by decide)

/-! ## The memory -/

section Memory
variable {mode : Overflow} {layers : List LayerMetadata} {start total : UInt64}

def memories (layers : List LayerMetadata) : List Nat := layers.map fun layer => layer.memoryMb.toNat

theorem add64_eq_some {a b c : UInt64} : mode.add64 a b = some c ↔
    (a.toNat + b.toNat < 2 ^ 64 ∨ mode = .wrapping) ∧ a + b = c := Overflow.fit_eq_some

theorem sum_memory : layers.foldlM (fun sum layer => mode.add64 sum layer.memoryMb) start = some total ↔
    (start.toNat + (memories layers).sum < 2 ^ 64 ∨ mode = .wrapping) ∧
      total.toNat = (start.toNat + (memories layers).sum) % 2 ^ 64 := by
  induction layers generalizing start with
  | nil =>
    have bound := start.toNat_lt
    rw [List.foldlM_nil, memories, List.map_nil, List.sum_nil, Nat.add_zero, Nat.mod_eq_of_lt bound, UInt64.toNat_inj]
    exact Option.some_inj.trans (eq_comm.trans (and_iff_right (.inl bound)).symm)
  | cons layer rest ih =>
    have total : (memories (layer :: rest)).sum = layer.memoryMb.toNat + (memories rest).sum := List.sum_cons
    rw [List.foldlM_cons, Option.bind_eq_bind, Option.bind_eq_some_iff, total]
    simp only [ih, add64_eq_some]
    constructor
    · rintro ⟨_, ⟨fits, rfl⟩, others, same⟩
      rw [UInt64.toNat_add] at others same
      refine ⟨?_, by omega⟩
      rcases fits with fits | wraps
      · exact others.imp_left fun others => by omega
      · exact .inr wraps
    · rintro ⟨fits, same⟩
      refine ⟨_, ⟨fits.imp_left fun fits => by omega, rfl⟩, ?_⟩
      rw [UInt64.toNat_add]
      exact ⟨fits.imp_left fun fits => by omega, by omega⟩

theorem calculateMemory_eq : calculateMemory mode layers = some total ↔
    (64 + (memories layers).sum < 2 ^ 64 ∨ mode = .wrapping) ∧
      total.toNat = max ((64 + (memories layers).sum) % 2 ^ 64) 128 := by
  have zero : (0 : UInt64).toNat = 0 := rfl
  have base : (64 : UInt64).toNat = 64 := rfl
  have least : (128 : UInt64).toNat = 128 := rfl
  simp only [calculateMemory, Option.bind_eq_bind, Option.bind_eq_some_iff, sum_memory, add64_eq_some, zero,
    Nat.zero_add]
  constructor
  · rintro ⟨sum, ⟨fits, value⟩, _, ⟨more, rfl⟩, rest⟩
    obtain rfl := Option.some.inj rest
    rw [UInt64.toNat_max, UInt64.toNat_add, base, least, value]
    refine ⟨?_, by omega⟩
    rcases fits with fits | wraps
    · exact more.imp_left fun more => by omega
    · exact .inr wraps
  · rintro ⟨fits, value⟩
    refine ⟨.ofNat (memories layers).sum, ⟨fits.imp_left fun fits => by omega, UInt64.toNat_ofNat'⟩, _,
      ⟨fits.imp_left fun fits => ?_, rfl⟩, ?_⟩
    · rw [base, UInt64.toNat_ofNat']
      omega
    · refine congrArg some (UInt64.toNat_inj.mp ?_)
      rw [UInt64.toNat_max, UInt64.toNat_add, base, least, UInt64.toNat_ofNat', value]
      omega

theorem memoryMb_eq (registry : LayerRegistry) (layers : List LayerRef) :
    (registry.memoryMbFromLayers layers).toNat = (memories (registry.metadataOf layers)).foldl max 128 := by
  have least : (128 : Nat) = (128 : UInt64).toNat := rfl
  rw [least]
  unfold memoryMbFromLayers
  generalize (128 : UInt64) = start
  induction layers generalizing start with
  | nil => rfl
  | cons layer rest ih =>
    rw [List.foldl_cons, ih, metadataOf, metadataOf, memories, memories]
    cases found : registry.metadataForLayer layer with
    | none => rw [List.filterMap_cons_none found]
    | some metadata => rw [List.filterMap_cons_some found, List.map_cons, List.foldl_cons, UInt64.toNat_max]

/-- The layers have 64 MB in all, or a sum that wraps around to what the largest
has. -/
def MemoryFits (mode : Overflow) (layers : List LayerMetadata) : Prop :=
  (memories layers).sum ≤ 64 ∨ mode = .wrapping ∧ 2 ^ 64 ≤ 64 + (memories layers).sum ∧
    max ((64 + (memories layers).sum) % 2 ^ 64) 128 = (memories layers).foldl max 128

theorem foldl_max_bounds (sizes : List Nat) (start : Nat) :
    start ≤ sizes.foldl max start ∧ sizes.foldl max start ≤ max start sizes.sum := by
  induction sizes generalizing start with
  | nil => simp
  | cons size sizes ih =>
    obtain ⟨low, high⟩ := ih (max start size)
    rw [List.foldl_cons, List.sum_cons]
    omega

/-- Both memories are the same exactly when the layers fit. -/
theorem memory_agrees_iff {registry : LayerRegistry} {layers : List LayerRef} :
    calculateMemory mode (registry.metadataOf layers) = some (registry.memoryMbFromLayers layers) ↔
      MemoryFits mode (registry.metadataOf layers) := by
  obtain ⟨low, high⟩ := foldl_max_bounds (memories (registry.metadataOf layers)) 128
  rw [calculateMemory_eq, memoryMb_eq, MemoryFits]
  generalize (memories (registry.metadataOf layers)).sum = sum at high ⊢
  generalize (memories (registry.metadataOf layers)).foldl max 128 = greatest at low high ⊢
  cases mode with
  | checked =>
    simp only [reduceCtorEq, or_false, false_and]
    omega
  | wrapping =>
    simp only [or_true, true_and]
    omega

end Memory
/-! ## The profile -/

section Profiles
variable {registry : LayerRegistry} {layers other : List LayerMetadata}

/-- The profiles other than `base` that the layers name. -/
def profiles (layers : List LayerMetadata) : List String :=
  layers.filterMap fun layer => layer.kernelProfile.filter (· ≠ "base")

theorem kernelProfile_eq (registry : LayerRegistry) (layers : List LayerRef) :
    registry.kernelProfileFromLayers layers = (profiles (registry.metadataOf layers)).head?.getD "base" := by
  have first : (layers.findSome? fun layer =>
      ((registry.metadataForLayer layer).bind (·.kernelProfile)).filter (· ≠ "base")) =
        (profiles (registry.metadataOf layers)).head? := by
    rw [profiles, metadataOf, List.filterMap_filterMap, List.head?_filterMap]
    congr 1
    funext layer
    cases registry.metadataForLayer layer <;> rfl
  rw [kernelProfileFromLayers, first]

theorem mem_profiles_iff {profile : String} : profile ∈ profiles layers ↔
    profile ≠ "base" ∧ ∃ layer ∈ layers, layer.kernelProfile = some profile := by
  simp only [profiles, List.mem_filterMap, Option.filter_eq_some_iff, decide_eq_true_eq]
  constructor
  · rintro ⟨layer, member, named, other⟩
    exact ⟨other, layer, member, named⟩
  · rintro ⟨other, layer, member, named⟩
    exact ⟨layer, member, named, other⟩

/-- A library that asks for a GPU is provided. -/
def Accelerated (layers : List LayerMetadata) : Prop :=
  ∃ layer ∈ layers, provides ["pytorch", "torch"] layer = true ∨ provides ["tinygrad"] layer = true

/-- The first profile that is named is one for a GPU and none before it by
priority is named; or none is named and no library asks for one. -/
def FirstIsPreferred (layers : List LayerMetadata) : Prop :=
  (∃ before profile after, gpuProfiles = before ++ profile :: after ∧ (profiles layers).head? = some profile ∧
    ∀ other ∈ before, other ∉ profiles layers) ∨
  profiles layers = [] ∧ ¬ Accelerated layers

theorem named_iff {profile : String} (gpu : profile ∈ gpuProfiles) :
    (layers.any fun layer => layer.kernelProfile = some profile) = true ↔ profile ∈ profiles layers := by
  have other : profile ≠ "base" := by
    rintro rfl
    exact absurd gpu (by decide)
  simp [mem_profiles_iff, other]

/-- The profile that is found by priority. -/
theorem preferred_iff {profile : String} :
    (gpuProfiles.find? fun profile => layers.any fun layer => layer.kernelProfile = some profile) = some profile ↔
      ∃ before after, gpuProfiles = before ++ profile :: after ∧ profile ∈ profiles layers ∧
        ∀ other ∈ before, other ∉ profiles layers := by
  rw [List.find?_eq_some_iff_append]
  constructor
  · rintro ⟨named, before, after, split, earlier⟩
    have gpu : profile ∈ gpuProfiles := split ▸ List.mem_append_right _ List.mem_cons_self
    refine ⟨before, after, split, (named_iff gpu).mp named, fun other member there => ?_⟩
    have clear := earlier other member
    rw [(named_iff (split ▸ List.mem_append_left _ member)).mpr there] at clear
    cases clear
  · rintro ⟨before, after, split, named, earlier⟩
    have gpu : profile ∈ gpuProfiles := split ▸ List.mem_append_right _ List.mem_cons_self
    refine ⟨(named_iff gpu).mpr named, before, after, split, fun other member => ?_⟩
    have absent := mt (named_iff (split ▸ List.mem_append_left _ member)).mp (earlier other member)
    rw [Bool.not_eq_true] at absent
    rw [absent]
    rfl

theorem profile_agrees_iff : (determineKernelProfile layers).getD "base" = (profiles layers).head?.getD "base" ↔
    FirstIsPreferred layers := by
  unfold determineKernelProfile FirstIsPreferred
  split
  · next profile found =>
    obtain ⟨before, after, split, named, earlier⟩ := preferred_iff.mp found
    have first : (profiles layers).head? = some profile ↔ profile = (profiles layers).head?.getD "base" := by
      cases listed : profiles layers with
      | nil => exact absurd named (listed ▸ List.not_mem_nil)
      | cons one rest => exact Option.some_inj.trans eq_comm
    rw [Option.getD_some, ← first]
    constructor
    · exact fun leads => .inl ⟨before, profile, after, split, leads, earlier⟩
    · rintro (⟨others, one, rest, otherSplit, leads, otherEarlier⟩ | ⟨none, -⟩)
      · have again := preferred_iff.mpr ⟨others, rest, otherSplit, List.mem_of_mem_head? leads, otherEarlier⟩
        rw [found] at again
        rwa [Option.some.inj again]
      · rw [none] at named
        cases named
  · next none =>
    have absent (profile : String) (gpu : profile ∈ gpuProfiles) : profile ∉ profiles layers := fun there =>
      List.find?_eq_none.mp none profile gpu ((named_iff gpu).mpr there)
    have plain : ¬ ∃ before profile after, gpuProfiles = before ++ profile :: after ∧
        (profiles layers).head? = some profile ∧ ∀ other ∈ before, other ∉ profiles layers := by
      rintro ⟨before, profile, after, split, leads, -⟩
      exact absent profile (split ▸ List.mem_append_right _ List.mem_cons_self) (List.mem_of_mem_head? leads)
    rw [or_iff_right plain]
    have accelerated : Accelerated layers ↔ layers.any (provides ["pytorch", "torch"]) = true ∨
        layers.any (provides ["tinygrad"]) = true := by
      simp only [Accelerated, List.any_eq_true, ← exists_or, and_or_left]
    cases listed : profiles layers with
    | nil =>
      rw [accelerated]
      split
      · next torch => simp [torch]
      · split
        · next other tinygrad => simp [tinygrad]
        · next one two => simp [one, two]
    | cons first rest =>
      have there : first ∈ profiles layers := listed ▸ List.mem_cons_self
      have custom (gpu : String) (known : gpu ∈ gpuProfiles) : gpu ≠ first := by
        rintro rfl
        exact absent gpu known there
      refine iff_of_false ?_ (fun both => absurd both.1 (List.cons_ne_nil _ _))
      split
      · exact custom "gpu-nvidia" (by decide)
      · split
        · exact custom "gpu-vk" (by decide)
        · exact fun base => (mem_profiles_iff.mp there).1 base.symm

/-- All layers that name a profile name the same. -/
def OneProfile (layers : List LayerMetadata) : Prop :=
  ∀ one ∈ profiles layers, ∀ two ∈ profiles layers, one = two

theorem determineKernelProfile_perm (same : layers.Perm other) :
    determineKernelProfile layers = determineKernelProfile other := by
  simp only [determineKernelProfile, same.any_eq]

theorem profiles_perm (same : layers.Perm other) : (profiles layers).Perm (profiles other) := same.filterMap _

/-- The order of the layers does not matter to either of them exactly when they
name one profile at most. -/
theorem one_profile_iff {layers : List LayerRef} :
    (∀ other : List LayerRef, other.Perm layers →
      registry.kernelProfileFromLayers other = registry.kernelProfileFromLayers layers ∧
        determineKernelProfile (registry.metadataOf other) = determineKernelProfile (registry.metadataOf layers)) ↔
      OneProfile (registry.metadataOf layers) := by
  constructor
  · intro free
    have chosen (profile : String) (named : profile ∈ profiles (registry.metadataOf layers)) :
        profile = registry.kernelProfileFromLayers layers := by
      obtain ⟨other, metadata, member, own⟩ := mem_profiles_iff.mp named
      obtain ⟨layer, inside, found⟩ := List.mem_filterMap.mp member
      have first := (free _ (List.perm_cons_erase inside).symm).1
      have kept : metadata.kernelProfile.filter (· ≠ "base") = some profile := by simp [own, other]
      have front (rest : List LayerMetadata) : profiles (metadata :: rest) = profile :: profiles rest :=
        List.filterMap_cons_some kept
      rw [kernelProfile_eq, metadataOf, List.filterMap_cons_some found, front] at first
      exact first
    exact fun one there two elsewhere => (chosen one there).trans (chosen two elsewhere).symm
  · intro alone other same
    have metadata : (registry.metadataOf other).Perm (registry.metadataOf layers) := same.filterMap _
    refine ⟨?_, determineKernelProfile_perm metadata⟩
    have moved := profiles_perm metadata
    rw [kernelProfile_eq, kernelProfile_eq]
    cases listed : profiles (registry.metadataOf layers) with
    | nil =>
      rw [listed] at moved
      rw [moved.eq_nil]
    | cons one rest =>
      have leads : one ∈ profiles (registry.metadataOf layers) := listed ▸ List.mem_cons_self
      cases shuffled : profiles (registry.metadataOf other) with
      | nil =>
        have there := moved.mem_iff.mpr leads
        rw [shuffled] at there
        cases there
      | cons two others => exact alone two (moved.mem_iff.mp (shuffled ▸ List.mem_cons_self)) one leads

end Profiles
/-! ## Plans -/

/-- No plan has the key that the composer computes. Its memory is the same just
where the layers fit, its profile where the first one is preferred, and no
order of its layers matters where they name one profile. -/
theorem plan_facts_iff {registry : LayerRegistry} {lang code : String} {explicitDeps : List (String × String)}
    {plan : CompositionPlan} (blake3 : List UInt8 → List UInt8) (mode : Overflow)
    (resolved : registry.resolve lang code explicitDeps = .ok plan) :
    ¬ registry.FactsAgree blake3 mode plan ∧
      compositionKey blake3 plan ≠ planKey blake3 plan ∧
      (calculateMemory mode (registry.metadataOf plan.layers) = some plan.memoryMb ↔
        MemoryFits mode (registry.metadataOf plan.layers)) ∧
      ((determineKernelProfile (registry.metadataOf plan.layers)).getD "base" = plan.kernelProfile ↔
        FirstIsPreferred (registry.metadataOf plan.layers)) ∧
      ((∀ layers : List LayerRef, layers.Perm plan.layers → registry.kernelProfileFromLayers layers = plan.kernelProfile ∧
        determineKernelProfile (registry.metadataOf layers) = determineKernelProfile (registry.metadataOf plan.layers)) ↔
          OneProfile (registry.metadataOf plan.layers)) := by
  obtain ⟨base, version, runtime, cmdConfig, -, -, -, -, -, rfl⟩ := resolve_eq_ok.mp resolved
  refine ⟨fun agree => keys_differ blake3 _ agree.key, keys_differ blake3 _, memory_agrees_iff, ?_, one_profile_iff⟩
  dsimp only
  rw [kernelProfile_eq]
  exact profile_agrees_iff

/-- The digests of the two texts that are hashed of a plan with the base layer
and Python, whose layers have no hash. -/
def sampleBlake3 (text : List UInt8) : List UInt8 :=
  if text = codeBytes "base:," then
    [ 0x85, 0xd3, 0x31, 0x3f, 0xe2, 0x6d, 0xbd, 0x1d, 0x99, 0xc5, 0x18, 0x61, 0x52, 0x4f, 0xbf, 0x31,
      0xb0, 0x7a, 0xeb, 0x4a, 0x71, 0x90, 0x10, 0x51, 0x89, 0x52, 0xfc, 0xe9, 0x18, 0x81, 0x8c, 0xec ]
  else
    [ 0x52, 0x75, 0xd5, 0x6f, 0xec, 0x43, 0x86, 0x15, 0x70, 0x73, 0x7e, 0x59, 0xa9, 0xbe, 0x33, 0x2a,
      0xdb, 0x54, 0x35, 0xef, 0xd7, 0x50, 0x9f, 0x03, 0x4b, 0xdb, 0x0e, 0x7a, 0x9b, 0x57, 0x00, 0x09 ]

theorem no_dependency_facts : ∃ plan, twoVersions.resolve "python" "import os" [] = .ok plan ∧
    ¬ twoVersions.FactsAgree sampleBlake3 .checked plan ∧
      compositionKey sampleBlake3 plan ≠ planKey sampleBlake3 plan ∧
      (calculateMemory .checked (twoVersions.metadataOf plan.layers) = some plan.memoryMb ↔
        MemoryFits .checked (twoVersions.metadataOf plan.layers)) ∧
      ((determineKernelProfile (twoVersions.metadataOf plan.layers)).getD "base" = plan.kernelProfile ↔
        FirstIsPreferred (twoVersions.metadataOf plan.layers)) ∧
      ((∀ layers : List LayerRef, layers.Perm plan.layers →
        twoVersions.kernelProfileFromLayers layers = plan.kernelProfile ∧
        determineKernelProfile (twoVersions.metadataOf layers) =
          determineKernelProfile (twoVersions.metadataOf plan.layers)) ↔
        OneProfile (twoVersions.metadataOf plan.layers)) := by
  have ok : (twoVersions.resolve "python" "import os" []).toOption.isSome := by decide +kernel
  cases resolved : twoVersions.resolve "python" "import os" [] with
  | error e =>
    rw [resolved] at ok
    cases ok
  | ok plan => exact ⟨plan, rfl, plan_facts_iff sampleBlake3 .checked resolved⟩

/-- The keys of this plan differ, and 64 MB with those of each layer are more
than the 128 of the plan. -/
theorem sum_is_not_greatest :
    ¬ ∀ (registry : LayerRegistry) (lang code : String) (explicitDeps : List (String × String))
      (plan : CompositionPlan), registry.resolve lang code explicitDeps = .ok plan →
        registry.FactsAgree sampleBlake3 .checked plan := by
  intro law
  have facts : (twoVersions.resolve "python" "import os" []).toOption.map (fun plan =>
      (compositionKey sampleBlake3 plan, planKey sampleBlake3 plan, plan.memoryMb,
        calculateMemory .checked (twoVersions.metadataOf plan.layers))) =
      some ("85d3313fe26dbd1d99c51861524fbf31b07aeb4a719010518952fce918818cec",
        "compose:5275d56fec43861570737e59a9be332adb5435efd7509f034bdb0e7a9b570009", 128, some 192) := by
    decide +kernel
  cases resolved : twoVersions.resolve "python" "import os" [] with
  | error e =>
    rw [resolved] at facts
    cases facts
  | ok plan =>
    rw [resolved] at facts
    have inside := Option.some.inj facts
    obtain ⟨-, -, least, sum⟩ : _ ∧ _ ∧ plan.memoryMb = 128 ∧
        calculateMemory .checked (twoVersions.metadataOf plan.layers) = some 192 := by
      simpa only [Prod.mk.injEq] using inside
    have agree := (law _ _ _ _ plan resolved).memory
    rw [sum, least] at agree
    cases agree

end LayerRegistry
end TinyMachine.Layers
