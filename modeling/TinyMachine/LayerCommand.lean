import TinyMachine.LayerResolution

/-! The runtime a plan ships and the command it runs, which three lookups with
rules of their own choose. -/
namespace TinyMachine.Layers
open Lib Text Composer

/-- What the runtime of this layer is started with. -/
def LayerMetadata.cmdConfig (layer : LayerMetadata) : CmdConfig where
  interpreter := layer.interpreter
  args := layer.interpreterArgs
  exec := none

namespace LayerRegistry
variable {registry : LayerRegistry} {lang code name version : String} {explicitDeps : List (String × String)}
  {plan : CompositionPlan} {layerType : LayerType} {layer lead : LayerMetadata}

/-! ## The layer that names the latest version -/

/-- The first default layer of its name in the order of the map, or the first
of its name where none is default. -/
def Leads (registry : LayerRegistry) (lead : LayerMetadata) : Prop :=
  FirstOf LayerMetadata.name (registry.index.values.filter LayerMetadata.default) lead ∨
    (∀ layer ∈ registry.index.values, layer.name = lead.name → layer.default = false) ∧
      FirstOf LayerMetadata.name registry.index.values lead

theorem resolveVersion_latest : registry.resolveVersion name .latest = .ok version ↔
    ∃ lead, registry.Leads lead ∧ lead.name = name ∧ lead.version = version := by
  have defaults : registry.index.values.find? (fun layer => layer.name = name ∧ layer.default) =
      (registry.index.values.filter LayerMetadata.default).find? fun layer => layer.name = name := by
    rw [List.find?_filter]
    congr 1
    funext layer
    simp [and_comm]
  rw [resolveVersion, defaults]
  constructor
  · intro chosen
    split at chosen
    · rename_i lead found
      obtain ⟨first, named⟩ := find?_eq_some_iff_firstOf.mp found
      exact ⟨lead, .inl first, named, Except.ok.inj chosen⟩
    · rename_i none
      split at chosen
      · rename_i lead found
        obtain ⟨first, named⟩ := find?_eq_some_iff_firstOf.mp found
        refine ⟨lead, .inr ⟨fun layer held same => ?_, first⟩, named, Except.ok.inj chosen⟩
        by_contra flagged
        have kept := List.mem_filter.mpr ⟨held, (Bool.not_eq_false _).mp flagged⟩
        exact List.find?_eq_none.mp none layer kept (decide_eq_true (same.trans named))
      · cases chosen
  · rintro ⟨lead, first | ⟨plain, first⟩, named, rfl⟩
    · rw [find?_eq_some_iff_firstOf.mpr ⟨first, named⟩]
    · have none : (registry.index.values.filter LayerMetadata.default).find? (fun layer => layer.name = name) =
          none := by
        refine List.find?_eq_none.mpr fun layer kept same => ?_
        obtain ⟨held, flagged⟩ := List.mem_filter.mp kept
        rw [plain layer held ((of_decide_eq_true same).trans named.symm)] at flagged
        cases flagged
      rw [none, find?_eq_some_iff_firstOf.mpr ⟨first, named⟩]

/-! ## Installed versions -/

def Installed (registry : LayerRegistry) (layerType : LayerType) (name version : String) : Prop :=
  ∃ layer, registry.getLayer layerType name version = .ok layer

/-- Different types or names make different keys. -/
theorem layerKey_inj {other : LayerType} {otherName : String}
    (same : layerKey layerType name = layerKey other otherName) : layerType = other ∧ name = otherName := by
  have texts : layerType.dirname.toList ++ '/' :: name.toList = other.dirname.toList ++ '/' :: otherName.toList := by
    simpa [layerKey] using congrArg String.toList same
  cases layerType <;> cases other <;> simp only [LayerType.dirname] at texts <;>
    first
    | exact ⟨rfl, String.toList_inj.mp (by simpa using texts)⟩
    | exact absurd texts (by simp)

theorem mem_values_iff : layer ∈ registry.index.values ↔
    ∃ layers, registry.index.bucket (layerKey layer.layerType layer.name) = some layers ∧ layer ∈ layers := by
  constructor
  · intro held
    obtain ⟨bucket, there, inside⟩ := List.mem_flatMap.mp held
    have key := registry.filed bucket there layer inside
    exact ⟨bucket.2, Index.bucket_eq_some_iff.mpr (key ▸ there), inside⟩
  · rintro ⟨layers, found, inside⟩
    exact List.mem_flatMap.mpr ⟨_, Index.bucket_eq_some_iff.mp found, inside⟩

/-- The layers under a key are those of its type and name. -/
theorem coordinates {layers : List LayerMetadata}
    (found : registry.index.bucket (layerKey layerType name) = some layers) (inside : layer ∈ layers) :
    layer ∈ registry.index.values ∧ layer.layerType = layerType ∧ layer.name = name := by
  have there := Index.bucket_eq_some_iff.mp found
  obtain ⟨typed, named⟩ := layerKey_inj (registry.filed _ there layer inside)
  exact ⟨List.mem_flatMap.mpr ⟨_, there, inside⟩, typed.symm, named.symm⟩

theorem installed_iff : registry.Installed layerType name version ↔
    ∃ layer ∈ registry.index.values, layer.layerType = layerType ∧ layer.name = name ∧ layer.version = version := by
  constructor
  · rintro ⟨reference, got⟩
    obtain ⟨layer, found, -⟩ := getLayer_eq_ok.mp got
    obtain ⟨layers, bucket, found⟩ := Option.bind_eq_some_iff.mp found
    obtain ⟨held, typed, named⟩ := coordinates bucket (List.mem_of_find?_eq_some found)
    have versioned := List.find?_some found
    exact ⟨layer, held, typed, named, of_decide_eq_true versioned⟩
  · rintro ⟨layer, held, rfl, rfl, rfl⟩
    obtain ⟨layers, bucket, inside⟩ := mem_values_iff.mp held
    obtain ⟨found, located⟩ := Option.isSome_iff_exists.mp
      (List.find?_isSome (p := fun other => other.version = layer.version) |>.mpr ⟨layer, inside, decide_eq_true rfl⟩)
    have located : registry.metadata layer.layerType layer.name layer.version = some found := by
      rw [metadata, bucket, Option.bind_some, located]
    exact ⟨_, getLayer_eq_ok.mpr ⟨found, located, rfl⟩⟩

/-! ## The command of the runtime -/

/-- A plan runs the runtime it holds, and the latest version of a name is one
that is installed for every type with that name. -/
structure RunsWhatItShips (registry : LayerRegistry) : Prop where
  command : ∀ lang code explicitDeps plan, registry.resolve lang code explicitDeps = .ok plan →
    ∃ runtime ∈ plan.layers, runtime.layerType = .runtime ∧
      (∀ other ∈ plan.layers, other.layerType = .runtime → other = runtime) ∧
      ∃ shipped, registry.metadataForLayer runtime = some shipped ∧ plan.cmdConfig = shipped.cmdConfig
  latest : ∀ layerType name, (∃ version, registry.Installed layerType name version) →
    ∃ version, registry.resolveVersion name .latest = .ok version ∧ registry.Installed layerType name version

/-- Every layer that leads a name has its version installed for all types with
that name, and of a runtime the version that leads is started like the default
one, or like the first where none is default. -/
structure LeadersAgree (registry : LayerRegistry) : Prop where
  versions : ∀ lead, registry.Leads lead → ∀ layer ∈ registry.index.values, layer.name = lead.name →
    ∃ other ∈ registry.index.values,
      other.layerType = layer.layerType ∧ other.name = lead.name ∧ other.version = lead.version
  commands : registry.Installed .base "base" "v1" → ∀ lead, registry.Leads lead →
    lead.name = "python" ∨ lead.name = "node" →
    ∀ shipped, registry.metadata .runtime lead.name lead.version = some shipped →
    ∀ preferred, registry.preferredRuntime lead.name = some preferred → shipped.cmdConfig = preferred.cmdConfig

private theorem leads_of_held (held : layer ∈ registry.index.values) :
    ∃ lead, registry.Leads lead ∧ lead.name = layer.name := by
  by_cases flagged : ∃ other ∈ registry.index.values, other.name = layer.name ∧ other.default
  · obtain ⟨other, inside, named, flag⟩ := flagged
    obtain ⟨lead, first, same⟩ := exists_firstOf LayerMetadata.name (List.mem_filter.mpr ⟨inside, flag⟩)
    exact ⟨lead, .inl first, same.trans named⟩
  · obtain ⟨lead, first, same⟩ := exists_firstOf LayerMetadata.name held
    refine ⟨lead, .inr ⟨fun other inside named => ?_, first⟩, same⟩
    by_contra flag
    exact flagged ⟨other, inside, named.trans same, (Bool.not_eq_false _).mp flag⟩

private theorem latest_iff : (∀ layerType name, (∃ version, registry.Installed layerType name version) →
      ∃ version, registry.resolveVersion name .latest = .ok version ∧ registry.Installed layerType name version) ↔
    ∀ lead, registry.Leads lead → ∀ layer ∈ registry.index.values, layer.name = lead.name →
      ∃ other ∈ registry.index.values,
        other.layerType = layer.layerType ∧ other.name = lead.name ∧ other.version = lead.version := by
  constructor
  · intro latest lead leads layer held named
    obtain ⟨version, chosen, there⟩ := latest layer.layerType layer.name ⟨_, installed_iff.mpr ⟨layer, held, rfl, rfl, rfl⟩⟩
    have leading := resolveVersion_latest.mpr ⟨lead, leads, named.symm, rfl⟩
    rw [chosen] at leading
    cases leading
    exact named ▸ installed_iff.mp there
  · rintro versions layerType name ⟨_, there⟩
    obtain ⟨layer, held, rfl, rfl, -⟩ := installed_iff.mp there
    obtain ⟨lead, leads, named⟩ := leads_of_held held
    exact ⟨lead.version, resolveVersion_latest.mpr ⟨lead, leads, named, rfl⟩,
      installed_iff.mpr (named ▸ versions lead leads layer held named.symm)⟩

/-- The runtime is the only one of a plan. -/
theorem runtime_of_resolve (resolved : registry.resolve lang code explicitDeps = .ok plan) :
    ∃ base version runtime, registry.getLayer .base "base" "v1" = .ok base ∧
      registry.resolveVersion (runtimeName lang) .latest = .ok version ∧
      registry.getLayer .runtime (runtimeName lang) version = .ok runtime ∧
      runtime ∈ plan.layers ∧ (∀ other ∈ plan.layers, other.layerType = .runtime → other = runtime) ∧
      registry.cmdConfigFromRuntime (runtimeName lang) = some plan.cmdConfig := by
  obtain ⟨base, version, runtime, cmdConfig, based, chosen, run, -, configured, rfl⟩ := resolve_eq_ok.mp resolved
  have baseType := (getLayer_self based).1
  have runType := (getLayer_self run).1
  refine ⟨base, version, runtime, based, chosen, run, (mem_layers baseType runType).mpr (.inr (.inl rfl)),
    fun other inside typed => ?_, configured⟩
  rcases (mem_layers baseType runType).mp inside with rfl | rfl | first
  · rw [baseType] at typed
    cases typed
  · rfl
  · exact absurd typed (targetType_apart (mem_requests first.mem).2).2

theorem cmdConfig_of_installed (run : registry.Installed .runtime name version) :
    ∃ cmdConfig, registry.cmdConfigFromRuntime name = some cmdConfig := by
  obtain ⟨reference, got⟩ := run
  obtain ⟨layer, found, -⟩ := getLayer_eq_ok.mp got
  obtain ⟨layers, bucket, found⟩ := Option.bind_eq_some_iff.mp found
  rw [cmdConfigFromRuntime, preferredRuntime, bucket]
  cases layers with
  | nil => cases found
  | cons first rest =>
    rw [Option.bind_some, List.head?_cons]
    cases (first :: rest).find? (·.default) with
    | none => exact ⟨_, rfl⟩
    | some default => exact ⟨_, rfl⟩

/-- With the base layer, the latest runtime and every dependency there is a
plan. -/
theorem exists_plan (based : registry.Installed .base "base" "v1")
    (chosen : registry.resolveVersion (runtimeName lang) .latest = .ok version)
    (run : registry.Installed .runtime (runtimeName lang) version)
    (all : ∀ dep ∈ mergeDeps explicitDeps (parsePragmas code),
      ∃ layer, registry.resolveImport lang dep.1 (.exact dep.2) = .ok layer) :
    ∃ plan, registry.resolve lang code explicitDeps = .ok plan := by
  obtain ⟨cmdConfig, started⟩ := cmdConfig_of_installed run
  obtain ⟨base, based⟩ := based
  obtain ⟨runtime, run⟩ := run
  exact ⟨_, resolve_eq_ok.mpr ⟨base, version, runtime, cmdConfig, based, chosen, run, all, started, rfl⟩⟩

/-- A registry runs what it ships exactly where its leaders agree. -/
theorem runs_what_it_ships_iff : registry.RunsWhatItShips ↔ registry.LeadersAgree := by
  constructor
  · rintro ⟨command, latest⟩
    refine ⟨latest_iff.mp latest, fun based lead leads named shipped found preferred configured => ?_⟩
    have self : runtimeName lead.name = lead.name := by
      rcases named with named | named <;> rw [named] <;> rfl
    have chosen : registry.resolveVersion (runtimeName lead.name) .latest = .ok lead.version := by
      rw [self]
      exact resolveVersion_latest.mpr ⟨lead, leads, rfl, rfl⟩
    have run : registry.Installed .runtime (runtimeName lead.name) lead.version :=
      ⟨_, getLayer_eq_ok.mpr ⟨shipped, self.symm ▸ found, rfl⟩⟩
    have started : registry.cmdConfigFromRuntime (runtimeName lead.name) = some preferred.cmdConfig := by
      rw [self, cmdConfigFromRuntime, configured]
      rfl
    have nothing : mergeDeps [] (parsePragmas "") = [] := by decide +kernel
    obtain ⟨plan, resolved⟩ := exists_plan based chosen run fun dep member => by
      rw [nothing] at member
      cases member
    obtain ⟨ran, inside, typed, -, metadata, there, same⟩ := command _ _ _ _ resolved
    obtain ⟨_, version, other, -, chosen', run', -, alone, started'⟩ := runtime_of_resolve resolved
    cases alone ran inside typed
    cases chosen.symm.trans chosen'
    obtain ⟨-, named, versioned⟩ := getLayer_self run'
    rw [metadataForLayer, typed, named, versioned, self, found] at there
    rw [started] at started'
    cases there
    exact same.symm.trans (Option.some.inj started').symm
  · rintro ⟨versions, commands⟩
    refine ⟨fun lang code explicitDeps plan resolved => ?_, latest_iff.mpr versions⟩
    obtain ⟨base, version, runtime, based, chosen, run, held, alone, started⟩ := runtime_of_resolve resolved
    obtain ⟨lead, leads, named, rfl⟩ := resolveVersion_latest.mp chosen
    obtain ⟨shipped, found, -⟩ := getLayer_eq_ok.mp run
    obtain ⟨typed, itsName, itsVersion⟩ := getLayer_self run
    refine ⟨runtime, held, typed, alone, shipped, ?_, ?_⟩
    · rw [metadataForLayer, typed, itsName, itsVersion, found]
    · obtain ⟨preferred, configured, same⟩ := Option.map_eq_some_iff.mp started
      have supported : runtimeName lang = "python" ∨ runtimeName lang = "node" := by
        unfold runtimeName
        split
        · exact .inr rfl
        · exact .inl rfl
      rw [← named] at supported found configured
      exact same.symm.trans (commands ⟨base, based⟩ lead leads supported shipped found preferred configured).symm

/-- Two versions of a runtime, and a system package that goes by the same name. -/
def nameShared : LayerRegistry :=
  [ stub .base "base" "v1",
    { stub .apt "node" "18" with default := true },
    { stub .runtime "node" "18" with interpreter := some "/usr/bin/node18" },
    { stub .runtime "node" "20" with interpreter := some "/usr/bin/node20", default := true } ].foldl
    addLayer (new "/layers")

/-- The version of the package picks the runtime, and the default runtime is
the one that is started. -/
theorem command_of_other_version : ¬ ∀ registry : LayerRegistry, registry.RunsWhatItShips := by
  intro law
  have differs : ∀ plan ∈ (nameShared.resolve "node" "" []).toOption, ∀ layer ∈ plan.layers,
      layer.layerType = .runtime →
        (nameShared.metadataForLayer layer).map LayerMetadata.cmdConfig ≠ some plan.cmdConfig := by decide +kernel
  have ok : (nameShared.resolve "node" "" []).toOption.isSome := by decide +kernel
  cases resolved : nameShared.resolve "node" "" [] with
  | error e =>
    rw [resolved] at ok
    cases ok
  | ok plan =>
    obtain ⟨runtime, inside, typed, -, shipped, found, same⟩ := (law nameShared).command _ _ _ _ resolved
    rw [resolved] at differs
    apply differs plan rfl runtime inside typed
    rw [found, same]
    rfl

end LayerRegistry
end TinyMachine.Layers
