import TinyMachine.LayerCommand
import TinyMachine.LayerImports

/-! What of a plan depends on the order in which the index lists its buckets. -/
namespace TinyMachine.Layers
open Lib Text Composer

namespace LayerRegistry
variable {registry other : LayerRegistry} {lang code name version importName : String}
  {explicitDeps : List (String × String)} {plan : CompositionPlan} {layerType target : LayerType}
  {layer : LayerMetadata}

/-- The same layers, perhaps listed in another order. -/
structure Reordered (registry other : LayerRegistry) : Prop where
  path : registry.layersPath = other.layersPath
  same : registry.index.Same other.index

/-- Every order of the index gives the program the same plan, or none. -/
def OrderFree (registry : LayerRegistry) (lang code : String) (explicitDeps : List (String × String)) : Prop :=
  ∀ other, registry.Reordered other →
    (registry.resolve lang code explicitDeps).toOption = (other.resolve lang code explicitDeps).toOption

/-- The version of the first default layer with this name in some bucket, or of
the first layer with this name in some bucket where none is default. -/
def MayBeLatest (registry : LayerRegistry) (name version : String) : Prop :=
  ∃ layer, layer.version = version ∧
    (registry.index.MayFind (fun layer => layer.name = name ∧ layer.default) layer ∨
      (∀ other, ¬ registry.index.MayFind (fun layer => layer.name = name ∧ layer.default) other) ∧
        registry.index.MayFind (fun layer => layer.name = name) layer)

/-- If one of the versions that may be the latest is installed, it is the only
one that may be. -/
def SoleVersion (registry : LayerRegistry) (layerType : LayerType) (name : String) : Prop :=
  ∀ one two, registry.MayBeLatest name one → registry.MayBeLatest name two →
    registry.Installed layerType name one → one = two

/-! ## Registries that differ in order -/

theorem Reordered.symm (reordered : registry.Reordered other) : other.Reordered registry :=
  ⟨reordered.path.symm, reordered.same.symm⟩

theorem Reordered.trans {third : LayerRegistry} (one : registry.Reordered other) (two : other.Reordered third) :
    registry.Reordered third :=
  ⟨one.path.trans two.path, List.Perm.trans one.same two.same⟩

theorem Reordered.metadata_eq (reordered : registry.Reordered other) : registry.metadata = other.metadata := by
  funext layerType name version
  rw [metadata, metadata, reordered.same.bucket_eq]

theorem Reordered.getLayer_eq (reordered : registry.Reordered other) : registry.getLayer = other.getLayer := by
  funext layerType name version
  rw [getLayer, getLayer, reordered.metadata_eq, reordered.path]

theorem Reordered.installed_iff (reordered : registry.Reordered other) :
    registry.Installed layerType name version ↔ other.Installed layerType name version := by
  rw [Installed, Installed, reordered.getLayer_eq]

theorem Reordered.cmdConfig_eq (reordered : registry.Reordered other) :
    registry.cmdConfigFromRuntime = other.cmdConfigFromRuntime := by
  funext name
  rw [cmdConfigFromRuntime, cmdConfigFromRuntime, preferredRuntime, preferredRuntime, reordered.same.bucket_eq]

theorem Reordered.kernelProfile_eq (reordered : registry.Reordered other) :
    registry.kernelProfileFromLayers = other.kernelProfileFromLayers := by
  funext layers
  simp only [kernelProfileFromLayers, metadataForLayer, reordered.metadata_eq]

theorem Reordered.memoryMb_eq (reordered : registry.Reordered other) :
    registry.memoryMbFromLayers = other.memoryMbFromLayers := by
  funext layers
  simp only [memoryMbFromLayers, metadataForLayer, reordered.metadata_eq]

theorem Reordered.mem_values (reordered : registry.Reordered other) :
    layer ∈ registry.index.values ↔ layer ∈ other.index.values := by
  simp only [Index.values, List.mem_flatMap, reordered.same.mem_iff]

/-- A listing of the same buckets makes another registry. -/
def relist (registry : LayerRegistry) (index : Index String LayerMetadata) (same : registry.index.Same index) :
    LayerRegistry where
  layersPath := registry.layersPath
  index := index
  filed := fun bucket there => registry.filed bucket (same.mem_iff.mpr there)

theorem mayBeLatest_of_resolveVersion (chosen : registry.resolveVersion name .latest = .ok version) :
    registry.MayBeLatest name version := by
  rw [resolveVersion] at chosen
  split at chosen
  · rename_i layer found
    exact ⟨layer, Except.ok.inj chosen, .inl (Index.mayFind_of_find found)⟩
  · rename_i none
    split at chosen
    · rename_i layer found
      exact ⟨layer, Except.ok.inj chosen, .inr ⟨Index.find_eq_none_iff.mp none, Index.mayFind_of_find found⟩⟩
    · cases chosen

theorem Reordered.mayBeLatest (reordered : registry.Reordered other) :
    registry.MayBeLatest name version ↔ other.MayBeLatest name version := by
  simp only [MayBeLatest, reordered.same.mayFind_iff]

/-- What may be the latest version is it in some order. -/
theorem MayBeLatest.chosen (may : registry.MayBeLatest name version) :
    ∃ other, registry.Reordered other ∧ other.resolveVersion name .latest = .ok version := by
  obtain ⟨layer, rfl, default | ⟨noDefault, plain⟩⟩ := may
  · obtain ⟨index, same, found⟩ := default.found
    refine ⟨registry.relist index same, ⟨rfl, same⟩, ?_⟩
    rw [resolveVersion, relist, found]
  · obtain ⟨index, same, found⟩ := plain.found
    refine ⟨registry.relist index same, ⟨rfl, same⟩, ?_⟩
    have missed : index.values.find? (fun layer => layer.name = name ∧ layer.default) = none :=
      Index.find_eq_none_iff.mpr fun other => (mt same.mayFind_iff.mpr) (noDefault other)
    rw [resolveVersion, relist, missed, found]

theorem exists_latest (held : layer ∈ registry.index.values) :
    ∃ version, registry.resolveVersion layer.name .latest = .ok version := by
  rw [resolveVersion]
  split
  · exact ⟨_, rfl⟩
  · split
    · exact ⟨_, rfl⟩
    · rename_i none
      exact absurd (decide_eq_true rfl) (List.find?_eq_none.mp none layer held)

theorem findLayerByImport_eq_ok (found : registry.findLayerByImport lang importName = .ok (target, name)) :
    targetType lang = some target ∧ ∃ layer ∈ registry.index.values,
      layer.layerType = target ∧ importName ∈ layer.provides ∧ layer.name = name := by
  refine ⟨targetType_of_find found, ?_⟩
  rw [findLayerByImport, targetType_of_find found] at found
  dsimp only at found
  split at found
  · rename_i layer hit
    cases found
    have fits := List.find?_some hit
    obtain ⟨typed, provided⟩ := of_decide_eq_true fits
    exact ⟨layer, List.mem_of_find?_eq_some hit, typed, provided, rfl⟩
  · cases found

/-- A layer that provides a name is its provider in some order. -/
theorem exists_provider (known : targetType lang = some layer.layerType) (held : layer ∈ registry.index.values)
    (provided : importName ∈ layer.provides) : ∃ other, registry.Reordered other ∧
      other.findLayerByImport lang importName = .ok (layer.layerType, layer.name) := by
  obtain ⟨bucket, there, inside⟩ := List.mem_flatMap.mp held
  obtain ⟨first, found⟩ := Option.isSome_iff_exists.mp (List.find?_isSome (p := fun other : LayerMetadata =>
    other.layerType = layer.layerType ∧ importName ∈ other.provides) |>.mpr ⟨layer, inside, by simp [provided]⟩)
  have may : registry.index.MayFind _ first := ⟨bucket, there, found⟩
  obtain ⟨index, same, found'⟩ := may.found
  refine ⟨registry.relist index same, ⟨rfl, same⟩, ?_⟩
  have named : first.name = layer.name := by
    have one := registry.filed bucket there first (List.mem_of_find?_eq_some found)
    have two := registry.filed bucket there layer inside
    exact (layerKey_inj (one.symm.trans two)).2
  rw [findLayerByImport, known]
  dsimp only [relist]
  rw [found', ← named]

/-! ## Registries that are the same in every order -/

/-- The layers that provide one name are versions of one layer. -/
def SoleProviders (registry : LayerRegistry) (target : LayerType) : Prop :=
  ∀ one ∈ registry.index.values, ∀ two ∈ registry.index.values,
    one.layerType = target → two.layerType = target →
    (∃ importName ∈ one.provides, importName ∈ two.provides) → one.name = two.name

/-- Every name has one provider, and a layer that a program can import has one
version that may be the latest. -/
structure ImportsSettled (registry : LayerRegistry) (lang : String) (target : LayerType) : Prop where
  providers : registry.SoleProviders target
  versions : ∀ layer ∈ registry.index.values, layer.layerType = target →
    (∃ importName ∈ layer.provides, Importable lang importName) → registry.SoleVersion target layer.name

/-- Nothing can be resolved for want of the base layer or a runtime, or the
runtime has one version that may be the latest and the imports are settled. -/
def Unambiguous (registry : LayerRegistry) (lang : String) : Prop :=
  ¬ registry.Installed .base "base" "v1" ∨
  (∀ version, registry.MayBeLatest (runtimeName lang) version →
    ¬ registry.Installed .runtime (runtimeName lang) version) ∨
  registry.SoleVersion .runtime (runtimeName lang) ∧
    ∀ target, targetType lang = some target → registry.ImportsSettled lang target

theorem Reordered.soleVersion (reordered : registry.Reordered other) (sole : registry.SoleVersion layerType name) :
    other.SoleVersion layerType name := by
  simpa only [SoleVersion, ← reordered.installed_iff, ← reordered.mayBeLatest] using sole

theorem Reordered.importsSettled (reordered : registry.Reordered other)
    (settled : registry.ImportsSettled lang target) : other.ImportsSettled lang target := by
  refine ⟨?_, fun layer held typed provided => ?_⟩
  · simpa only [SoleProviders, ← reordered.mem_values] using settled.providers
  · exact reordered.soleVersion (settled.versions layer (reordered.mem_values.mpr held) typed provided)

theorem Reordered.unambiguous (reordered : registry.Reordered other) (settled : registry.Unambiguous lang) :
    other.Unambiguous lang := by
  rcases settled with noBase | noRuntime | ⟨sole, imports⟩
  · exact .inl (mt reordered.installed_iff.mpr noBase)
  · exact .inr (.inl fun version may =>
      mt reordered.installed_iff.mpr (noRuntime version (reordered.mayBeLatest.mpr may)))
  · exact .inr (.inr ⟨reordered.soleVersion sole, fun target known => reordered.importsSettled (imports target known)⟩)

/-- A version that is installed wherever it may be the latest is the latest in
every order. -/
private theorem SoleVersion.resolveVersion (sole : registry.SoleVersion layerType name)
    (reordered : registry.Reordered other) (chosen : registry.resolveVersion name .latest = .ok version)
    (there : registry.Installed layerType name version) : other.resolveVersion name .latest = .ok version := by
  obtain ⟨layer, held, -, named, -⟩ := LayerRegistry.installed_iff.mp there
  obtain ⟨version', chosen'⟩ := exists_latest (reordered.mem_values.mp held)
  rw [named] at chosen'
  have may' := reordered.mayBeLatest.mpr (mayBeLatest_of_resolveVersion chosen')
  rw [sole version version' (mayBeLatest_of_resolveVersion chosen) may' there, chosen']

private theorem find_reordered (reordered : registry.Reordered other)
    (sole : registry.SoleProviders target)
    (found : registry.findLayerByImport lang importName = .ok (target, name)) :
    other.findLayerByImport lang importName = .ok (target, name) := by
  obtain ⟨known, layer, held, rfl, provided, rfl⟩ := findLayerByImport_eq_ok found
  have hit := List.find?_isSome (p := fun other : LayerMetadata =>
    other.layerType = layer.layerType ∧ importName ∈ other.provides) |>.mpr
    ⟨layer, reordered.mem_values.mp held, by simp [provided]⟩
  obtain ⟨first, hit⟩ := Option.isSome_iff_exists.mp hit
  have fits := List.find?_some hit
  obtain ⟨typed, provided'⟩ := of_decide_eq_true fits
  have named : first.name = layer.name := sole first
    (reordered.mem_values.mpr (List.mem_of_find?_eq_some hit)) layer held typed rfl ⟨importName, provided', provided⟩
  rw [findLayerByImport, known]
  dsimp only
  rw [hit, ← named]

/-- An import resolves to the same layer in every order. -/
private theorem resolveImport_reordered {constraint : VersionConstraint} {reference : LayerRef}
    (reordered : registry.Reordered other)
    (settled : ∀ target, targetType lang = some target → registry.ImportsSettled lang target)
    (importable : constraint = .latest → Importable lang importName)
    (resolved : registry.resolveImport lang importName constraint = .ok reference) :
    other.resolveImport lang importName constraint = .ok reference := by
  obtain ⟨target, name, version, found, chosen, got⟩ := resolveImport_eq_ok.mp resolved
  refine resolveImport_eq_ok.mpr ⟨target, name, version,
    find_reordered reordered (settled target (targetType_of_find found)).providers found, ?_, reordered.getLayer_eq ▸ got⟩
  cases constraint with
  | exact wanted => exact chosen
  | latest =>
    obtain ⟨known, layer, held, typed, provided, rfl⟩ := findLayerByImport_eq_ok found
    have sole := (settled target known).versions layer held typed ⟨importName, provided, importable rfl⟩
    exact sole.resolveVersion reordered chosen ⟨_, got⟩

private theorem toOption_eq {ε α : Type} {x y : Except ε α} (same : ∀ a, x = .ok a ↔ y = .ok a) :
    x.toOption = y.toOption := by
  refine Option.ext fun a => ?_
  have known : ∀ z : Except ε α, z.toOption = some a ↔ z = .ok a := by
    intro z
    cases z <;> simp [Except.toOption]
  rw [known, known, same a]

/-- The requests of a program are the same in every order. -/
private theorem requests_reordered (reordered : registry.Reordered other)
    (settled : ∀ target, targetType lang = some target → registry.ImportsSettled lang target) :
    registry.requests lang code explicitDeps = other.requests lang code explicitDeps := by
  have settled' := fun target known => reordered.importsSettled (settled target known)
  have same : ∀ importName constraint, (constraint = .latest → Importable lang importName) →
      (registry.resolveImport lang importName constraint).toOption =
        (other.resolveImport lang importName constraint).toOption := fun importName constraint importable =>
    toOption_eq fun reference => ⟨resolveImport_reordered reordered settled importable,
      resolveImport_reordered reordered.symm settled' importable⟩
  have imported : registry.importRequests lang (mergeDeps explicitDeps (parsePragmas code))
      (extractImports lang code) = other.importRequests lang (mergeDeps explicitDeps (parsePragmas code))
      (extractImports lang code) := by
    refine List.flatMap_congr fun importName member => ?_
    rw [same importName .latest fun _ => ⟨code, member⟩]
  have wanted : registry.depRequests lang (mergeDeps explicitDeps (parsePragmas code)) =
      other.depRequests lang (mergeDeps explicitDeps (parsePragmas code)) := by
    refine List.flatMap_congr fun dep _ => ?_
    rw [same dep.1 (.exact dep.2) nofun]
  rw [requests, requests, imported, wanted]

private theorem resolve_reordered (reordered : registry.Reordered other) (settled : registry.Unambiguous lang)
    (resolved : registry.resolve lang code explicitDeps = .ok plan) :
    other.resolve lang code explicitDeps = .ok plan := by
  obtain ⟨base, version, runtime, cmdConfig, based, chosen, run, all, started, rfl⟩ := resolve_eq_ok.mp resolved
  rcases settled with noBase | noRuntime | ⟨sole, imports⟩
  · exact absurd ⟨base, based⟩ noBase
  · exact absurd ⟨runtime, run⟩ (noRuntime version (mayBeLatest_of_resolveVersion chosen))
  refine resolve_eq_ok.mpr ⟨base, version, runtime, cmdConfig, ?_, ?_, ?_, ?_, ?_, ?_⟩
  · rw [← reordered.getLayer_eq, based]
  · exact sole.resolveVersion reordered chosen ⟨runtime, run⟩
  · rw [← reordered.getLayer_eq, run]
  · intro dep member
    obtain ⟨reference, got⟩ := all dep member
    exact ⟨reference, resolveImport_reordered reordered imports nofun got⟩
  · rw [← reordered.cmdConfig_eq, started]
  · dsimp only
    rw [← requests_reordered reordered imports, ← reordered.kernelProfile_eq, ← reordered.memoryMb_eq]

/-! ## What a program can tell of the order -/

/-- Of the layers that imports come from, a plan holds the first requests. -/
private theorem mem_plan_iff {reference : LayerRef} (resolved : registry.resolve lang code explicitDeps = .ok plan)
    (known : targetType lang = some reference.layerType) : reference ∈ plan.layers ↔
      FirstOf LayerRef.display (registry.requests lang code explicitDeps) reference := by
  obtain ⟨base, version, runtime, cmdConfig, based, -, run, -, -, rfl⟩ := resolve_eq_ok.mp resolved
  have baseType := (getLayer_self based).1
  have runType := (getLayer_self run).1
  rw [mem_layers baseType runType]
  refine ⟨?_, fun first => .inr (.inr first)⟩
  rintro (rfl | rfl | first)
  · exact absurd baseType (targetType_apart known).1
  · exact absurd runType (targetType_apart known).2
  · exact first

private theorem firstOf_single {reference : LayerRef} {request : Except RegistryError LayerRef} :
    FirstOf LayerRef.display request.toOption.toList reference ↔ request = .ok reference := by
  refine ⟨fun first => mem_toOption.mp first.mem, ?_⟩
  rintro rfl
  exact ⟨[], [], rfl, List.not_mem_nil⟩

section Free
variable {one two : LayerRegistry}

private theorem OrderFree.agree (free : registry.OrderFree lang code explicitDeps) (first : registry.Reordered one)
    (second : registry.Reordered two) (resolved : one.resolve lang code explicitDeps = .ok plan) :
    two.resolve lang code explicitDeps = .ok plan := by
  have same := (free one first).symm.trans (free two second)
  rw [resolved] at same
  exact mem_toOption.mp (by rw [← same]; exact List.mem_singleton_self plan)

private theorem soleRuntime_of_free (free : registry.OrderFree lang "" [])
    (based : registry.Installed .base "base" "v1") : registry.SoleVersion .runtime (runtimeName lang) := by
  intro version version' may may' there
  obtain ⟨one, first, chosen⟩ := may.chosen
  obtain ⟨two, second, chosen'⟩ := may'.chosen
  have nothing : mergeDeps [] (parsePragmas "") = [] := by decide +kernel
  obtain ⟨plan, resolved⟩ := exists_plan (first.installed_iff.mp based) chosen (first.installed_iff.mp there)
    fun dep member => absurd (nothing ▸ member) List.not_mem_nil
  obtain ⟨_, v, runtime, -, chosenV, run, held, -, -⟩ := runtime_of_resolve resolved
  obtain ⟨_, w, runtime', -, chosenW, run', -, alone, -⟩ := runtime_of_resolve (free.agree first second resolved)
  cases chosen.symm.trans chosenV
  cases chosen'.symm.trans chosenW
  rw [← (getLayer_self run).2.2, ← (getLayer_self run').2.2, alone runtime held (getLayer_self run).1]

/-- A program with one request tells what it resolves to. -/
private theorem request_agrees {constraint : VersionConstraint} {reference : LayerRef}
    (free : registry.OrderFree lang code explicitDeps) (based : registry.Installed .base "base" "v1")
    (may : registry.MayBeLatest (runtimeName lang) version)
    (run : registry.Installed .runtime (runtimeName lang) version)
    (sole : registry.SoleVersion .runtime (runtimeName lang))
    (single : ∀ order, registry.Reordered order → order.requests lang code explicitDeps =
      (order.resolveImport lang importName constraint).toOption.toList)
    (all : ∀ dep ∈ mergeDeps explicitDeps (parsePragmas code),
      ∃ layer, one.resolveImport lang dep.1 (.exact dep.2) = .ok layer)
    (first : registry.Reordered one) (second : registry.Reordered two)
    (resolved : one.resolveImport lang importName constraint = .ok reference) :
    two.resolveImport lang importName constraint = .ok reference := by
  have known : targetType lang = some reference.layerType := by
    obtain ⟨target, name, version, found, -, got⟩ := resolveImport_eq_ok.mp resolved
    exact (getLayer_self got).1 ▸ targetType_of_find found
  obtain ⟨order, listed, chosen⟩ := may.chosen
  have chosen := (listed.soleVersion sole).resolveVersion (listed.symm.trans first) chosen
    (listed.installed_iff.mp run)
  obtain ⟨plan, planned⟩ := exists_plan (first.installed_iff.mp based) chosen (first.installed_iff.mp run) all
  have held : reference ∈ plan.layers := by
    rw [mem_plan_iff planned known, single one first, firstOf_single]
    exact resolved
  rwa [mem_plan_iff (free.agree first second planned) known, single two second, firstOf_single] at held

end Free

private theorem providers_of_free (free : ∀ code explicitDeps, registry.OrderFree lang code explicitDeps)
    (based : registry.Installed .base "base" "v1") (may : registry.MayBeLatest (runtimeName lang) version)
    (run : registry.Installed .runtime (runtimeName lang) version) (known : targetType lang = some target) :
    registry.SoleProviders target := by
  rintro first held second held' typed typed' ⟨importName, provided, provided'⟩
  have sole := soleRuntime_of_free (free "" []) based
  obtain ⟨one, listed, found⟩ := exists_provider (typed ▸ known) held provided
  obtain ⟨two, listed', found'⟩ := exists_provider (typed' ▸ known) held' provided'
  obtain ⟨reference, got⟩ := installed_iff.mpr ⟨first, listed.mem_values.mp held, rfl, rfl, rfl⟩
  have resolved : one.resolveImport lang importName (.exact first.version) = .ok reference :=
    resolveImport_eq_ok.mpr ⟨_, _, _, found, rfl, got⟩
  have noImports : extractImports lang "" = [] := by
    unfold extractImports
    split
    · rfl
    · split <;> rfl
  have only : mergeDeps [(importName, first.version)] (parsePragmas "") = [(importName, first.version)] := by
    have none : parsePragmas "" = [] := by decide +kernel
    rw [none, mergeDeps]
  have single : ∀ order, registry.Reordered order → order.requests lang "" [(importName, first.version)] =
      (order.resolveImport lang importName (.exact first.version)).toOption.toList := by
    intro order _
    rw [requests, noImports, only]
    exact List.append_nil _
  have agreed := request_agrees (free "" [(importName, first.version)]) based may run sole single
    (fun dep member => by
      rw [only, List.mem_singleton] at member
      exact ⟨reference, member ▸ resolved⟩) listed listed' resolved
  obtain ⟨_, name, _, located, -, got'⟩ := resolveImport_eq_ok.mp agreed
  rw [found'] at located
  cases located
  rw [← (getLayer_self got).2.1, (getLayer_self got').2.1]

private theorem versions_of_free (free : ∀ code explicitDeps, registry.OrderFree lang code explicitDeps)
    (based : registry.Installed .base "base" "v1") (may : registry.MayBeLatest (runtimeName lang) version)
    (run : registry.Installed .runtime (runtimeName lang) version) (known : targetType lang = some target)
    (held : layer ∈ registry.index.values) (typed : layer.layerType = target) (provided : importName ∈ layer.provides)
    (importable : Importable lang importName) : registry.SoleVersion target layer.name := by
  intro v w mayV mayW there
  have sole := soleRuntime_of_free (free "" []) based
  obtain ⟨code, alone, noPragmas⟩ := importable.alone
  -- whatever the order, the name leads to this layer
  have finds : ∀ order, registry.Reordered order →
      order.findLayerByImport lang importName = .ok (target, layer.name) := by
    intro order listed
    obtain ⟨other, listed', found⟩ := exists_provider (typed ▸ known) held provided
    have providers := providers_of_free free based may run known
    refine find_reordered (listed'.symm.trans listed) ?_ (typed ▸ found)
    simpa only [SoleProviders, ← listed'.mem_values] using providers
  obtain ⟨one, listed, chosen⟩ := mayV.chosen
  obtain ⟨two, listed', chosen'⟩ := mayW.chosen
  obtain ⟨reference, got⟩ := listed.installed_iff.mp there
  have resolved : one.resolveImport lang importName .latest = .ok reference :=
    resolveImport_eq_ok.mpr ⟨_, _, _, finds one listed, chosen, got⟩
  have nothing : mergeDeps [] (parsePragmas code) = [] := by rw [noPragmas, mergeDeps]
  have single : ∀ order, registry.Reordered order → order.requests lang code [] =
      (order.resolveImport lang importName .latest).toOption.toList := by
    intro order _
    rw [requests, nothing, alone]
    simp [importRequests, depRequests]
  have agreed := request_agrees (free code []) based may run sole single
    (fun dep member => absurd (nothing ▸ member) List.not_mem_nil) listed listed' resolved
  obtain ⟨_, _, _, located, latest, got'⟩ := resolveImport_eq_ok.mp agreed
  rw [finds two listed'] at located
  cases located
  rw [chosen'] at latest
  cases latest
  rw [← (getLayer_self got).2.2, (getLayer_self got').2.2]

/-- The programs of a language get one plan whatever the order exactly where
the registry is unambiguous for it. -/
theorem order_free_iff : (∀ code explicitDeps, registry.OrderFree lang code explicitDeps) ↔
    registry.Unambiguous lang := by
  constructor
  · intro free
    by_cases based : registry.Installed .base "base" "v1"
    · by_cases candidate : ∃ version, registry.MayBeLatest (runtimeName lang) version ∧
        registry.Installed .runtime (runtimeName lang) version
      · obtain ⟨version, may, run⟩ := candidate
        refine .inr (.inr ⟨soleRuntime_of_free (free "" []) based, fun target known => ⟨?_, ?_⟩⟩)
        · exact providers_of_free free based may run known
        · rintro layer held typed ⟨importName, provided, importable⟩
          exact versions_of_free free based may run known held typed provided importable
      · exact .inr (.inl fun version may run => candidate ⟨version, may, run⟩)
    · exact .inl based
  · intro settled code explicitDeps other reordered
    exact toOption_eq fun plan =>
      ⟨resolve_reordered reordered settled, resolve_reordered reordered.symm (reordered.unambiguous settled)⟩

/-- Two packages that provide one name. -/
def sharedName (first second : LayerMetadata) : LayerRegistry :=
  [ stub .base "base" "v1", stub .runtime "python" "3.12", first, second ].foldl addLayer (new "/layers")

def pillow : LayerMetadata := { stub .pip "pillow" "10.0" with provides := ["PIL"] }

def pillowSimd : LayerMetadata := { stub .pip "pillow-simd" "9.5" with provides := ["PIL"] }

/-- Which of them a program gets depends on the one that is listed first. -/
theorem first_listed_is_imported :
    ¬ ∀ (registry : LayerRegistry) (lang code : String) (explicitDeps : List (String × String)),
      registry.OrderFree lang code explicitDeps := by
  intro law
  have reordered : (sharedName pillow pillowSimd).Reordered (sharedName pillowSimd pillow) := by
    refine ⟨rfl, ?_⟩
    rw [Index.Same]
    decide +kernel
  have same := law (sharedName pillow pillowSimd) "python" "import PIL" [] _ reordered
  have differs : ((sharedName pillow pillowSimd).resolve "python" "import PIL" []).toOption.map
        (fun plan => plan.layers.map LayerRef.display) ≠
      ((sharedName pillowSimd pillow).resolve "python" "import PIL" []).toOption.map
        (fun plan => plan.layers.map LayerRef.display) := by decide +kernel
  exact differs (congrArg _ same)

end LayerRegistry
end TinyMachine.Layers
