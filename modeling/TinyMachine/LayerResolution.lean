import TinyMachine.LayerRegistry
import TinyMachine.Lib.Fallible
import Mathlib.Data.List.Pairwise

/-! What a resolved plan holds: the base layer, the runtime, and of the layers
that imports and dependencies ask for each the first of its display. -/
namespace TinyMachine.Layers
open Lib Text Composer

namespace LayerRegistry
variable {registry : LayerRegistry} {lang code : String} {explicitDeps deps : List (String × String)}
  {imports : List String} {plan : CompositionPlan} {layer other : LayerRef}

/-! ## Looking layers up -/

theorem getLayer_eq_ok {layerType : LayerType} {name version : String} :
    registry.getLayer layerType name version = .ok layer ↔
      ∃ metadata, registry.metadata layerType name version = some metadata ∧ layer =
        { layerType := layerType
          name := name
          version := version
          layerPath := joinPath (joinPath (joinPath (joinPath registry.layersPath layerType.dirname) name)
            version) "layer.cpio.zst"
          hash := metadata.hash } := by
  unfold getLayer
  cases registry.metadata layerType name version with
  | none => simp
  | some metadata => simp [eq_comm]

/-- A layer that was looked up is the one at its own coordinates. -/
theorem getLayer_self {layerType : LayerType} {name version : String}
    (found : registry.getLayer layerType name version = .ok layer) :
    layer.layerType = layerType ∧ layer.name = name ∧ layer.version = version := by
  obtain ⟨_, _, rfl⟩ := getLayer_eq_ok.mp found
  exact ⟨rfl, rfl, rfl⟩

/-- The layer is one of the registry's. -/
def Registered (registry : LayerRegistry) (layer : LayerRef) : Prop :=
  registry.getLayer layer.layerType layer.name layer.version = .ok layer

theorem registered_of_getLayer {layerType : LayerType} {name version : String}
    (found : registry.getLayer layerType name version = .ok layer) : registry.Registered layer := by
  obtain ⟨typed, named, versioned⟩ := getLayer_self found
  rw [Registered, typed, named, versioned, found]

/-- Registered layers are told apart by type, name and version. -/
theorem Registered.ext (one : registry.Registered layer) (two : registry.Registered other)
    (typed : layer.layerType = other.layerType) (named : layer.name = other.name)
    (versioned : layer.version = other.version) : layer = other := by
  rw [Registered, typed, named, versioned, two] at one
  exact (Except.ok.inj one).symm

theorem resolveImport_eq_ok {importName : String} {constraint : VersionConstraint} :
    registry.resolveImport lang importName constraint = .ok layer ↔
      ∃ layerType name version, registry.findLayerByImport lang importName = .ok (layerType, name) ∧
        registry.resolveVersion name constraint = .ok version ∧
        registry.getLayer layerType name version = .ok layer := by
  simp only [resolveImport, bind_eq_ok, Prod.exists, exists_and_left]

theorem targetType_of_find {importName name : String} {layerType : LayerType}
    (found : registry.findLayerByImport lang importName = .ok (layerType, name)) :
    targetType lang = some layerType := by
  unfold findLayerByImport at found
  split at found
  · cases found
  · rename_i target known
    split at found
    · cases found
      exact known
    · cases found

/-- Imports come from layers of one type, which is neither that of the base
layer nor that of a runtime. -/
theorem targetType_apart {layerType : LayerType} (target : targetType lang = some layerType) :
    layerType ≠ .base ∧ layerType ≠ .runtime := by
  unfold targetType at target
  split at target
  · cases target
    exact ⟨nofun, nofun⟩
  · split at target
    · cases target
      exact ⟨nofun, nofun⟩
    · cases target

/-! ## The requests of a program -/

theorem mem_toOption {ε α : Type} {x : Except ε α} {a : α} : a ∈ x.toOption.toList ↔ x = .ok a := by
  cases x <;> simp [Except.toOption, eq_comm]

def importRequests (registry : LayerRegistry) (lang : String) (deps : List (String × String))
    (imports : List String) : List LayerRef :=
  imports.flatMap fun importName =>
    if importName ∈ deps.map Prod.fst then [] else (registry.resolveImport lang importName .latest).toOption.toList

def depRequests (registry : LayerRegistry) (lang : String) (deps : List (String × String)) : List LayerRef :=
  deps.flatMap fun dep => (registry.resolveImport lang dep.1 (.exact dep.2)).toOption.toList

/-- The layers of the imports, and then those of the dependencies. -/
def requests (registry : LayerRegistry) (lang code : String) (explicitDeps : List (String × String)) :
    List LayerRef :=
  let deps := mergeDeps explicitDeps (parsePragmas code)
  registry.importRequests lang deps (extractImports lang code) ++ registry.depRequests lang deps

theorem addImports_eq (layers : List LayerRef) : registry.addImports lang deps imports layers =
    (registry.importRequests lang deps imports).foldl (addNew LayerRef.display) layers := by
  induction imports generalizing layers with
  | nil => rfl
  | cons importName imports ih =>
    rw [addImports, importRequests, List.flatMap_cons, List.foldl_append]
    by_cases named : importName ∈ deps.map Prod.fst
    · rw [if_pos named, if_pos named]
      exact ih layers
    · rw [if_neg named, if_neg named]
      cases registry.resolveImport lang importName .latest <;> exact ih _

theorem addDeps_eq_ok {layers result : List LayerRef} : registry.addDeps lang deps layers = .ok result ↔
    (∀ dep ∈ deps, ∃ layer, registry.resolveImport lang dep.1 (.exact dep.2) = .ok layer) ∧
      result = (registry.depRequests lang deps).foldl (addNew LayerRef.display) layers := by
  induction deps generalizing layers with
  | nil => simp [addDeps, depRequests, eq_comm]
  | cons dep deps ih =>
    rw [addDeps, bind_eq_ok, List.forall_mem_cons, depRequests, List.flatMap_cons, List.foldl_append]
    cases registry.resolveImport lang dep.1 (.exact dep.2) with
    | ok layer =>
      simp only [Except.ok.injEq, exists_eq_left', ih, exists_eq', true_and]
      rfl
    | error e => simp

theorem resolve_eq_ok : registry.resolve lang code explicitDeps = .ok plan ↔
    ∃ base version runtime cmdConfig, registry.getLayer .base "base" "v1" = .ok base ∧
      registry.resolveVersion (runtimeName lang) .latest = .ok version ∧
      registry.getLayer .runtime (runtimeName lang) version = .ok runtime ∧
      (∀ dep ∈ mergeDeps explicitDeps (parsePragmas code),
        ∃ layer, registry.resolveImport lang dep.1 (.exact dep.2) = .ok layer) ∧
      registry.cmdConfigFromRuntime (runtimeName lang) = some cmdConfig ∧
      let layers := (registry.requests lang code explicitDeps).foldl (addNew LayerRef.display) [base, runtime]
      plan =
        { layers := layers
          kernelProfile := registry.kernelProfileFromLayers layers
          memoryMb := registry.memoryMbFromLayers layers
          cmdConfig := cmdConfig } := by
  have command : ∀ cmdConfig, registry.cmdConfigOrFail (runtimeName lang) = .ok cmdConfig ↔
      registry.cmdConfigFromRuntime (runtimeName lang) = some cmdConfig := by
    intro cmdConfig
    unfold cmdConfigOrFail
    cases registry.cmdConfigFromRuntime (runtimeName lang) <;> simp
  simp only [resolve, bind_eq_ok, addDeps_eq_ok, addImports_eq, command, pure_eq_ok, requests, List.foldl_append]
  constructor
  · rintro ⟨base, based, version, chosen, runtime, found, layers, ⟨all, rfl⟩, cmdConfig, configured, rfl⟩
    exact ⟨base, version, runtime, cmdConfig, based, chosen, found, all, configured, rfl⟩
  · rintro ⟨base, version, runtime, cmdConfig, based, chosen, found, all, configured, rfl⟩
    exact ⟨base, based, version, chosen, runtime, found, _, ⟨all, rfl⟩, cmdConfig, configured, rfl⟩

/-! ## The layers of a plan -/

/-- A display begins with the directory of the layer's type. -/
private theorem display_type (same : layer.display = other.display) : layer.layerType = other.layerType := by
  have head : ∀ layer : LayerRef, layer.display.toList.takeWhile (· ≠ '/') = layer.layerType.dirname.toList := by
    rintro ⟨layerType, name, version, layerPath, hash⟩
    cases layerType <;> simp [LayerRef.display, LayerType.dirname]
  have dirname : layer.layerType.dirname.toList = other.layerType.dirname.toList := by
    rw [← head, same, head]
  generalize layer.layerType = one at dirname
  generalize other.layerType = two at dirname
  cases one <;> cases two <;> first | rfl | exact absurd dirname (by decide)

/-- Every request is a registered layer of the type the language imports from. -/
theorem mem_requests (asked : layer ∈ registry.requests lang code explicitDeps) :
    registry.Registered layer ∧ targetType lang = some layer.layerType := by
  have resolved : ∃ importName constraint, registry.resolveImport lang importName constraint = .ok layer := by
    rcases List.mem_append.mp asked with imported | wanted
    · obtain ⟨importName, -, one⟩ := List.mem_flatMap.mp imported
      split at one
      · cases one
      · exact ⟨importName, .latest, mem_toOption.mp one⟩
    · obtain ⟨dep, -, one⟩ := List.mem_flatMap.mp wanted
      exact ⟨dep.1, .exact dep.2, mem_toOption.mp one⟩
  obtain ⟨importName, constraint, resolved⟩ := resolved
  obtain ⟨layerType, name, version, found, -, got⟩ := resolveImport_eq_ok.mp resolved
  exact ⟨registered_of_getLayer got, (getLayer_self got).1 ▸ targetType_of_find found⟩

/-- A plan holds the base layer, the runtime and the first request of every
display. -/
theorem mem_layers {base runtime : LayerRef} (based : base.layerType = .base) (run : runtime.layerType = .runtime) :
    layer ∈ (registry.requests lang code explicitDeps).foldl (addNew LayerRef.display) [base, runtime] ↔
      layer = base ∨ layer = runtime ∨ FirstOf LayerRef.display (registry.requests lang code explicitDeps) layer := by
  rw [mem_foldl_addNew, List.mem_cons, List.mem_singleton, or_assoc]
  refine or_congr_right (or_congr_right ⟨And.right, fun first => ⟨?_, first⟩⟩)
  intro shown
  obtain ⟨-, target⟩ := mem_requests first.mem
  obtain ⟨notBase, notRuntime⟩ := targetType_apart target
  simp only [List.map_cons, List.map_nil, List.mem_cons, List.not_mem_nil, or_false] at shown
  rcases shown with same | same
  · exact notBase ((display_type same).trans based)
  · exact notRuntime ((display_type same).trans run)

/-! ## One version of each layer -/

/-- What is asked for with a version: explicitly, or by a pragma with a name
that is not given explicitly. -/
def wantedDeps (explicitDeps : List (String × String)) (code : String) : List (String × String) :=
  explicitDeps ++ (parsePragmas code).filter fun dep => dep.1 ∉ explicitDeps.map Prod.fst

/-- No layer is there in two versions, and of what is asked for with a version
that version is there and no other. -/
structure OneVersionEach (registry : LayerRegistry) (lang code : String) (explicitDeps : List (String × String))
    (plan : CompositionPlan) : Prop where
  single : plan.layers.Pairwise fun a b => ¬ (a.layerType = b.layerType ∧ a.name = b.name)
  wanted : ∀ dep ∈ wantedDeps explicitDeps code, ∃ layerType name,
    registry.findLayerByImport lang dep.1 = .ok (layerType, name) ∧
      (∃ layer ∈ plan.layers, layer.layerType = layerType ∧ layer.name = name ∧ layer.version = dep.2) ∧
      ∀ layer ∈ plan.layers, layer.layerType = layerType → layer.name = name → layer.version = dep.2

/-- Requests for one layer agree on the version, and each dependency's own
layer is the first request of its display. -/
structure Compatible (registry : LayerRegistry) (lang code : String) (explicitDeps : List (String × String)) :
    Prop where
  versions : ∀ a b, FirstOf LayerRef.display (registry.requests lang code explicitDeps) a →
    FirstOf LayerRef.display (registry.requests lang code explicitDeps) b → a.name = b.name → a.version = b.version
  first : ∀ dep ∈ wantedDeps explicitDeps code, ∃ layer,
    registry.resolveImport lang dep.1 (.exact dep.2) = .ok layer ∧
      FirstOf LayerRef.display (registry.requests lang code explicitDeps) layer

private theorem single_iff {layers : List LayerRef} (distinct : (layers.map LayerRef.display).Nodup) :
    layers.Pairwise (fun a b => ¬ (a.layerType = b.layerType ∧ a.name = b.name)) ↔
      ∀ a ∈ layers, ∀ b ∈ layers, a.layerType = b.layerType → a.name = b.name → a = b := by
  have symmetric : Std.Symm fun a b : LayerRef => ¬ (a.layerType = b.layerType ∧ a.name = b.name) :=
    ⟨fun _ _ apart same => apart ⟨same.1.symm, same.2.symm⟩⟩
  constructor
  · intro pairwise a inside b there typed named
    by_contra other
    exact pairwise.forall inside there other ⟨typed, named⟩
  · intro single
    refine (distinct.of_map _).pairwise_of_forall_ne fun a inside b there other same => ?_
    exact other (single a inside b there same.1 same.2)

/-- A plan holds one version of each layer, and the versions asked for, exactly
where the requests are compatible. -/
theorem one_version_each_iff (resolved : registry.resolve lang code explicitDeps = .ok plan) :
    registry.OneVersionEach lang code explicitDeps plan ↔ registry.Compatible lang code explicitDeps := by
  obtain ⟨base, version, runtime, cmdConfig, based, -, run, -, -, rfl⟩ := resolve_eq_ok.mp resolved
  have baseType := (getLayer_self based).1
  have runType := (getLayer_self run).1
  have members := @mem_layers registry lang code explicitDeps
  have apart : [base, runtime].map LayerRef.display |>.Nodup := by
    refine List.nodup_cons.mpr ⟨fun same => ?_, List.nodup_singleton _⟩
    have type := display_type (List.mem_singleton.mp same)
    rw [baseType, runType] at type
    cases type
  have distinct : (((registry.requests lang code explicitDeps).foldl (addNew LayerRef.display)
      [base, runtime]).map LayerRef.display).Nodup := nodup_foldl_addNew apart
  have imported : ∀ layer layerType, layer = base ∨ layer = runtime ∨
      FirstOf LayerRef.display (registry.requests lang code explicitDeps) layer → layer.layerType = layerType →
      targetType lang = some layerType →
      FirstOf LayerRef.display (registry.requests lang code explicitDeps) layer := by
    rintro layer layerType (rfl | rfl | first) typed target
    · exact absurd (typed.symm.trans baseType) (targetType_apart target).1
    · exact absurd (typed.symm.trans runType) (targetType_apart target).2
    · exact first
  constructor
  · rintro ⟨single, wanted⟩
    have alone := (single_iff distinct).mp single
    refine ⟨fun a b firstA firstB named => ?_, fun dep asked => ?_⟩
    · have typed : a.layerType = b.layerType :=
        Option.some.inj ((mem_requests firstA.mem).2.symm.trans (mem_requests firstB.mem).2)
      rw [alone a ((members baseType runType).mpr (.inr (.inr firstA))) b
        ((members baseType runType).mpr (.inr (.inr firstB))) typed named]
    · obtain ⟨layerType, name, found, ⟨layer, inside, typed, named, versioned⟩, -⟩ := wanted dep asked
      have first := imported layer layerType ((members baseType runType).mp inside) typed (targetType_of_find found)
      refine ⟨layer, resolveImport_eq_ok.mpr ⟨layerType, name, dep.2, found, rfl, ?_⟩, first⟩
      rw [← typed, ← named, ← versioned]
      exact (mem_requests first.mem).1
  · rintro ⟨versions, first⟩
    have alone : ∀ a b, (a = base ∨ a = runtime ∨
        FirstOf LayerRef.display (registry.requests lang code explicitDeps) a) → (b = base ∨ b = runtime ∨
        FirstOf LayerRef.display (registry.requests lang code explicitDeps) b) →
        a.layerType = b.layerType → a.name = b.name → a = b := by
      have mixed : ∀ a, FirstOf LayerRef.display (registry.requests lang code explicitDeps) a →
          a.layerType ≠ base.layerType ∧ a.layerType ≠ runtime.layerType := fun a firstA =>
        ⟨baseType ▸ (targetType_apart (mem_requests firstA.mem).2).1,
          runType ▸ (targetType_apart (mem_requests firstA.mem).2).2⟩
      rintro a b (rfl | rfl | firstA) (rfl | rfl | firstB) typed named
      · rfl
      · rw [baseType, runType] at typed
        cases typed
      · exact absurd typed.symm (mixed b firstB).1
      · rw [baseType, runType] at typed
        cases typed
      · rfl
      · exact absurd typed.symm (mixed b firstB).2
      · exact absurd typed (mixed a firstA).1
      · exact absurd typed (mixed a firstA).2
      · exact (mem_requests firstA.mem).1.ext (mem_requests firstB.mem).1 typed named
          (versions a b firstA firstB named)
    refine ⟨(single_iff distinct).mpr fun a inside b there => ?_, fun dep asked => ?_⟩
    · exact alone a b ((members baseType runType).mp inside) ((members baseType runType).mp there)
    · obtain ⟨layer, resolved, firstLayer⟩ := first dep asked
      obtain ⟨layerType, name, _, found, chosen, got⟩ := resolveImport_eq_ok.mp resolved
      obtain ⟨typed, named, versioned⟩ := getLayer_self got
      cases chosen
      refine ⟨layerType, name, found, ⟨layer, (members baseType runType).mpr (.inr (.inr firstLayer)), typed,
        named, versioned⟩, fun other inside otherType otherName => ?_⟩
      rw [alone other layer ((members baseType runType).mp inside) (.inr (.inr firstLayer))
        (otherType.trans typed.symm) (otherName.trans named.symm), versioned]

/-- The base layer, a runtime, and two versions of a package that goes by two
names. -/
def twoVersions : LayerRegistry :=
  [ stub .base "base" "v1",
    { stub .runtime "python" "3.12" with interpreter := some "/usr/bin/python3", interpreterArgs := ["-c"] },
    { stub .pip "numpy" "1.26" with provides := ["numpy", "np"], default := true },
    { stub .pip "numpy" "1.25" with provides := ["numpy", "np"] } ].foldl addLayer (new "/layers")

theorem pinned_version_is_alone :
    ∃ plan, twoVersions.resolve "python" "import os" [("numpy", "1.25")] = .ok plan ∧
      twoVersions.OneVersionEach "python" "import os" [("numpy", "1.25")] plan := by
  have shown : (twoVersions.requests "python" "import os" [("numpy", "1.25")]).map LayerRef.display =
      ["pip/numpy@1.25"] := by decide +kernel
  obtain ⟨pinned, only, -⟩ := List.map_eq_singleton_iff.mp shown
  have asked : twoVersions.resolveImport "python" "numpy" (.exact "1.25") = .ok pinned := by
    have request : pinned ∈ twoVersions.requests "python" "import os" [("numpy", "1.25")] := by
      rw [only]
      exact List.mem_singleton_self pinned
    have same : (twoVersions.resolveImport "python" "numpy" (.exact "1.25")).toOption.toList =
        twoVersions.requests "python" "import os" [("numpy", "1.25")] := by decide +kernel
    exact mem_toOption.mp (same ▸ request)
  have leads : FirstOf LayerRef.display (twoVersions.requests "python" "import os" [("numpy", "1.25")]) pinned :=
    ⟨[], [], only, List.not_mem_nil⟩
  have compatible : twoVersions.Compatible "python" "import os" [("numpy", "1.25")] := by
    refine ⟨fun a b first second _ => ?_, fun dep wanted => ?_⟩
    · have inside := first.mem
      have there := second.mem
      rw [only, List.mem_singleton] at inside there
      rw [inside, there]
    · have pragmas : parsePragmas "import os" = [] := by decide +kernel
      rw [wantedDeps, pragmas, List.filter_nil, List.append_nil, List.mem_singleton] at wanted
      exact ⟨pinned, wanted ▸ asked, leads⟩
  have ok : (twoVersions.resolve "python" "import os" [("numpy", "1.25")]).toOption.isSome := by decide +kernel
  cases resolved : twoVersions.resolve "python" "import os" [("numpy", "1.25")] with
  | error e =>
    rw [resolved] at ok
    cases ok
  | ok plan => exact ⟨plan, rfl, (one_version_each_iff resolved).mpr compatible⟩

/-- An import by a second name brings in the default version beside the one
that was asked for. -/
theorem second_name_adds_version :
    ¬ ∀ (registry : LayerRegistry) (lang code : String) (explicitDeps : List (String × String))
      (plan : CompositionPlan), registry.resolve lang code explicitDeps = .ok plan →
        registry.OneVersionEach lang code explicitDeps plan := by
  intro law
  have layers : (twoVersions.resolve "python" "import np" [("numpy", "1.25")]).toOption.map (fun plan =>
      plan.layers.map fun layer => (layer.layerType, layer.name)) =
      some [(.base, "base"), (.runtime, "python"), (.pip, "numpy"), (.pip, "numpy")] := by decide +kernel
  cases resolved : twoVersions.resolve "python" "import np" [("numpy", "1.25")] with
  | error e =>
    rw [resolved] at layers
    cases layers
  | ok plan =>
    rw [resolved] at layers
    have single := (law _ _ _ _ plan resolved).single
    have distinct : (plan.layers.map fun layer => (layer.layerType, layer.name)).Nodup :=
      List.pairwise_map.mpr (single.imp fun apart same => apart (Prod.mk.inj same))
    have twice : plan.layers.map (fun layer => (layer.layerType, layer.name)) =
        [(.base, "base"), (.runtime, "python"), (.pip, "numpy"), (.pip, "numpy")] := Option.some.inj layers
    rw [twice] at distinct
    exact absurd distinct (by decide)

end LayerRegistry
end TinyMachine.Layers
