import TinyMachine.LayerCommand

/-! A dependency without a version: on its way through the texts of pragmas and
explicit dependencies the latest version becomes a version of that name. -/
namespace TinyMachine.Layers
open Lib Text Composer
open Uops (isWhitespace trim stripPrefix)

/-- The words of the pragma lines. -/
def pragmaWords (code : String) : List (List Char) :=
  (lines code.toList).flatMap fun line =>
    match stripPrefix "# tinymachine:dep ".toList (trim line) with
    | some rest => words isWhitespace rest
    | none => []

/-- The dependency that a word of a pragma stands for. -/
def pragmaDep (word : List Char) : String × String :=
  match parseVersionConstraint word with
  | (name, .exact version) => (String.ofList name, version)
  | (name, .latest) => (String.ofList name, "latest")

theorem parsePragmas_eq (code : String) : parsePragmas code = (pragmaWords code).map pragmaDep := by
  rw [parsePragmas, pragmaWords, List.map_flatMap]
  refine congrArg (List.flatMap · _) (funext fun line => ?_)
  cases stripPrefix "# tinymachine:dep ".toList (trim line) <;> rfl

theorem splitOnce_eq_none {α : Type} [DecidableEq α] {separator : α} {text : List α} (absent : separator ∉ text) :
    splitOnce separator text = none := by
  cases cut : splitOnce separator text with
  | none => rfl
  | some parts =>
    obtain ⟨split, -⟩ := splitOnce_eq_some cut
    exact absurd (split ▸ List.mem_append_right _ List.mem_cons_self) absent

theorem pragmaDep_unversioned {word : List Char} (plain : '@' ∉ word) :
    pragmaDep word = (String.ofList word, "latest") := by
  rw [pragmaDep, parseVersionConstraint, splitOnce_eq_none plain]

/-- A dependency passed with version `latest`, or written without a version in
a pragma. -/
def Unversioned (code : String) (explicitDeps : List (String × String)) (dep : String × String) : Prop :=
  (dep ∈ explicitDeps ∧ dep.2 = "latest") ∨ ∃ word ∈ pragmaWords code, '@' ∉ word ∧ dep = pragmaDep word

namespace LayerRegistry
variable {registry : LayerRegistry} {lang code : String} {explicitDeps : List (String × String)}

/-- What is asked for without a version resolves to the latest version of the
layer that provides it. -/
def MeansLatest (registry : LayerRegistry) (lang code : String) (explicitDeps : List (String × String)) : Prop :=
  ∀ dep ∈ mergeDeps explicitDeps (parsePragmas code), Unversioned code explicitDeps dep →
    ∀ layerType name, registry.findLayerByImport lang dep.1 = .ok (layerType, name) →
      ∃ version layer, registry.resolveVersion name .latest = .ok version ∧
        registry.resolveImport lang dep.1 (.exact dep.2) = .ok layer ∧ layer.version = version

/-- The latest version of every such layer is called `latest`. -/
def LatestByName (registry : LayerRegistry) (lang code : String) (explicitDeps : List (String × String)) : Prop :=
  ∀ dep ∈ mergeDeps explicitDeps (parsePragmas code), Unversioned code explicitDeps dep →
    ∀ layerType name, registry.findLayerByImport lang dep.1 = .ok (layerType, name) →
      (∃ lead, registry.Leads lead ∧ lead.name = name ∧ lead.version = "latest") ∧
        ∃ layer ∈ registry.index.values, layer.layerType = layerType ∧ layer.name = name ∧ layer.version = "latest"

theorem unversioned_latest {dep : String × String} (unversioned : Unversioned code explicitDeps dep) :
    dep.2 = "latest" := by
  rcases unversioned with ⟨-, latest⟩ | ⟨word, -, plain, rfl⟩
  · exact latest
  · rw [pragmaDep_unversioned plain]

/-- For a layer that is found the version `latest` is its latest version only
where that is its name. -/
theorem resolves_latest_iff {importName name : String} {layerType : LayerType}
    (found : registry.findLayerByImport lang importName = .ok (layerType, name)) :
    (∃ version layer, registry.resolveVersion name .latest = .ok version ∧
      registry.resolveImport lang importName (.exact "latest") = .ok layer ∧ layer.version = version) ↔
        registry.resolveVersion name .latest = .ok "latest" ∧ registry.Installed layerType name "latest" := by
  have resolved (layer : LayerRef) : registry.resolveImport lang importName (.exact "latest") = .ok layer ↔
      registry.getLayer layerType name "latest" = .ok layer := by
    rw [resolveImport, found]
    rfl
  simp only [resolved]
  constructor
  · rintro ⟨version, layer, chosen, got, rfl⟩
    rw [(getLayer_self got).2.2] at chosen
    exact ⟨chosen, layer, got⟩
  · rintro ⟨chosen, layer, got⟩
    exact ⟨"latest", layer, chosen, got, (getLayer_self got).2.2⟩

theorem means_latest_iff :
    registry.MeansLatest lang code explicitDeps ↔ registry.LatestByName lang code explicitDeps := by
  refine forall₂_congr fun dep wanted => forall_congr' fun unversioned => ?_
  refine forall₃_congr fun layerType name found => ?_
  rw [unversioned_latest unversioned, resolves_latest_iff found, resolveVersion_latest, installed_iff]

/-- One version of numpy, which is the default. -/
def oneNumpy : LayerRegistry :=
  (new "/layers").addLayer { stub .pip "numpy" "1.26.4" with provides := ["numpy"], default := true }

/-- A pragma for numpy does not find it. -/
theorem latest_is_not_found : ¬ ∀ (registry : LayerRegistry) (lang code : String)
    (explicitDeps : List (String × String)), registry.MeansLatest lang code explicitDeps := by
  intro always
  have wanted : ("numpy", "latest") ∈ mergeDeps [] (parsePragmas "# tinymachine:dep numpy") := by decide
  have unversioned : Unversioned "# tinymachine:dep numpy" [] ("numpy", "latest") :=
    .inr ⟨"numpy".toList, by decide, by decide, by decide⟩
  obtain ⟨version, layer, -, resolved, -⟩ := always oneNumpy "python" _ [] _ wanted unversioned .pip "numpy" (by decide)
  have missing : oneNumpy.resolveImport "python" "numpy" (.exact "latest") =
      .error (.layerNotFound "pip" "numpy" "latest") := by decide
  rw [missing] at resolved
  cases resolved

end LayerRegistry
end TinyMachine.Layers
