import TinyMachine.LayerIndex

/-! What holds of the layer index after any sequence of operations: a version
is listed once for its type and name, one version at most is the default, and
removing finds what a lookup finds. -/
namespace TinyMachine.Layers
open Lib Composer

/-- Two layers that must not both be listed for a type and name. -/
def LayerMetadata.Clash (layer other : LayerMetadata) : Prop :=
  layer.version = other.version ∨ layer.default = true ∧ other.default = true

theorem length_filter_le_one_iff {α : Type} {p : α → Bool} {list : List α} :
    (list.filter p).length ≤ 1 ↔ list.Pairwise fun a b => ¬ (p a = true ∧ p b = true) := by
  induction list with
  | nil => simp
  | cons a rest ih =>
    rw [List.pairwise_cons]
    by_cases flagged : p a = true
    · rw [List.filter_cons_of_pos flagged, List.length_cons]
      constructor
      · intro short
        have none : rest.filter p = [] := List.eq_nil_of_length_eq_zero (by omega)
        rw [List.filter_eq_nil_iff] at none
        refine ⟨fun b member both => none b member both.2, ih.mp ?_⟩
        rw [List.filter_eq_nil_iff.mpr none]
        exact Nat.zero_le 1
      · rintro ⟨alone, -⟩
        have none : rest.filter p = [] := List.filter_eq_nil_iff.mpr fun b member other => alone b member ⟨flagged, other⟩
        rw [none]
        exact Nat.le_refl 1
    · rw [List.filter_cons_of_neg flagged, ih]
      constructor
      · exact fun rest => ⟨fun b _ both => flagged both.1, rest⟩
      · exact And.right

namespace LayerRegistry

/-- Each version is listed once for its type and name, and one at most is the
default. -/
structure Orderly (registry : LayerRegistry) : Prop where
  versions : ∀ layerType name, ((registry.entries layerType name).map (·.version)).Nodup
  defaults : ∀ layerType name, ((registry.entries layerType name).filter (·.default)).length ≤ 1

def Apart (layers : List LayerMetadata) : Prop := layers.Pairwise fun layer other => ¬ layer.Clash other

theorem apart_iff {layers : List LayerMetadata} :
    Apart layers ↔ (layers.map (·.version)).Nodup ∧ (layers.filter (·.default)).length ≤ 1 := by
  rw [length_filter_le_one_iff, List.Nodup, List.pairwise_map, ← List.pairwise_and_iff]
  simp only [Apart, LayerMetadata.Clash, not_or, ne_eq]

theorem orderly_iff {registry : LayerRegistry} :
    registry.Orderly ↔ ∀ layerType name, Apart (registry.entries layerType name) := by
  simp only [apart_iff]
  constructor
  · exact fun orderly layerType name => ⟨orderly.versions layerType name, orderly.defaults layerType name⟩
  · exact fun apart => ⟨fun layerType name => (apart layerType name).1, fun layerType name => (apart layerType name).2⟩

/-! ## Operations -/

inductive RegistryCall where
  | addLayer (layer : LayerMetadata)
  | removeLayer (layerType : LayerType) (name version : String)
  | updateLatest (name version : String)
  | updateAllLatest
  | scanLayers (directory : LayersDir)

def after (registry : LayerRegistry) : RegistryCall → LayerRegistry
  | .addLayer layer => registry.addLayer layer
  | .removeLayer layerType name version => (registry.removeLayer layerType name version).2
  | .updateLatest name version => registry.updateLatest name version
  | .updateAllLatest => registry.updateAllLatest
  | .scanLayers directory => (registry.scanLayers directory).2

def history (layersPath : String) : System LayerRegistry RegistryCall where
  start := fun registry => registry = new layersPath
  step := fun registry call next => next = registry.after call

/-- Removing succeeds exactly where a lookup does. -/
def RemovesWhatIsListed (registry : LayerRegistry) : RegistryCall → Prop
  | .removeLayer layerType name version =>
    (registry.removeLayer layerType name version).1 = .ok () ↔ registry.Installed layerType name version
  | _ => True

/-- What is added or scanned does not clash with another layer of its type and
name, and what is removed is listed or has no listed version. -/
def Keeps (registry : LayerRegistry) : RegistryCall → Prop
  | .addLayer layer => ∀ other ∈ registry.entries layer.layerType layer.name, ¬ other.Clash layer
  | .removeLayer layerType name version => registry.Installed layerType name version ∨
      registry.index.bucket (layerKey layerType name) = none
  | .scanLayers directory => directory.found.Pairwise fun layer other =>
      layer.layerType = other.layerType → layer.name = other.name → ¬ layer.Clash other
  | .updateLatest _ _ => True
  | .updateAllLatest => True

section Steps
variable {registry : LayerRegistry} {layerType : LayerType} {name version : String} {layer : LayerMetadata}

theorem orderly_addLayer_iff (orderly : registry.Orderly) :
    (registry.addLayer layer).Orderly ↔ registry.Keeps (.addLayer layer) := by
  rw [orderly_iff] at orderly ⊢
  constructor
  · intro apart other member clash
    have here := apart layer.layerType layer.name
    rw [entries_addLayer, if_pos ⟨rfl, rfl⟩, Apart, List.pairwise_append] at here
    exact here.2.2 other member layer (List.mem_singleton_self layer) clash
  · intro fresh layerType name
    rw [entries_addLayer]
    split
    · rename_i same
      obtain ⟨rfl, rfl⟩ := same
      rw [Apart, List.pairwise_append]
      refine ⟨orderly _ _, List.pairwise_singleton _ _, ?_⟩
      intro other member last only
      rw [List.mem_singleton.mp only]
      exact fresh other member
    · exact orderly layerType name

/-- Choosing the default by the version chooses one at most. -/
theorem apart_choose {layers : List LayerMetadata} (apart : Apart layers) (version : String) :
    Apart (layers.map fun layer => { layer with default := layer.version = version }) := by
  rw [Apart, List.pairwise_map]
  refine apart.imp fun clean clash => clean (.inl ?_)
  rcases clash with same | ⟨one, two⟩
  · exact same
  · exact (of_decide_eq_true one).trans (of_decide_eq_true two).symm

theorem orderly_updateLatest (orderly : registry.Orderly) : (registry.updateLatest name version).Orderly := by
  rw [orderly_iff] at orderly ⊢
  intro layerType other
  rw [entries_updateLatest]
  split
  · exact apart_choose (orderly layerType other) version
  · exact orderly layerType other

theorem orderly_updateAllLatest (orderly : registry.Orderly) : registry.updateAllLatest.Orderly := by
  rw [orderly_iff] at orderly ⊢
  intro layerType other
  rw [entries_updateAllLatest, chooseNewest]
  split
  · exact orderly layerType other
  · exact apart_choose (orderly layerType other) _

theorem orderly_removeLayer (orderly : registry.Orderly) :
    (registry.removeLayer layerType name version).2.Orderly := by
  rw [orderly_iff] at orderly ⊢
  intro other otherName
  rw [entries_removeLayer]
  split
  · exact (orderly other otherName).filter _
  · exact orderly other otherName

theorem orderly_scanLayers_iff (directory : LayersDir) :
    (registry.scanLayers directory).2.Orderly ↔ registry.Keeps (.scanLayers directory) := by
  rw [orderly_iff]
  simp only [entries_scanLayers, Apart, List.pairwise_filter, decide_eq_true_eq]
  constructor
  · intro apart
    rw [Keeps, List.pairwise_iff_getElem]
    intro i j low high earlier typed named
    have here := List.pairwise_iff_getElem.mp (apart directory.found[i].layerType directory.found[i].name)
    exact here i j low high earlier ⟨rfl, rfl⟩ ⟨typed.symm, named.symm⟩
  · intro apart layerType name
    refine apart.imp fun clean one two => ?_
    exact clean (one.1.trans two.1.symm) (one.2.trans two.2.symm)

theorem installed_iff_entries : registry.Installed layerType name version ↔
    ∃ layer ∈ registry.entries layerType name, layer.version = version := by
  rw [Installed, getLayer, metadata_eq]
  constructor
  · rintro ⟨reference, got⟩
    split at got
    · cases got
    · rename_i layer found
      have versioned := List.find?_some found
      exact ⟨layer, List.mem_of_find?_eq_some found, of_decide_eq_true versioned⟩
  · rintro ⟨layer, member, same⟩
    split
    · rename_i none
      exact absurd (decide_eq_true same) (List.find?_eq_none.mp none layer member)
    · exact ⟨_, rfl⟩

theorem not_installed_of_missing (missing : registry.index.bucket (layerKey layerType name) = none) :
    ¬ registry.Installed layerType name version := by
  rw [installed_iff_entries, entries, Index.valuesAt_of_none missing]
  rintro ⟨layer, member, -⟩
  cases member

theorem removeLayer_ok_iff : (registry.removeLayer layerType name version).1 = .ok () ↔
    registry.index.bucket (layerKey layerType name) ≠ none := by
  unfold removeLayer
  split
  · rename_i missing
    simp [missing]
  · rename_i held
    simp [held]

theorem removesWhatIsListed_iff : registry.RemovesWhatIsListed (.removeLayer layerType name version) ↔
    registry.Keeps (.removeLayer layerType name version) := by
  rw [RemovesWhatIsListed, removeLayer_ok_iff, Keeps]
  by_cases missing : registry.index.bucket (layerKey layerType name) = none
  · have nowhere : ¬ registry.Installed layerType name version := not_installed_of_missing missing
    simp [nowhere, missing]
  · simp [missing]

theorem find?_without (layers : List LayerMetadata) (version otherVersion : String) :
    (layers.filter fun layer => layer.version ≠ version).find? (fun layer => layer.version = otherVersion) =
      if otherVersion = version then none else layers.find? fun layer => layer.version = otherVersion := by
  split
  · rename_i same
    rw [List.find?_eq_none]
    intro layer member
    rw [same]
    simpa using (List.mem_filter.mp member).2
  · rename_i apart
    rw [List.find?_filter]
    congr 1
    funext layer
    by_cases here : layer.version = otherVersion
    · simp [here, apart]
    · simp [here]

theorem metadata_removeLayer (registry : LayerRegistry) (layerType other : LayerType)
    (name version otherName otherVersion : String) :
    (registry.removeLayer layerType name version).2.metadata other otherName otherVersion =
      if other = layerType ∧ otherName = name ∧ otherVersion = version then none
      else registry.metadata other otherName otherVersion := by
  rw [metadata_eq, metadata_eq, entries_removeLayer]
  by_cases same : other = layerType ∧ otherName = name
  · rw [if_pos same, find?_without]
    simp only [same, true_and]
  · rw [if_neg same, if_neg fun all => same ⟨all.1, all.2.1⟩]

/-- After its removal a layer is not found, and no lookup but its own changes. -/
theorem getLayer_removeLayer (registry : LayerRegistry) (layerType other : LayerType)
    (name version otherName otherVersion : String) :
    (registry.removeLayer layerType name version).2.getLayer other otherName otherVersion =
      if other = layerType ∧ otherName = name ∧ otherVersion = version then
        .error (.layerNotFound layerType.dirname name version)
      else registry.getLayer other otherName otherVersion := by
  have path : (registry.removeLayer layerType name version).2.layersPath = registry.layersPath := by
    unfold removeLayer
    split
    · rfl
    · rfl
  rw [getLayer, metadata_removeLayer, path]
  split_ifs with same
  · obtain ⟨rfl, rfl, rfl⟩ := same
    rfl
  · rfl

/-- Choosing a version leaves it as the one default where it is installed. -/
theorem one_default_iff (orderly : registry.Orderly) :
    (((registry.updateLatest name version).entries layerType name).filter (·.default)).map (·.version) = [version] ↔
      registry.Installed layerType name version := by
  have chosen : (((registry.updateLatest name version).entries layerType name).filter (·.default)).map (·.version) =
      ((registry.entries layerType name).map (·.version)).filter (· = version) := by
    rw [entries_updateLatest, if_pos rfl, List.filter_map, List.map_map, List.filter_map]
    rfl
  rw [chosen, installed_iff_entries]
  constructor
  · intro one
    have listed : version ∈ ((registry.entries layerType name).map (·.version)).filter (· = version) :=
      one ▸ List.mem_singleton_self version
    exact List.mem_map.mp (List.mem_of_mem_filter listed)
  · rintro ⟨layer, member, same⟩
    have listed : version ∈ (registry.entries layerType name).map (·.version) := same ▸ List.mem_map_of_mem member
    rw [List.filter_eq, List.count_eq_one_of_mem (orderly.versions layerType name) listed]
    rfl

/-- The condition on an operation is exact. -/
theorem lawful_iff {call : RegistryCall} (orderly : registry.Orderly) :
    (registry.after call).Orderly ∧ registry.RemovesWhatIsListed call ↔ registry.Keeps call := by
  cases call with
  | addLayer layer => exact (and_iff_left trivial).trans (orderly_addLayer_iff orderly)
  | removeLayer layerType name version =>
    exact (and_iff_right (orderly_removeLayer orderly)).trans removesWhatIsListed_iff
  | updateLatest name version => exact iff_of_true ⟨orderly_updateLatest orderly, trivial⟩ trivial
  | updateAllLatest => exact iff_of_true ⟨orderly_updateAllLatest orderly, trivial⟩ trivial
  | scanLayers directory => exact (and_iff_left trivial).trans (orderly_scanLayers_iff directory)

end Steps

/-! ## Histories -/

theorem orderly_new (layersPath : String) : (new layersPath).Orderly := by
  rw [orderly_iff]
  intro layerType name
  exact List.Pairwise.nil

theorem orderly_reached {layersPath : String} {registry : LayerRegistry}
    (reached : (history layersPath).Reached Keeps registry) : registry.Orderly := by
  apply reached.invariant
  · rintro _ rfl
    exact orderly_new layersPath
  · rintro before call _ orderly keeps rfl
    exact ((lawful_iff orderly).mpr keeps).1

/-- In a history whose operations meet the condition the index is orderly,
choosing a version leaves one default where it is installed, and removing a
layer is seen by its own lookup alone. The next operation keeps the index orderly, and removes
exactly what is listed, if and only if it meets the condition as well. -/
theorem history_is_orderly (layersPath : String) (registry : LayerRegistry)
    (reached : (history layersPath).Reached Keeps registry) :
    registry.Orderly ∧
    (∀ layerType name version,
      (((registry.updateLatest name version).entries layerType name).filter (·.default)).map (·.version) = [version] ↔
        registry.Installed layerType name version) ∧
    (∀ layerType name version other otherName otherVersion,
      (registry.removeLayer layerType name version).2.getLayer other otherName otherVersion =
        if other = layerType ∧ otherName = name ∧ otherVersion = version then
          .error (.layerNotFound layerType.dirname name version)
        else registry.getLayer other otherName otherVersion) ∧
    ∀ call, (registry.after call).Orderly ∧ registry.RemovesWhatIsListed call ↔ registry.Keeps call := by
  have orderly := orderly_reached reached
  refine ⟨orderly, fun _ _ _ => one_default_iff orderly, ?_, fun _ => lawful_iff orderly⟩
  intro layerType name version other otherName otherVersion
  exact getLayer_removeLayer registry layerType other name version otherName otherVersion

/-! ### A layer of one version -/

def numpy (version : String) : LayerMetadata := stub .pip "numpy" version

theorem added_layer_is_listed :
    let registry := (new "layers").addLayer (numpy "1.26.4")
    registry.Orderly ∧ (((registry.updateLatest "numpy" "1.26.4").entries .pip "numpy").filter (·.default)).map
      (·.version) = ["1.26.4"] := by
  have fresh : (new "layers").Keeps (.addLayer (numpy "1.26.4")) := fun other member => by cases member
  have law := history_is_orderly "layers" _ (.next (.start rfl) fresh rfl)
  have installed : ((new "layers").addLayer (numpy "1.26.4")).Installed .pip "numpy" "1.26.4" := by
    rw [installed_iff_entries, entries_addLayer]
    exact ⟨numpy "1.26.4", List.mem_singleton_self _, rfl⟩
  exact ⟨law.1, (law.2.1 _ _ _).mpr installed⟩

/-- A layer that is added twice is listed twice, and one that is not listed is
removed. -/
theorem layer_is_listed_twice :
    let twice := ((new "layers").addLayer (numpy "1.26.4")).addLayer (numpy "1.26.4")
    (history "layers").Reached (fun _ _ => True) twice ∧ ¬ twice.Orderly ∧
      ¬ ((new "layers").addLayer (numpy "1.26.4")).RemovesWhatIsListed (.removeLayer .pip "numpy" "2.0.0") := by
  refine ⟨?_, ?_, ?_⟩
  · have once : (history "layers").step (new "layers") (.addLayer (numpy "1.26.4"))
        ((new "layers").addLayer (numpy "1.26.4")) := rfl
    have twice : (history "layers").step ((new "layers").addLayer (numpy "1.26.4")) (.addLayer (numpy "1.26.4"))
        (((new "layers").addLayer (numpy "1.26.4")).addLayer (numpy "1.26.4")) := rfl
    exact .next (.next (.start rfl) trivial once) trivial twice
  · intro orderly
    have versions := orderly.versions .pip "numpy"
    revert versions
    decide +kernel
  · rw [removesWhatIsListed_iff, Keeps, installed_iff_entries]
    decide +kernel

end LayerRegistry
end TinyMachine.Layers
