import TinyMachine.Lib.Runs
import TinyMachine.LayerCommand

/-! The index of the layer registry over its lifetime: layers are added and
removed, defaults are chosen, and the index is built again from the layers
directory. -/
namespace TinyMachine.Layers
open Lib Composer

/-! ## The layers directory -/

inductive ScanError where
  | io (message : String)
  | parse (message : String)
  deriving DecidableEq, Repr

/-- What reading a directory yields, in whatever order. -/
abbrev Listing (α : Type) := Except String (List (Except String α))

/-- A version directory, and what reading the files in it yields. -/
structure VersionEntry where
  name : String
  isDir : Bool
  hasLayer : Bool
  layerSize : Except String UInt64
  metadata : Option (Except ScanError LayerMetadata)

structure NameEntry where
  name : String
  isDir : Bool
  versions : Listing VersionEntry

structure TypeEntry where
  name : String
  isDir : Bool
  names : Listing NameEntry

structure LayersDir where
  present : Bool
  types : Listing TypeEntry

def hidden (name : String) : Bool := name.toList.head? = some '.'

/-- What a loop over a directory comes by, up to its end. -/
def Listing.visit {α : Type} (listing : Listing α) (visit : α → List (Except ScanError LayerMetadata)) :
    List (Except ScanError LayerMetadata) :=
  match listing with
  | .error message => [.error (.io message)]
  | .ok entries => entries.flatMap fun
    | .error message => [.error (.io message)]
    | .ok entry => visit entry

/-- The metadata of a layer that has no `meta.json`. -/
def minimalMetadata (typeName name version : String) (size : UInt64) : LayerMetadata :=
  { LayerRegistry.stub ((fromDirname typeName).getD .source) name version with
    sizeBytes := size * 3
    compressedSize := size }

def VersionEntry.read (typeName name : String) (entry : VersionEntry) : List (Except ScanError LayerMetadata) :=
  if ¬ entry.isDir ∨ hidden entry.name ∨ ¬ entry.hasLayer then []
  else
    match entry.metadata, entry.layerSize with
    | some metadata, _ => [metadata]
    | none, .error message => [.error (.io message)]
    | none, .ok size => [.ok (minimalMetadata typeName name entry.name size)]

def NameEntry.read (typeName : String) (entry : NameEntry) : List (Except ScanError LayerMetadata) :=
  if ¬ entry.isDir ∨ hidden entry.name then [] else entry.versions.visit (VersionEntry.read typeName entry.name)

def TypeEntry.read (entry : TypeEntry) : List (Except ScanError LayerMetadata) :=
  if ¬ entry.isDir ∨ hidden entry.name then [] else entry.names.visit (NameEntry.read entry.name)

def LayersDir.read (directory : LayersDir) : List (Except ScanError LayerMetadata) :=
  if directory.present then directory.types.visit TypeEntry.read else []

/-- The layers that are found before the first failure. -/
def LayersDir.found (directory : LayersDir) : List LayerMetadata :=
  (directory.read.takeWhile Except.toBool).filterMap Except.toOption

namespace LayerRegistry

/-! ## Operations -/

/-- The first failure ends the scan; what was added before it stays. -/
def addScanned : List (Except ScanError LayerMetadata) → LayerRegistry → Except ScanError Unit × LayerRegistry
  | [], registry => (.ok (), registry)
  | .error error :: _, registry => (.error error, registry)
  | .ok layer :: rest, registry => addScanned rest (registry.addLayer layer)

def scanLayers (registry : LayerRegistry) (directory : LayersDir) : Except ScanError Unit × LayerRegistry :=
  addScanned directory.read (new registry.layersPath)

/-- A type and name without versions leaves the index. -/
def removeLayer (registry : LayerRegistry) (layerType : LayerType) (name version : String) :
    Except RegistryError Unit × LayerRegistry :=
  match registry.index.bucket (layerKey layerType name) with
  | none => (.error (.layerNotFound layerType.dirname name version), registry)
  | some _ => (.ok (),
    { layersPath := registry.layersPath
      index := registry.index.retainAt (layerKey layerType name) fun layer => layer.version ≠ version
      filed := by
        intro bucket member layer inside
        rcases Index.mem_retainAt_iff.mp member with ⟨there, -⟩ | ⟨rfl, -⟩
        · exact registry.filed bucket there layer inside
        · obtain ⟨values, there, held⟩ := Index.mem_valuesAt_iff.mp (List.mem_of_mem_filter inside)
          exact registry.filed _ there layer held })

/-- The layers of every key are changed, though not their types and names. -/
def mapLayers (registry : LayerRegistry) (f : List LayerMetadata → List LayerMetadata)
    (keeps : ∀ layers, ∀ layer ∈ f layers, ∃ old ∈ layers, layer.layerType = old.layerType ∧ layer.name = old.name) :
    LayerRegistry where
  layersPath := registry.layersPath
  index := registry.index.mapBuckets f
  filed := by
    intro bucket member layer inside
    obtain ⟨old, there, rfl⟩ := List.mem_map.mp member
    obtain ⟨before, held, typed, named⟩ := keeps _ layer inside
    rw [typed, named]
    exact registry.filed old there before held

def chooseVersion (name version : String) (layer : LayerMetadata) : LayerMetadata :=
  if layer.name = name then { layer with default := layer.version = version } else layer

/-- Layers of this name become the default or no default, whatever their type. -/
def updateLatest (registry : LayerRegistry) (name version : String) : LayerRegistry :=
  registry.mapLayers (List.map (chooseVersion name version)) (by
    intro layers layer member
    obtain ⟨old, held, rfl⟩ := List.mem_map.mp member
    refine ⟨old, held, ?_⟩
    unfold chooseVersion
    split
    · exact ⟨rfl, rfl⟩
    · exact ⟨rfl, rfl⟩)

/-- The greatest version, as texts are compared. -/
def newest : List LayerMetadata → Option String
  | [] => none
  | layer :: rest => some (rest.foldl (fun newest other => if newest ≤ other.version then other.version else newest)
      layer.version)

def chooseNewest (layers : List LayerMetadata) : List LayerMetadata :=
  match newest layers with
  | none => layers
  | some version => layers.map fun layer => { layer with default := layer.version = version }

def updateAllLatest (registry : LayerRegistry) : LayerRegistry :=
  registry.mapLayers chooseNewest (by
    intro layers layer member
    unfold chooseNewest at member
    split at member
    · exact ⟨layer, member, rfl, rfl⟩
    · obtain ⟨old, held, rfl⟩ := List.mem_map.mp member
      exact ⟨old, held, rfl, rfl⟩)

/-- The layers of a type and name, in the order they were added. -/
def entries (registry : LayerRegistry) (layerType : LayerType) (name : String) : List LayerMetadata :=
  registry.index.valuesAt (layerKey layerType name)

/-! ## What the operations do to a type and name -/

section Entries
variable {registry : LayerRegistry} {layerType other : LayerType} {name version otherName : String}
  {layer : LayerMetadata}

theorem key_eq_iff : layerKey other otherName = layerKey layerType name ↔ other = layerType ∧ otherName = name := by
  constructor
  · exact layerKey_inj
  · rintro ⟨rfl, rfl⟩
    rfl

theorem coordinates_entries (member : layer ∈ registry.entries layerType name) :
    layer.layerType = layerType ∧ layer.name = name := by
  obtain ⟨values, there, inside⟩ := Index.mem_valuesAt_iff.mp member
  exact (coordinates (Index.bucket_eq_some_iff.mpr there) inside).2

theorem entries_new (layersPath : String) : (new layersPath).entries layerType name = [] := rfl

theorem entries_addLayer : (registry.addLayer layer).entries layerType name =
    if layerType = layer.layerType ∧ name = layer.name then registry.entries layerType name ++ [layer]
    else registry.entries layerType name := by
  rw [entries, addLayer, Index.valuesAt_push]
  simp only [key_eq_iff]
  split
  · rename_i same
    rw [entries, same.1, same.2]
  · rfl

theorem entries_removeLayer : (registry.removeLayer other otherName version).2.entries layerType name =
    if layerType = other ∧ name = otherName then
      (registry.entries layerType name).filter fun layer => layer.version ≠ version
    else registry.entries layerType name := by
  unfold removeLayer
  split
  · rename_i missing
    dsimp only
    split
    · rename_i same
      rw [entries, same.1, same.2, Index.valuesAt_of_none missing]
      rfl
    · rfl
  · dsimp only
    rw [entries, Index.valuesAt_retainAt]
    simp only [key_eq_iff]
    split
    · rename_i same
      rw [entries, same.1, same.2]
    · rfl

theorem entries_updateLatest : (registry.updateLatest otherName version).entries layerType name =
    if name = otherName then
      (registry.entries layerType name).map fun layer => { layer with default := layer.version = version }
    else registry.entries layerType name := by
  have changed : (registry.updateLatest otherName version).entries layerType name =
      (registry.entries layerType name).map (chooseVersion otherName version) :=
    Index.valuesAt_mapBuckets (List.map_nil ..)
  rw [changed]
  split
  · rename_i same
    refine List.map_congr_left fun layer member => ?_
    rw [chooseVersion, if_pos ((coordinates_entries member).2.trans same)]
  · rename_i apart
    refine (List.map_congr_left fun layer member => ?_).trans (List.map_id _)
    rw [chooseVersion, if_neg fun same => apart ((coordinates_entries member).2.symm.trans same)]
    rfl

theorem entries_updateAllLatest : registry.updateAllLatest.entries layerType name =
    chooseNewest (registry.entries layerType name) := Index.valuesAt_mapBuckets rfl

/-- A scan adds what it found to an empty index. -/
theorem entries_addScanned (read : List (Except ScanError LayerMetadata)) (registry : LayerRegistry) :
    (addScanned read registry).2.entries layerType name = registry.entries layerType name ++
      ((read.takeWhile Except.toBool).filterMap Except.toOption).filter
        fun layer => layer.layerType = layerType ∧ layer.name = name := by
  induction read generalizing registry with
  | nil => exact (List.append_nil _).symm
  | cons first rest ih =>
    cases first with
    | error error => exact (List.append_nil _).symm
    | ok layer =>
      rw [addScanned, ih, entries_addLayer]
      have next : ((Except.ok layer :: rest).takeWhile Except.toBool).filterMap
          (Except.toOption (ε := ScanError)) = layer :: (rest.takeWhile Except.toBool).filterMap Except.toOption := rfl
      rw [next]
      split
      · rename_i same
        rw [List.filter_cons_of_pos (by simp [same.1, same.2]), List.append_assoc, List.singleton_append]
      · rename_i apart
        have other : ¬ (layer.layerType = layerType ∧ layer.name = name) := fun same =>
          apart ⟨same.1.symm, same.2.symm⟩
        simp only [List.filter_cons, decide_eq_false other, Bool.false_eq_true, if_false]

theorem entries_scanLayers (directory : LayersDir) : (registry.scanLayers directory).2.entries layerType name =
    directory.found.filter fun layer => layer.layerType = layerType ∧ layer.name = name := by
  rw [scanLayers, entries_addScanned, entries_new]
  rfl

theorem metadata_eq : registry.metadata layerType name version =
    (registry.entries layerType name).find? fun layer => layer.version = version := by
  rw [metadata, entries, Index.valuesAt]
  cases registry.index.bucket (layerKey layerType name) with
  | none => rfl
  | some layers => rfl

end Entries
end LayerRegistry
end TinyMachine.Layers
