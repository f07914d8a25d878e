import Mathlib.Data.List.Sort
import TinyMachine.Composer
import TinyMachine.Uops
import TinyMachine.Lib.FirstOf
import TinyMachine.Lib.Index
import TinyMachine.Lib.Text

/-! The layer registry: the index of installed layers, the names a program
imports, and how both become a composition plan. -/
namespace TinyMachine.Layers
open Lib Text Composer
open Uops (isWhitespace trim stripPrefix)

inductive RegistryError where
  | layerNotFound (typeName name version : String)
  | versionNotFound (name constraint : String)
  | importNotMapped (importName lang : String)
  | composition (message : String)
  deriving DecidableEq, Repr

def fromDirname : String → Option LayerType
  | "base" => some .base
  | "runtime" => some .runtime
  | "pip" => some .pip
  | "npm" => some .npm
  | "cargo" => some .cargo
  | "apt" => some .apt
  | "source" => some .source
  | _ => none

structure LayerMetadata where
  layerType : LayerType
  name : String
  version : String
  provides : List String
  requiresRuntime : Option String
  sizeBytes : UInt64
  compressedSize : UInt64
  hash : String
  kernelProfile : Option String
  memoryMb : UInt64
  interpreter : Option String
  interpreterArgs : List String
  default : Bool
  deriving DecidableEq, Repr

def defaultMemoryMb : UInt64 := 64

inductive VersionConstraint where
  | exact (version : String)
  | latest
  deriving DecidableEq, Repr

/-! ## What a program asks for -/

def singleQuote : Char := .ofNat 0x27
def doubleQuote : Char := .ofNat 0x22

/-- `name@version`, or a name alone. -/
def parseVersionConstraint (text : List Char) : List Char × VersionConstraint :=
  match splitOnce '@' text with
  | some (name, version) => (name, .exact (String.ofList version))
  | none => (text, .latest)

/-- The dependencies of `# tinymachine:dep` lines. A missing version is written
as the version `latest`. -/
def parsePragmas (code : String) : List (String × String) :=
  (lines code.toList).flatMap fun line =>
    match stripPrefix "# tinymachine:dep ".toList (trim line) with
    | some rest => (words isWhitespace rest).map fun part =>
      match parseVersionConstraint part with
      | (name, .exact version) => (String.ofList name, version)
      | (name, .latest) => (String.ofList name, "latest")
    | none => []

def pythonImports (line : List Char) : List (List Char) :=
  let trimmed := trim line
  (match stripPrefix "import ".toList trimmed with
    | some rest =>
      ((rest.splitOn ',').flatMap (words isWhitespace)).filterMap fun part =>
        let module := trim (part.takeWhile (· ≠ '.'))
        if part = "as".toList ∨ part.head? = some '#' ∨ module = [] ∨ module = "as".toList then none
        else some module
    | none => [])
  ++ match stripPrefix "from ".toList trimmed with
    | some rest =>
      match (words isWhitespace rest).head? with
      | some part =>
        let module := part.takeWhile (· ≠ '.')
        if module = [] then [] else [module]
      | none => []
    | none => []

def jsRequires (line : List Char) : List (List Char) :=
  let trimmed := trim line
  (match fromFirst "require(".toList trimmed with
    | some call =>
      match (splitOnce singleQuote call).bind fun opened => splitOnce singleQuote opened.2 with
      | some (module, _) =>
        if module.head? = some '.' ∨ module.head? = some '/' then [] else [module]
      | none => []
    | none => [])
  ++ match stripPrefix "import ".toList trimmed with
    | some rest =>
      match fromFirst " from ".toList rest with
      | some clause =>
        let module := trimMatches doubleQuote (trimMatches singleQuote (trim (clause.drop 6)))
        if module = [] ∨ module = "from".toList then [] else [module]
      | none => []
    | none => []

def extractImports (lang code : String) : List String :=
  if lang = "python" then
    ((lines code.toList).flatMap pythonImports).map String.ofList
  else if lang = "node" ∨ lang = "javascript" then
    ((lines code.toList).flatMap jsRequires).map String.ofList
  else
    []

/-! ## The registry -/

def layerKey (layerType : LayerType) (name : String) : String := layerType.dirname ++ "/" ++ name

/-- The installed layers under `type/name`, in whatever order the map lists
them. -/
structure LayerRegistry where
  layersPath : String
  index : Index String LayerMetadata
  filed : ∀ bucket ∈ index.buckets, ∀ layer ∈ bucket.2, bucket.1 = layerKey layer.layerType layer.name

/-- `Path::join`. -/
def joinPath (base part : String) : String :=
  if part.toList.head? = some '/' then part
  else if base = "" ∨ base.toList.getLast? = some '/' then base ++ part
  else base ++ "/" ++ part

namespace LayerRegistry
variable (registry : LayerRegistry)

def new (layersPath : String) : LayerRegistry where
  layersPath := layersPath
  index := .empty
  filed := nofun

def addLayer (layer : LayerMetadata) : LayerRegistry where
  layersPath := registry.layersPath
  index := registry.index.push (layerKey layer.layerType layer.name) layer
  filed := by
    intro bucket member inner inside
    rcases Index.mem_push member with old | rfl | ⟨old, there, rfl⟩
    · exact registry.filed bucket old inner inside
    · rw [List.mem_singleton.mp inside]
    · rcases List.mem_append.mp inside with earlier | only
      · exact registry.filed _ there inner earlier
      · rw [List.mem_singleton.mp only]

/-- The first layer of this type and name with this version. -/
def metadata (layerType : LayerType) (name version : String) : Option LayerMetadata :=
  (registry.index.bucket (layerKey layerType name)).bind fun layers =>
    layers.find? fun layer => layer.version = version

def getLayer (layerType : LayerType) (name version : String) : Except RegistryError LayerRef :=
  match registry.metadata layerType name version with
  | none => .error (.layerNotFound layerType.dirname name version)
  | some layer => .ok
    { layerType := layerType
      name := name
      version := version
      layerPath := joinPath (joinPath (joinPath (joinPath registry.layersPath layerType.dirname) name) version)
        "layer.cpio.zst"
      hash := layer.hash }

/-- The default version of any layer of this name, whatever its type, or else
any version of one. -/
def resolveVersion (name : String) : VersionConstraint → Except RegistryError String
  | .exact version => .ok version
  | .latest =>
    match registry.index.values.find? fun layer => layer.name = name ∧ layer.default with
    | some layer => .ok layer.version
    | none =>
      match registry.index.values.find? fun layer => layer.name = name with
      | some layer => .ok layer.version
      | none => .error (.versionNotFound name "latest")

/-- The kind of layers the imports of a language come from. -/
def targetType (lang : String) : Option LayerType :=
  if lang = "python" then some .pip
  else if lang = "node" ∨ lang = "javascript" then some .npm
  else none

def findLayerByImport (lang importName : String) : Except RegistryError (LayerType × String) :=
  match targetType lang with
  | none => .error (.importNotMapped importName lang)
  | some target =>
    match registry.index.values.find? fun layer => layer.layerType = target ∧ importName ∈ layer.provides with
    | some layer => .ok (target, layer.name)
    | none => .error (.importNotMapped importName lang)

def resolveImport (lang importName : String) (constraint : VersionConstraint) :
    Except RegistryError LayerRef := do
  let (layerType, layerName) ← registry.findLayerByImport lang importName
  let version ← registry.resolveVersion layerName constraint
  registry.getLayer layerType layerName version

def runtimeName (lang : String) : String :=
  if lang = "node" ∨ lang = "javascript" then "node" else "python"

/-- The explicit dependencies, and behind them the pragmas with new names. -/
def mergeDeps : List (String × String) → List (String × String) → List (String × String)
  | deps, [] => deps
  | deps, (name, version) :: pragmas =>
    if name ∈ deps.map Prod.fst then mergeDeps deps pragmas
    else mergeDeps (deps ++ [(name, version)]) pragmas

/-- A layer is added unless one with the same display is there. -/
def addLayerRef (layers : List LayerRef) (layer : LayerRef) : List LayerRef :=
  addNew LayerRef.display layers layer

/-- Imports that are named by a dependency or cannot be resolved are passed over. -/
def addImports (lang : String) (deps : List (String × String)) : List String → List LayerRef → List LayerRef
  | [], layers => layers
  | importName :: rest, layers =>
    if importName ∈ deps.map Prod.fst then addImports lang deps rest layers
    else
      match registry.resolveImport lang importName .latest with
      | .ok layer => addImports lang deps rest (addLayerRef layers layer)
      | .error _ => addImports lang deps rest layers

def addDeps (lang : String) : List (String × String) → List LayerRef → Except RegistryError (List LayerRef)
  | [], layers => .ok layers
  | (name, version) :: rest, layers => do
    let layer ← registry.resolveImport lang name (.exact version)
    addDeps lang rest (addLayerRef layers layer)

def metadataForLayer (layer : LayerRef) : Option LayerMetadata :=
  registry.metadata layer.layerType layer.name layer.version

/-- The first kernel profile other than `base`. -/
def kernelProfileFromLayers (layers : List LayerRef) : String :=
  (layers.findSome? fun layer =>
    ((registry.metadataForLayer layer).bind (·.kernelProfile)).filter (· ≠ "base")).getD "base"

def memoryMbFromLayers (layers : List LayerRef) : UInt64 :=
  layers.foldl (fun memory layer =>
    match registry.metadataForLayer layer with
    | some metadata => max memory metadata.memoryMb
    | none => memory) 128

/-- The default version of a runtime, or else its first. -/
def preferredRuntime (name : String) : Option LayerMetadata :=
  (registry.index.bucket (layerKey .runtime name)).bind fun layers =>
    (layers.find? (·.default)).or layers.head?

def cmdConfigFromRuntime (name : String) : Option CmdConfig :=
  (registry.preferredRuntime name).map fun layer =>
    { interpreter := layer.interpreter, args := layer.interpreterArgs, exec := none }

def cmdConfigOrFail (name : String) : Except RegistryError CmdConfig :=
  match registry.cmdConfigFromRuntime name with
  | some cmdConfig => .ok cmdConfig
  | none => .error (.composition
      ("no runtime layer found for '" ++ name ++ "' — cannot determine cmd_config"))

/-- The plan for a program. Its composition key is made of the profile and the
layers. -/
def resolve (lang code : String) (explicitDeps : List (String × String)) :
    Except RegistryError CompositionPlan := do
  let base ← registry.getLayer .base "base" "v1"
  let runtimeVersion ← registry.resolveVersion (runtimeName lang) .latest
  let runtime ← registry.getLayer .runtime (runtimeName lang) runtimeVersion
  let deps := mergeDeps explicitDeps (parsePragmas code)
  let imported := registry.addImports lang deps (extractImports lang code) [base, runtime]
  let layers ← registry.addDeps lang deps imported
  let cmdConfig ← registry.cmdConfigOrFail (runtimeName lang)
  return {
    layers := layers
    kernelProfile := registry.kernelProfileFromLayers layers
    memoryMb := registry.memoryMbFromLayers layers
    cmdConfig := cmdConfig }

/-! ## The registry file -/

/-- What a version line adds to the index. -/
def stub (layerType : LayerType) (name version : String) : LayerMetadata where
  layerType := layerType
  name := name
  version := version
  provides := []
  requiresRuntime := none
  sizeBytes := 0
  compressedSize := 0
  hash := ""
  kernelProfile := none
  memoryMb := defaultMemoryMb
  interpreter := none
  interpreterArgs := []
  default := false

/-- The value of a line that has an equals sign. -/
def lineValue (line : List Char) : Option (List Char) :=
  (splitOnce '=' line).map fun parts => trimMatches doubleQuote (trim parts.2)

def parseLine (current : List Char) (line : List Char) : List Char × LayerRegistry :=
  if line.head? = some '[' ∧ line.getLast? = some ']' then
    ((line.drop 1).dropLast, registry)
  else if "version".toList.isPrefixOf line ∧ current ≠ [] then
    match lineValue line with
    | none => (current, registry)
    | some version =>
      match splitOnce '/' current with
      | some (typeName, name) =>
        match fromDirname (String.ofList typeName) with
        | some layerType =>
          (current, registry.addLayer (stub layerType (String.ofList name) (String.ofList version)))
        | none => (current, registry)
      | none => (current, registry.addLayer (stub .runtime (String.ofList current) (String.ofList version)))
  else
    (current, registry)

def parseLines : List Char → List (List Char) → LayerRegistry → LayerRegistry
  | _, [], registry => registry
  | current, line :: rest, registry =>
    let (next, parsed) := registry.parseLine current (trim line)
    parseLines next rest parsed

def parseRegistryToml (content : List Char) : LayerRegistry := parseLines [] (lines content) registry

/-- `load_from`, with the content of `registry.toml` if there is one. -/
def loadFrom (layersPath : String) (content : Option (List Char)) : LayerRegistry :=
  match content with
  | some content => (new layersPath).parseRegistryToml content
  | none => new layersPath

def quoted (text : String) : List Char := doubleQuote :: text.toList ++ [doubleQuote]

def sectionLines (key : String) (layer : LayerMetadata) : List (List Char) :=
  ['[' :: quoted key ++ [']'],
    "version = ".toList ++ quoted layer.version,
    "hash = ".toList ++ quoted layer.hash]
  ++ (if layer.provides = [] then []
    else ["provides = [".toList ++ ", ".toList.intercalate (layer.provides.map quoted) ++ [']']])
  ++ (layer.requiresRuntime.map fun runtime => "requires_runtime = ".toList ++ quoted runtime).toList
  ++ (layer.kernelProfile.map fun profile => "kernel_profile = ".toList ++ quoted profile).toList
  ++ (if layer.default then ["default = true".toList] else [])
  ++ [[]]

def sections : List (String × LayerMetadata) :=
  (registry.index.buckets.flatMap fun bucket => bucket.2.map fun layer => (bucket.1, layer)).insertionSort
    fun a b => a.1 < b.1 ∨ a.1 = b.1 ∧ a.2.version ≤ b.2.version

def registryLines : List (List Char) :=
  ["# TinyMachine Layer Registry".toList, "# Auto-generated by layer_registry.rs".toList, []]
  ++ registry.sections.flatMap fun entry => sectionLines entry.1 entry.2

/-- What `save` writes to `registry.toml`. -/
def serializeRegistryToml : List Char := ['\n'].intercalate registry.registryLines

end LayerRegistry
end TinyMachine.Layers
