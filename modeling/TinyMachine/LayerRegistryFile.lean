import TinyMachine.LayerRegistry

/-! The registry file. The writer puts quotation marks into its section headers
and the reader takes them for part of the layer type, so that nothing which was
written comes back. -/
namespace TinyMachine.Layers
open Lib Text Composer
open Uops (isWhitespace trim stripPrefix)

/-! ## Lines -/

section Lines
variable {line rest text : List Char} {texts : List (List Char)}

/-- A text is cut into lines it was put together from. -/
theorem mem_lines_intercalate (whole : ∀ text ∈ texts, '\n' ∉ text ∧ text.getLast? ≠ some '\r')
    (member : line ∈ lines (['\n'].intercalate texts)) : line ∈ texts := by
  induction texts with
  | nil => exact member
  | cons first texts ih =>
    obtain ⟨noBreak, noReturn⟩ := whole first List.mem_cons_self
    cases texts with
    | nil =>
      rw [List.intercalate, List.intersperse_singleton, List.flatten_singleton, lines,
        ← List.append_nil first, linesFrom_append noBreak] at member
      simp only [linesFrom, List.nil_append] at member
      split at member
      · cases member
      · simpa using member
    | cons second texts =>
      have step : ['\n'].intercalate (first :: second :: texts) =
          first ++ '\n' :: ['\n'].intercalate (second :: texts) := by
        simp [List.intercalate]
      rw [step, lines, linesFrom_append noBreak, linesFrom, if_pos rfl, List.nil_append, if_neg noReturn] at member
      rcases List.mem_cons.mp member with here | later
      · exact here ▸ List.mem_cons_self
      · exact List.mem_cons_of_mem _ (ih (fun text inside => whole text (List.mem_cons_of_mem _ inside)) later)

private theorem dropWhile_append_last {c : Char} (solid : isWhitespace c = false) (text : List Char) :
    ∃ kept, (text ++ [c]).dropWhile isWhitespace = kept ++ [c] := by
  induction text with
  | nil => exact ⟨[], by simp [solid]⟩
  | cons d text ih =>
    obtain ⟨kept, same⟩ := ih
    by_cases blank : isWhitespace d = true
    · exact ⟨kept, by rw [List.cons_append, List.dropWhile_cons_of_pos blank, same]⟩
    · exact ⟨d :: text, by rw [List.cons_append, List.dropWhile_cons_of_neg blank]⟩

/-- Trimming keeps a first character that is not blank. -/
theorem trim_cons {c : Char} (solid : isWhitespace c = false) (text : List Char) :
    ∃ kept, trim (c :: text) = c :: kept := by
  obtain ⟨kept, same⟩ := dropWhile_append_last solid text.reverse
  refine ⟨kept.reverse, ?_⟩
  rw [trim, List.dropWhile_cons_of_neg (by simp [solid]), List.reverse_cons, same, List.reverse_append]
  rfl

/-- Nothing is trimmed from a text whose ends are not blank. -/
theorem trim_solid {c d : Char} (first : isWhitespace c = false) (last : isWhitespace d = false) :
    trim (c :: text ++ [d]) = c :: text ++ [d] := by
  have turned : (c :: text ++ [d]).reverse = d :: (c :: text).reverse := by
    rw [List.reverse_append, List.reverse_singleton, List.singleton_append]
  rw [trim, List.cons_append, List.dropWhile_cons_of_neg (by simp [first]), ← List.cons_append, turned,
    List.dropWhile_cons_of_neg (by simp [last]), ← turned, List.reverse_reverse]

end Lines

/-! ## Reading what was written -/

/-- No double quote and no line break. -/
def CleanText (text : String) : Prop := doubleQuote ∉ text.toList ∧ '\n' ∉ text.toList

structure CleanLayer (layer : LayerMetadata) : Prop where
  name : CleanText layer.name
  version : CleanText layer.version
  hash : CleanText layer.hash
  provides : ∀ importName ∈ layer.provides, CleanText importName
  requiresRuntime : ∀ runtime ∈ layer.requiresRuntime, CleanText runtime
  kernelProfile : ∀ profile ∈ layer.kernelProfile, CleanText profile

namespace LayerRegistry
variable {registry : LayerRegistry} {current line : List Char}

/-- A section name as the reader keeps it: none yet, or one that begins with a
quotation mark. -/
def Misread (current : List Char) : Prop :=
  current = [] ∨ ∃ typeName name, '/' ∉ typeName ∧ current = doubleQuote :: typeName ++ '/' :: name

private theorem fromDirname_quote (text : List Char) :
    fromDirname (String.ofList (doubleQuote :: text)) = none := by
  have start : ∀ literal : String, literal.toList.head? ≠ some doubleQuote →
      String.ofList (doubleQuote :: text) ≠ literal := by
    rintro _ other rfl
    exact other (by rw [String.toList_ofList]; rfl)
  unfold fromDirname
  split
  all_goals first
    | rfl
    | exact absurd (by assumption) (start _ (by decide))

/-- Behind such a section name a line that is no header changes nothing. -/
theorem parseLine_misread (misread : Misread current) (plain : line.head? ≠ some '[') :
    registry.parseLine current line = (current, registry) := by
  rw [parseLine, if_neg fun header => plain header.1]
  split
  · rename_i versioned
    rcases misread with rfl | ⟨typeName, name, noSlash, rfl⟩
    · exact absurd rfl versioned.2
    · have noSlash' : '/' ∉ doubleQuote :: typeName := by
        rw [List.mem_cons]
        exact not_or.mpr ⟨by decide, noSlash⟩
      cases lineValue line with
      | none => rfl
      | some version =>
        simp only [splitOnce_append noSlash', fromDirname_quote]
  · rfl

private theorem dirname_noSlash (layerType : LayerType) : '/' ∉ layerType.dirname.toList := by
  cases layerType <;> decide

/-- The name of a section is read with its quotation marks. -/
theorem parseLine_header (layerType : LayerType) (name : String) :
    ∃ next, Misread next ∧
      registry.parseLine current (trim ('[' :: quoted (layerKey layerType name) ++ [']'])) = (next, registry) := by
  refine ⟨quoted (layerKey layerType name),
    .inr ⟨layerType.dirname.toList, name.toList ++ [doubleQuote], dirname_noSlash layerType, ?_⟩, ?_⟩
  · simp [quoted, layerKey]
  · rw [trim_solid rfl rfl, parseLine, if_pos ⟨rfl, List.getLast?_concat⟩]
    simp

/-- A line that leaves the registry as it is, whatever came before. -/
def Inert (line : List Char) : Prop :=
  ∀ (registry : LayerRegistry) (current : List Char), Misread current →
    ∃ next, Misread next ∧ registry.parseLine current (trim line) = (next, registry)

private theorem inert_of_head {c : Char} {rest : List Char} (solid : isWhitespace c = false) (plain : c ≠ '[') :
    Inert (c :: rest) := by
  intro registry current misread
  obtain ⟨kept, same⟩ := trim_cons solid rest
  refine ⟨current, misread, parseLine_misread misread ?_⟩
  rw [same]
  simpa using plain

private theorem inert_nil : Inert [] := fun _ current misread => ⟨current, misread, parseLine_misread misread nofun⟩

theorem parseLines_inert {written : List (List Char)} (inert : ∀ line ∈ written, Inert line)
    (misread : Misread current) : parseLines current written registry = registry := by
  induction written generalizing current with
  | nil => rfl
  | cons line written ih =>
    obtain ⟨next, again, same⟩ := inert line List.mem_cons_self registry current misread
    rw [parseLines, same]
    exact ih (fun later member => inert later (List.mem_cons_of_mem _ member)) again

/-! ## The whole file -/

section Writing
variable {layer : LayerMetadata} {key : String}

private theorem quoted_unbroken {text : String} (clean : CleanText text) : '\n' ∉ quoted text := by
  rw [quoted, List.cons_append, List.mem_cons, List.mem_append, List.mem_singleton]
  rintro (quote | inside | quote)
  · exact absurd quote (by decide)
  · exact clean.2 inside
  · exact absurd quote (by decide)

private theorem quoted_last (text : String) : (quoted text).getLast? = some doubleQuote := by
  rw [quoted]
  exact List.getLast?_concat

private theorem provides_unbroken {names : List String} (clean : ∀ name ∈ names, CleanText name) :
    '\n' ∉ ", ".toList.intercalate (names.map quoted) := by
  induction names with
  | nil => exact List.not_mem_nil
  | cons name names ih =>
    have first := quoted_unbroken (clean name List.mem_cons_self)
    have later := ih fun other member => clean other (List.mem_cons_of_mem _ member)
    cases names with
    | nil => simpa [List.intercalate] using first
    | cons second names =>
      have step : ", ".toList.intercalate ((name :: second :: names).map quoted) =
          quoted name ++ (", ".toList ++ ", ".toList.intercalate ((second :: names).map quoted)) := by
        simp [List.intercalate]
      rw [step, List.mem_append, List.mem_append]
      rintro (here | comma | there)
      · exact first here
      · exact absurd comma (by decide)
      · exact later there

/-- The lines of a section, with what each of them may hold. -/
private theorem mem_sectionLines (member : line ∈ sectionLines key layer) :
    line = '[' :: quoted key ++ [']'] ∨ line = [] ∨ line = "default = true".toList ∨
    (∃ (field : String) (text : String), line = field.toList ++ quoted text ∧
      field ∈ ["version = ", "hash = ", "requires_runtime = ", "kernel_profile = "] ∧
      (CleanLayer layer → CleanText text)) ∨
    line = "provides = [".toList ++ ", ".toList.intercalate (layer.provides.map quoted) ++ [']'] := by
  simp only [sectionLines, List.mem_append, List.mem_cons, List.not_mem_nil, or_false, Option.mem_toList,
    Option.map_eq_some_iff] at member
  rcases member with (((((rfl | rfl | rfl) | provided) | ⟨runtime, held, rfl⟩) | ⟨profile, held, rfl⟩) | default) | rfl
  · exact .inl rfl
  · exact .inr (.inr (.inr (.inl ⟨"version = ", _, rfl, by simp, CleanLayer.version⟩)))
  · exact .inr (.inr (.inr (.inl ⟨"hash = ", _, rfl, by simp, CleanLayer.hash⟩)))
  · split at provided
    · cases provided
    · exact .inr (.inr (.inr (.inr (List.mem_singleton.mp provided))))
  · exact .inr (.inr (.inr (.inl ⟨"requires_runtime = ", _, rfl, by simp,
      fun clean => clean.requiresRuntime runtime held⟩)))
  · exact .inr (.inr (.inr (.inl ⟨"kernel_profile = ", _, rfl, by simp,
      fun clean => clean.kernelProfile profile held⟩)))
  · split at default
    · exact .inr (.inr (.inl (List.mem_singleton.mp default)))
    · cases default
  · exact .inr (.inl rfl)

/-- Lines that are not cut again. -/
private def Unbroken (line : List Char) : Prop := '\n' ∉ line ∧ line.getLast? ≠ some '\r'

private theorem sectionLines_unbroken (clean : CleanLayer layer) (cleanKey : CleanText key)
    (member : line ∈ sectionLines key layer) : Unbroken line := by
  rcases mem_sectionLines member with rfl | rfl | rfl | ⟨field, text, rfl, known, held⟩ | rfl
  · refine ⟨?_, ?_⟩
    · rw [List.cons_append, List.mem_cons, List.mem_append, List.mem_singleton]
      rintro (bracket | inside | bracket)
      · exact absurd bracket (by decide)
      · exact quoted_unbroken cleanKey inside
      · exact absurd bracket (by decide)
    · rw [List.getLast?_concat]
      decide
  · exact ⟨List.not_mem_nil, nofun⟩
  · exact ⟨by decide, by decide⟩
  · refine ⟨?_, ?_⟩
    · rw [List.mem_append]
      rintro (inField | inside)
      · simp only [List.mem_cons, List.not_mem_nil, or_false] at known
        rcases known with rfl | rfl | rfl | rfl <;> exact absurd inField (by decide)
      · exact quoted_unbroken (held clean) inside
    · rw [List.getLast?_append, quoted_last]
      simp [doubleQuote]
  · refine ⟨?_, ?_⟩
    · rw [List.mem_append, List.mem_append, List.mem_singleton]
      rintro ((inField | inside) | bracket)
      · exact absurd inField (by decide)
      · exact provides_unbroken clean.provides inside
      · exact absurd bracket (by decide)
    · rw [List.getLast?_concat]
      decide

private theorem sectionLines_inert (layerType : LayerType) (name : String)
    (member : line ∈ sectionLines (layerKey layerType name) layer) : Inert line := by
  rcases mem_sectionLines member with rfl | rfl | rfl | ⟨field, text, rfl, known, -⟩ | rfl
  · exact fun registry current _ => parseLine_header layerType name
  · exact inert_nil
  · exact inert_of_head rfl (by decide)
  · simp only [List.mem_cons, List.not_mem_nil, or_false] at known
    rcases known with rfl | rfl | rfl | rfl <;> exact inert_of_head rfl (by decide)
  · exact inert_of_head rfl (by decide)

end Writing

/-- Everything that is written of the layers is clean. -/
def Clean (registry : LayerRegistry) : Prop := ∀ layer ∈ registry.index.values, CleanLayer layer

private theorem mem_sections {entry : String × LayerMetadata} (member : entry ∈ registry.sections) :
    entry.2 ∈ registry.index.values ∧ entry.1 = layerKey entry.2.layerType entry.2.name := by
  rw [sections, List.mem_insertionSort] at member
  obtain ⟨bucket, there, inside⟩ := List.mem_flatMap.mp member
  obtain ⟨layer, held, rfl⟩ := List.mem_map.mp inside
  exact ⟨List.mem_flatMap.mpr ⟨bucket, there, held⟩, registry.filed bucket there layer held⟩

private theorem layerKey_clean {layerType : LayerType} {name : String} (clean : CleanText name) :
    CleanText (layerKey layerType name) := by
  rw [CleanText, layerKey, String.toList_append, String.toList_append]
  simp only [List.mem_append, not_or]
  cases layerType <;> exact ⟨⟨by decide, clean.1⟩, ⟨by decide, clean.2⟩⟩

private theorem mem_registryLines (member : line ∈ registry.registryLines) :
    line ∈ ["# TinyMachine Layer Registry".toList, "# Auto-generated by layer_registry.rs".toList, []] ∨
      ∃ layer ∈ registry.index.values, line ∈ sectionLines (layerKey layer.layerType layer.name) layer := by
  rcases List.mem_append.mp member with header | inside
  · exact .inl header
  · obtain ⟨entry, there, written⟩ := List.mem_flatMap.mp inside
    obtain ⟨held, key⟩ := mem_sections there
    exact .inr ⟨entry.2, held, key ▸ written⟩

/-- Whatever was saved, nothing is loaded. -/
theorem loadFrom_serialize (clean : registry.Clean) :
    loadFrom registry.layersPath (some registry.serializeRegistryToml) = new registry.layersPath := by
  refine parseLines_inert (fun line member => ?_) (.inl rfl)
  have written : line ∈ registry.registryLines := by
    refine mem_lines_intercalate (fun text inside => ?_) member
    rcases mem_registryLines inside with header | ⟨layer, held, there⟩
    · simp only [List.mem_cons, List.not_mem_nil, or_false] at header
      rcases header with rfl | rfl | rfl <;> exact ⟨by decide, by decide⟩
    · exact sectionLines_unbroken (clean layer held) (layerKey_clean (clean layer held).name) there
  rcases mem_registryLines written with header | ⟨layer, held, there⟩
  · simp only [List.mem_cons, List.not_mem_nil, or_false] at header
    rcases header with rfl | rfl | rfl
    · exact inert_of_head rfl (by decide)
    · exact inert_of_head rfl (by decide)
    · exact inert_nil
  · exact sectionLines_inert layer.layerType layer.name there

/-- The same entries resolve, with the data that is written of them, and so
does every program. -/
structure ReloadsAs (registry reloaded : LayerRegistry) : Prop where
  layers : ∀ layerType name version, registry.getLayer layerType name version = reloaded.getLayer layerType name version
  written : ∀ layerType name version,
    (registry.metadata layerType name version).map (fun layer =>
      (layer.hash, layer.provides, layer.requiresRuntime, layer.kernelProfile, layer.default)) =
    (reloaded.metadata layerType name version).map (fun layer =>
      (layer.hash, layer.provides, layer.requiresRuntime, layer.kernelProfile, layer.default))
  programs : ∀ lang code deps, registry.resolve lang code deps = reloaded.resolve lang code deps

/-- The registry as it is after saving and loading. -/
def reloaded (registry : LayerRegistry) : LayerRegistry :=
  loadFrom registry.layersPath (some registry.serializeRegistryToml)

theorem metadata_isSome {layer : LayerMetadata} (held : layer ∈ registry.index.values) :
    (registry.metadata layer.layerType layer.name layer.version).isSome := by
  obtain ⟨bucket, there, inside⟩ := List.mem_flatMap.mp held
  have key := registry.filed bucket there layer inside
  have found : registry.index.bucket (layerKey layer.layerType layer.name) = some bucket.2 :=
    Index.bucket_eq_some_iff.mpr (key ▸ there)
  rw [metadata, found, Option.bind_some, List.find?_isSome]
  exact ⟨layer, inside, by simp⟩

theorem metadata_of_empty (empty : registry.index.values = []) (layerType : LayerType) (name version : String) :
    registry.metadata layerType name version = none := by
  rw [metadata, Option.bind_eq_none_iff]
  intro layers found
  have there := Index.bucket_eq_some_iff.mp found
  refine List.find?_eq_none.mpr fun layer inside => ?_
  have held : layer ∈ registry.index.values := List.mem_flatMap.mpr ⟨_, there, inside⟩
  rw [empty] at held
  cases held

private theorem getLayer_of_empty (empty : registry.index.values = []) (layerType : LayerType)
    (name version : String) :
    registry.getLayer layerType name version = .error (.layerNotFound layerType.dirname name version) := by
  rw [getLayer, metadata_of_empty empty]

private theorem resolve_of_empty (empty : registry.index.values = []) (lang code : String)
    (deps : List (String × String)) :
    registry.resolve lang code deps = .error (.layerNotFound "base" "base" "v1") := by
  rw [resolve, getLayer_of_empty empty]
  rfl

/-- The registry file keeps a registry only where there is nothing to keep. -/
theorem reloads_iff (clean : registry.Clean) : registry.ReloadsAs registry.reloaded ↔ registry.index.values = [] := by
  have nothing : registry.reloaded.index.values = [] := by
    rw [reloaded, loadFrom_serialize clean]
    rfl
  constructor
  · intro reloads
    by_contra some
    obtain ⟨layer, held⟩ := List.exists_mem_of_ne_nil _ some
    have found := metadata_isSome held
    have same := congrArg Option.isSome (reloads.written layer.layerType layer.name layer.version)
    rw [Option.isSome_map, Option.isSome_map, found, metadata_of_empty nothing] at same
    cases same
  · intro empty
    refine ⟨fun layerType name version => ?_, fun layerType name version => ?_, fun lang code deps => ?_⟩
    · rw [getLayer_of_empty empty, getLayer_of_empty nothing]
    · rw [metadata_of_empty empty, metadata_of_empty nothing]
    · rw [resolve_of_empty empty, resolve_of_empty nothing]

theorem empty_registry_reloads : (new "/layers").ReloadsAs (new "/layers").reloaded :=
  have clean : (new "/layers").Clean := nofun
  (reloads_iff clean).mpr rfl

/-- A registry that holds the base layer. -/
def baseOnly : LayerRegistry := (new "/layers").addLayer (stub .base "base" "v1")

/-- A registry with one layer is empty when it is loaded again. -/
theorem base_layer_is_not_reloaded :
    ¬ ∀ registry : LayerRegistry, registry.Clean → registry.ReloadsAs registry.reloaded := by
  intro law
  have clean : baseOnly.Clean := by
    intro layer held
    have only : layer = stub .base "base" "v1" := by simpa [baseOnly, addLayer, Index.push, Index.values, new,
      Index.empty] using held
    subst only
    refine ⟨⟨by decide, by decide⟩, ⟨by decide, by decide⟩, ⟨by decide, by decide⟩, ?_, ?_, ?_⟩
    all_goals simp [stub]
  have same := (law baseOnly clean).layers .base "base" "v1"
  have nothing : (new baseOnly.layersPath).index.values = [] := rfl
  rw [reloaded, loadFrom_serialize clean, getLayer_of_empty nothing] at same
  cases same

end LayerRegistry
end TinyMachine.Layers
