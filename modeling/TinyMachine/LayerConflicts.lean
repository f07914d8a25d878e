import Mathlib.Data.List.Dedup
import TinyMachine.Composer
import TinyMachine.Lib.Text
import TinyMachine.Uops

/-! Conflicts between layers: the listings of the archives that
`build-layer.sh` packs, and when what is reported of them is exact on files. -/
namespace TinyMachine.Composer
open Lib Text
open Uops (trim stripPrefix isWhitespace)

/-! ## Archives and their listings -/

/-- A name in a directory. -/
def FileName := { name : List Char // name ≠ [] ∧ name ≠ ['.'] ∧ name ≠ ['.', '.'] ∧ '/' ∉ name ∧ '\n' ∉ name }

/-- What `find` comes upon under the root, below the directories in order. -/
structure Entry where
  above : List FileName
  name : FileName
  isDirectory : Bool

def Entry.path (entry : Entry) : List Char :=
  entry.above.flatMap (fun directory => directory.val ++ ['/']) ++ entry.name.val

/-- The entries of a layer beside its root. -/
abbrev Archive := List Entry

/-- The names in the archive. The paths from `find` start at the root, and
`cpio` keeps this start of a name or drops it. -/
def Archive.names (drops : Bool) (archive : Archive) : List (List Char) :=
  ['.'] :: archive.map fun entry => if drops then entry.path else ['.', '/'] ++ entry.path

/-- What `cpio -it` prints. -/
def Archive.printed (drops : Bool) (archive : Archive) : List Char :=
  (archive.names drops).flatMap (· ++ ['\n'])

/-- The path on a line, if it is not skipped. -/
def listedPath (line : List Char) : Option String :=
  let trimmed := trim line
  if trimmed = [] then
    none
  else
    let path := (stripPrefix ['.', '/'] trimmed).getD trimmed
    if "cpio:".toList.isPrefixOf path || path = "TRAILER!!!".toList then none else some (String.ofList path)

/-- What is collected from the output. The set has no order of its own. -/
def listCpioFiles (stdout : List Char) : List String := ((lines stdout).filterMap listedPath).dedup

section Layers
variable (archives : String → Archive) (drops : Bool) (listing : LayerRef → Option (List String))
  (layers : List LayerRef)

/-- Every layer can be listed, in some order. -/
def Lists : Prop :=
  ∀ layer ∈ layers, ∃ files, listing layer = some files ∧
    files.Perm (listCpioFiles ((archives layer.layerPath).printed drops))

/-- The layer has this path, and not for a directory. -/
def HasFile (layer : LayerRef) (path : String) : Prop :=
  ∃ entry ∈ archives layer.layerPath, entry.isDirectory = false ∧ String.ofList entry.path = path

/-- Two different layers have the file. -/
def SharedBy (path : String) (a b : LayerRef) : Prop :=
  a ∈ layers ∧ b ∈ layers ∧ a ≠ b ∧ HasFile archives a path ∧ HasFile archives b path

/-- An error is for a file that two layers have, and each of these is reported
with two of them. -/
structure ExactOnFiles (result : Except ComposerError Unit) : Prop where
  fails : (∃ e, result = .error e) ↔ ∃ path a b, SharedBy archives layers path a b
  reports : ∀ conflicts, result = .error (.conflict conflicts) → ∀ path a b, SharedBy archives layers path a b →
    ∃ a b, SharedBy archives layers path a b ∧ ⟨path, a.display, b.display⟩ ∈ conflicts

/-- A name in the archive of the layer is read as the path. -/
def Reads (layer : LayerRef) (path : String) : Prop :=
  ∃ name ∈ (archives layer.layerPath).names drops, listedPath name = some path

/-- The first layer of which a name is read as the path, and a later one, go by
the names of two that have the file. -/
def FoundIn (path : String) : Prop :=
  ∃ a b, SharedBy archives layers path a b ∧ ∃ before first rest later, layers = before ++ first :: rest ∧
    later ∈ rest ∧ (∀ other ∈ before, ¬ Reads archives drops other path) ∧
    (Reads archives drops first path ∧ first.display = a.display) ∧
    (Reads archives drops later path ∧ later.display = b.display)

end Layers

/-! ## The lines -/

section Listing
variable {archive : Archive} {drops : Bool} {path : String} {line : List Char}

theorem Entry.path_whole (entry : Entry) : '\n' ∉ entry.path := by
  rw [path, List.mem_append, not_or, List.mem_flatMap]
  refine ⟨?_, entry.name.property.2.2.2.2⟩
  rintro ⟨directory, -, member⟩
  rcases List.mem_append.mp member with inside | slash
  · exact directory.property.2.2.2.2 inside
  · exact absurd slash (by decide)

theorem Archive.names_whole (member : line ∈ archive.names drops) : '\n' ∉ line := by
  rcases List.mem_cons.mp member with rfl | member
  · decide
  obtain ⟨entry, -, rfl⟩ := List.mem_map.mp member
  cases drops with
  | true => exact entry.path_whole
  | false =>
    rw [if_neg Bool.false_ne_true, List.mem_append, not_or]
    exact ⟨by decide, entry.path_whole⟩

/-- A carriage return at the end of a line is a blank. -/
theorem trim_chomp : trim (if line.getLast? = some '\r' then line.dropLast else line) = trim line := by
  split
  · next last =>
    obtain ⟨front, rfl⟩ := List.getLast?_eq_some_iff.mp last
    have blank : isWhitespace '\r' = true := by decide
    rw [List.dropLast_concat, trim, trim, List.dropWhile_append]
    split
    · next all => rw [List.isEmpty_iff.mp all, List.dropWhile_cons_of_pos blank, List.dropWhile_nil]
    · rw [List.reverse_append, List.reverse_singleton, List.singleton_append, List.dropWhile_cons_of_pos blank]
  · rfl

theorem listedPath_chomp :
    listedPath (if line.getLast? = some '\r' then line.dropLast else line) = listedPath line := by
  rw [listedPath, trim_chomp, listedPath]

theorem mem_listCpioFiles : path ∈ listCpioFiles (archive.printed drops) ↔
    ∃ name ∈ archive.names drops, listedPath name = some path := by
  rw [listCpioFiles, List.mem_dedup, Archive.printed, lines_finished fun line => Archive.names_whole, List.mem_filterMap]
  simp only [List.mem_map, exists_exists_and_eq_and, listedPath_chomp]

end Listing
/-! ## What is reported -/

section Reported
variable {listing : LayerRef → Option (List String)} {layers before : List LayerRef} {layer : LayerRef}
  {seen : List (String × String)} {conflict : ConflictError} {path : String} {files : List String}

/-- The layer that was first to have the path. -/
def owner (listing : LayerRef → Option (List String)) (seen : List (String × String)) (before : List LayerRef)
    (path : String) : Option String :=
  (seen.lookup path).or ((before.find? fun layer => path ∈ (listing layer).getD []).map LayerRef.display)

theorem lookup_map_pair {keys : List String} {value : String} :
    (keys.map (·, value)).lookup path = if path ∈ keys then some value else none := by
  induction keys with
  | nil => rfl
  | cons key keys ih =>
    rw [List.map_cons, List.lookup_cons, ih]
    by_cases same : path = key
    · simp [same]
    · simp [same, beq_eq_false_iff_ne.mpr same]

theorem owner_unlisted (unlisted : listing layer = none) : owner listing seen (layer :: before) = owner listing seen before := by
  funext path
  rw [owner, List.find?_cons, unlisted]
  rfl

/-- The paths that a layer adds are its own from then on. -/
theorem owner_listed (listed : listing layer = some files) :
    owner listing seen (layer :: before) =
      owner listing ((files.filter fun file => (seen.lookup file).isNone).map (·, layer.display) ++ seen) before := by
  funext path
  rw [owner, owner, List.lookup_append, lookup_map_pair, List.find?_cons, listed, Option.getD_some]
  cases known : seen.lookup path with
  | some holder => simp [known]
  | none =>
    by_cases member : path ∈ files
    · simp [known, member]
    · simp [member]

theorem split_cons_iff {P : List LayerRef → LayerRef → Prop} {rest : List LayerRef} :
    (∃ before own after, layer :: rest = before ++ own :: after ∧ P before own) ↔
      P [] layer ∨ ∃ before own after, rest = before ++ own :: after ∧ P (layer :: before) own := by
  constructor
  · rintro ⟨before, own, after, split, holds⟩
    cases before with
    | nil =>
      obtain ⟨rfl, -⟩ := List.cons.inj split
      exact .inl holds
    | cons first before =>
      obtain ⟨rfl, same⟩ := List.cons.inj split
      exact .inr ⟨before, own, after, same, holds⟩
  · rintro (holds | ⟨before, own, after, rfl, holds⟩)
    · exact ⟨[], layer, rest, rfl, holds⟩
    · exact ⟨layer :: before, own, after, rfl, holds⟩

theorem mem_conflictsWith : conflict ∈ conflictsWith listing seen layers ↔
    ∃ before layer after, layers = before ++ layer :: after ∧ conflict.path ∈ (listing layer).getD [] ∧
      conflict.layerB = layer.display ∧ owner listing seen before conflict.path = some conflict.layerA := by
  induction layers generalizing seen with
  | nil => simp [conflictsWith]
  | cons layer rest ih =>
    rw [split_cons_iff, conflictsWith]
    cases listed : listing layer with
    | none =>
      simp only [ih, owner_unlisted listed, Option.getD_none, List.not_mem_nil, false_and, false_or]
    | some files =>
      simp only [List.mem_append, ih, owner_listed listed, Option.getD_some]
      refine or_congr ?_ Iff.rfl
      simp only [List.mem_filterMap, Option.map_eq_some_iff]
      constructor
      · rintro ⟨file, member, holder, known, rfl⟩
        exact ⟨member, rfl, by rw [owner, known]; rfl⟩
      · rintro ⟨member, second, first⟩
        rw [owner, List.find?_nil, Option.map_none, Option.or_none] at first
        exact ⟨_, member, _, first, by rw [← second]⟩

variable {archives : String → Archive} {drops : Bool} {first second : String}

theorem listed_iff (listed : Lists archives drops listing layers) (member : layer ∈ layers) :
    path ∈ (listing layer).getD [] ↔ Reads archives drops layer path := by
  obtain ⟨files, known, order⟩ := listed layer member
  rw [known, Option.getD_some, order.mem_iff, mem_listCpioFiles, Reads]

/-- Each layer that has a path is reported after the first, with the first. -/
theorem mem_conflicts_iff (listed : Lists archives drops listing layers) :
    ⟨path, first, second⟩ ∈ conflictsWith listing [] layers ↔
      ∃ before one rest later, layers = before ++ one :: rest ∧ later ∈ rest ∧
        (∀ other ∈ before, ¬ Reads archives drops other path) ∧
        (Reads archives drops one path ∧ one.display = first) ∧
        (Reads archives drops later path ∧ later.display = second) := by
  rw [mem_conflictsWith]
  constructor
  · rintro ⟨earlier, later, after, rfl, reads, rfl, held⟩
    rw [owner, List.lookup_nil, Option.none_or, Option.map_eq_some_iff] at held
    obtain ⟨one, found, rfl⟩ := held
    obtain ⟨known, before, between, rfl, none⟩ := List.find?_eq_some_iff_append.mp found
    refine ⟨before, one, between ++ later :: after, later, by simp, by simp, fun other member there => ?_, ⟨?_, rfl⟩,
      ?_, rfl⟩
    · have absent := none other member
      rw [Bool.not_eq_true', decide_eq_false_iff_not] at absent
      exact absent ((listed_iff listed (by simp [member])).mpr there)
    · exact (listed_iff listed (by simp)).mp (of_decide_eq_true known)
    · exact (listed_iff listed (by simp)).mp reads
  · rintro ⟨before, one, rest, later, rfl, member, none, ⟨own, rfl⟩, there, rfl⟩
    obtain ⟨between, after, rfl⟩ := List.append_of_mem member
    refine ⟨before ++ one :: between, later, after, by simp, (listed_iff listed (by simp)).mpr there, rfl, ?_⟩
    have found : (before ++ one :: between).find? (fun layer => path ∈ (listing layer).getD []) = some one := by
      refine List.find?_eq_some_iff_append.mpr
        ⟨decide_eq_true ((listed_iff listed (by simp)).mpr own), before, between, rfl, fun other inside => ?_⟩
      rw [Bool.not_eq_true', decide_eq_false_iff_not]
      exact mt (listed_iff listed (by simp [inside])).mp (none other inside)
    rw [owner, found]
    rfl

/-- The root of every archive is on a line of its own. -/
theorem reads_root : Reads archives drops layer "." := ⟨['.'], List.mem_cons_self, by decide⟩

/-- Two layers are always in conflict. -/
theorem conflictCheck_two {a b : LayerRef} {rest : List LayerRef}
    (listed : Lists archives drops listing (a :: b :: rest)) :
    conflictCheck listing (a :: b :: rest) = .error (.conflict (conflictsWith listing [] (a :: b :: rest))) := by
  have root : ⟨".", a.display, b.display⟩ ∈ conflictsWith listing [] (a :: b :: rest) :=
    (mem_conflicts_iff listed).mpr
      ⟨[], a, b :: rest, b, rfl, List.mem_cons_self, fun _ => nofun, ⟨reads_root, rfl⟩, reads_root, rfl⟩
  rw [conflictCheck]
  split
  · next none =>
    rw [none] at root
    cases root
  · rfl

/-- One layer alone is never in conflict. -/
theorem conflictCheck_one (single : layers.length ≤ 1) : conflictCheck listing layers = .ok () := by
  have none : conflictsWith listing [] layers = [] := by
    refine List.eq_nil_iff_forall_not_mem.mpr fun conflict member => ?_
    obtain ⟨before, layer, after, rfl, -, -, held⟩ := mem_conflictsWith.mp member
    cases before with
    | nil => cases held
    | cons _ before =>
      rw [List.length_append, List.length_cons, List.length_cons] at single
      omega
  rw [conflictCheck, none]

theorem SharedBy.two {a b : LayerRef} (shared : SharedBy archives layers path a b) : 2 ≤ layers.length := by
  obtain ⟨inside, there, apart, -⟩ := shared
  match layers with
  | [] => cases inside
  | [layer] => exact absurd ((List.mem_singleton.mp inside).trans (List.mem_singleton.mp there).symm) apart
  | _ :: _ :: _ => exact Nat.le_add_left _ _

/-- What is reported is exact on files if there is one layer at most, or if some
file is shared and each that is shared is found in two layers that have it. -/
theorem exact_on_files_iff (listed : Lists archives drops listing layers) :
    ExactOnFiles archives layers (conflictCheck listing layers) ↔
      layers.length ≤ 1 ∨ (∃ path a b, SharedBy archives layers path a b) ∧
        ∀ path a b, SharedBy archives layers path a b → FoundIn archives drops layers path := by
  by_cases single : layers.length ≤ 1
  · rw [conflictCheck_one single]
    have unshared : ¬ ∃ path a b, SharedBy archives layers path a b := by
      rintro ⟨path, a, b, shared⟩
      have := shared.two
      omega
    refine iff_of_true ⟨iff_of_false ?_ unshared, fun _ => nofun⟩ (.inl single)
    rintro ⟨e, failed⟩
    cases failed
  · match layers with
    | [] | [_] => exact absurd (by simp) single
    | one :: two :: rest =>
      rw [conflictCheck_two listed, or_iff_right single]
      constructor
      · intro exact_
        refine ⟨exact_.fails.mp ⟨_, rfl⟩, fun path a b shared => ?_⟩
        obtain ⟨a, b, both, reported⟩ := exact_.reports _ rfl path a b shared
        exact ⟨a, b, both, (mem_conflicts_iff listed).mp reported⟩
      · rintro ⟨shared, found⟩
        refine ⟨iff_of_true ⟨_, rfl⟩ shared, fun conflicts reported path a b both => ?_⟩
        cases reported
        obtain ⟨a, b, both, there⟩ := found path a b both
        exact ⟨a, b, both, (mem_conflicts_iff listed).mpr there⟩

end Reported

/-- A base layer, and one with a program. -/
def sampleArchives (path : String) : Archive :=
  if path = "/layers/base/base/v1/layer.cpio.zst" then
    let etc : FileName := ⟨"etc".toList, by decide⟩
    [ ⟨[], etc, true⟩,
      ⟨[etc], ⟨"tinymachine-layer".toList, by decide⟩, false⟩ ]
  else
    let app : FileName := ⟨"app".toList, by decide⟩
    [ ⟨[], app, true⟩,
      ⟨[app], ⟨"main.py".toList, by decide⟩, false⟩ ]

def sampleLayers : List LayerRef :=
  [ ⟨.base, "base", "v1", "/layers/base/base/v1/layer.cpio.zst", ""⟩,
    ⟨.source, "app", "1.0", "/layers/source/app/1.0/layer.cpio.zst", ""⟩ ]

def sampleListing (layer : LayerRef) : Option (List String) :=
  some (listCpioFiles ((sampleArchives layer.layerPath).printed false))

theorem sampleListing_lists : Lists sampleArchives false sampleListing sampleLayers :=
  fun _ _ => ⟨_, rfl, .rfl⟩

theorem base_and_app_exact_iff :
    ExactOnFiles sampleArchives sampleLayers (conflictCheck sampleListing sampleLayers) ↔
      sampleLayers.length ≤ 1 ∨ (∃ path a b, SharedBy sampleArchives sampleLayers path a b) ∧
        ∀ path a b, SharedBy sampleArchives sampleLayers path a b → FoundIn sampleArchives false sampleLayers path :=
  exact_on_files_iff sampleListing_lists

/-- The two layers have no file in common and are in conflict for their root. -/
theorem root_is_in_conflict :
    ¬ ∀ (archives : String → Archive) (drops : Bool) (listing : LayerRef → Option (List String))
      (layers : List LayerRef), Lists archives drops listing layers →
        ExactOnFiles archives layers (conflictCheck listing layers) := by
  intro law
  have conflicts : conflictCheck sampleListing sampleLayers =
      .error (.conflict [⟨".", "base/base@v1", "source/app@1.0"⟩]) := by decide +kernel
  have files : ∀ layer ∈ sampleLayers, ∀ path, HasFile sampleArchives layer path →
      path = if layer.layerType = .base then "etc/tinymachine-layer" else "app/main.py" := by
    intro layer member path file
    obtain ⟨entry, inside, plain, rfl⟩ := file
    rcases List.mem_pair.mp member with rfl | rfl <;> rcases List.mem_pair.mp inside with rfl | rfl
    · cases plain
    · decide
    · cases plain
    · decide
  obtain ⟨path, a, b, inside, there, apart, one, other⟩ := (law _ _ _ _ sampleListing_lists).fails.mp ⟨_, conflicts⟩
  have same := (files a inside path one).symm.trans (files b there path other)
  rcases List.mem_pair.mp inside with rfl | rfl <;> rcases List.mem_pair.mp there with rfl | rfl
  · exact apart rfl
  · exact absurd same (by decide)
  · exact absurd same (by decide)
  · exact apart rfl

end TinyMachine.Composer
