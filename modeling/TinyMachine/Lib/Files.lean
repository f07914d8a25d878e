import Mathlib.Data.List.Infix
import Mathlib.Logic.Function.Basic
import TinyMachine.Lib.Attempt

/-! A tree of files, open file descriptions with offsets of their own, and the
operations on them, any of which may fail. -/
namespace TinyMachine.Lib

/-- The names on the way from the root. -/
abbrev Path := List String

/-- One part of a path that is joined to another. -/
def enter (path : Path) (part : String) : Path :=
  if part = "" ∨ part = "." then path
  else if part = ".." then path.dropLast
  else path ++ [part]

/-- `Path::join`: what an absolute path is joined to does not count. -/
def join (path : Path) (name : String) : Path :=
  ((name.toList.splitOn '/').map String.ofList).foldl enter (if name.toList.head? = some '/' then [] else path)

/-- A name that is one part of a path. -/
def Plain (name : String) : Prop := name ≠ "" ∧ name ≠ "." ∧ name ≠ ".." ∧ '/' ∉ name.toList

instance (name : String) : Decidable (Plain name) := inferInstanceAs (Decidable (_ ∧ _ ∧ _ ∧ _))

theorem join_plain {path : Path} {name : String} (plain : Plain name) : join path name = path ++ [name] := by
  obtain ⟨nonempty, notHere, notAbove, whole⟩ := plain
  have parts : name.toList.splitOn '/' = [name.toList] := by
    refine List.splitOnP_eq_singleton fun c member => beq_false_of_ne ?_
    rintro rfl
    exact whole member
  have relative : name.toList.head? ≠ some '/' := fun rooted => whole (List.mem_of_head? rooted)
  rw [join, parts, if_neg relative]
  simp [enter, nonempty, notHere, notAbove]

theorem name_inj {path other : Path} {name last : String} (same : path ++ [name] = other ++ [last]) : name = last :=
  List.singleton_inj.mp (List.append_inj_right' same rfl)

inductive Entry where
  | file (bytes : List UInt8)
  | directory
  deriving DecidableEq

/-- What is there lies in directories. -/
@[ext] structure Tree where
  entries : Path → Option Entry
  rooted : ∀ path name, entries (path ++ [name]) ≠ none → entries path = some .directory

namespace Tree

def IsFile (tree : Tree) (path : Path) (bytes : List UInt8) : Prop := tree.entries path = some (.file bytes)

/-- Nothing but the root. -/
def bare : Tree where
  entries := fun path => if path = [] then some .directory else none
  rooted := fun path name present => absurd (if_neg (by simp)) present

/-- A file may be made or replaced here. -/
def Writable (tree : Tree) (path : Path) : Prop :=
  path ≠ [] ∧ tree.entries path.dropLast = some .directory ∧ tree.entries path ≠ some .directory

instance (tree : Tree) (path : Path) : Decidable (tree.Writable path) := inferInstanceAs (Decidable (_ ∧ _ ∧ _))

/-- The file is there with these bytes, where one may be. -/
def put (tree : Tree) (path : Path) (bytes : List UInt8) : Tree where
  entries := if tree.Writable path then Function.update tree.entries path (some (.file bytes)) else tree.entries
  rooted := by
    intro parent name present
    split at present
    · rename_i writable
      obtain ⟨nonempty, home, notDirectory⟩ := writable
      rw [if_pos ⟨nonempty, home, notDirectory⟩]
      by_cases here : parent ++ [name] = path
      · have same : path.dropLast = parent := by rw [← here, List.dropLast_concat]
        have apart : parent ≠ path := fun equal => by
          have longer := congrArg List.length (here.trans equal.symm)
          simp at longer
        rw [Function.update_of_ne apart, ← same, home]
      · rw [Function.update_of_ne here] at present
        have directory := tree.rooted parent name present
        by_cases same : parent = path
        · exact absurd (same ▸ directory) notDirectory
        · rw [Function.update_of_ne same, directory]
    · rename_i closed
      rw [if_neg closed]
      exact tree.rooted parent name present

/-- No file stands in the way of a directory here. -/
def Passable (tree : Tree) (path : Path) : Prop :=
  ∀ above ∈ path.inits, tree.entries above = none ∨ tree.entries above = some .directory

instance (tree : Tree) (path : Path) : Decidable (tree.Passable path) :=
  inferInstanceAs (Decidable (∀ above ∈ path.inits, _))

def makeDirs (tree : Tree) (path : Path) : Tree where
  entries := fun above => if above <+: path then some .directory else tree.entries above
  rooted := by
    intro parent name present
    split at present
    · rename_i inside
      exact if_pos ((List.prefix_append parent [name]).trans inside)
    · have directory := tree.rooted parent name present
      split
      · rfl
      · exact directory

theorem put_of_ne {tree : Tree} {path other : Path} (apart : other ≠ path) (bytes : List UInt8) :
    (tree.put path bytes).entries other = tree.entries other := by
  simp only [put]
  split
  · exact Function.update_of_ne apart _ _
  · rfl

theorem put_self {tree : Tree} {path : Path} (writable : tree.Writable path) (bytes : List UInt8) :
    (tree.put path bytes).IsFile path bytes := by
  simp only [IsFile, put, if_pos writable, Function.update_self]

theorem isFile_put {tree : Tree} {path other : Path} {bytes content : List UInt8}
    (file : (tree.put path bytes).IsFile other content) : content = bytes ∨ tree.IsFile other content := by
  unfold IsFile put at file
  dsimp only at file
  split at file
  · rw [Function.update_apply] at file
    split at file
    · exact .inl (Entry.file.inj (Option.some.inj file)).symm
    · exact .inr file
  · exact .inr file

/-- What is written somewhere does not change where one may write. -/
theorem writable_put {tree : Tree} {path other : Path} {bytes : List UInt8} :
    (tree.put path bytes).Writable other ↔ tree.Writable other := by
  by_cases writable : tree.Writable path
  · have file := put_self writable bytes
    obtain ⟨nonempty, home, notDirectory⟩ := writable
    unfold Writable
    refine and_congr_right fun named => ?_
    by_cases inside : other.dropLast = path
    · rw [inside, file]
      simp [notDirectory]
    · rw [put_of_ne inside]
      by_cases same : other = path
      · rw [same, file]
        simp [notDirectory]
      · rw [put_of_ne same]
  · have unchanged : tree.put path bytes = tree := by
      ext1
      simp only [put, if_neg writable]
    rw [unchanged]

theorem put_put {tree : Tree} {path : Path} (first second : List UInt8) :
    (tree.put path first).put path second = tree.put path second := by
  ext1
  funext other
  by_cases same : other = path
  · subst same
    by_cases writable : tree.Writable other
    · exact (put_self (writable_put.mpr writable) second).trans (put_self writable second).symm
    · simp only [put, if_neg writable]
  · rw [put_of_ne same, put_of_ne same, put_of_ne same]

/-- Files of a directory, one after the other. -/
def putAll (tree : Tree) (dir : Path) (files : List (String × List UInt8)) : Tree :=
  files.foldl (fun tree file => tree.put (dir ++ [file.1]) file.2) tree

theorem writable_putAll {tree : Tree} {dir other : Path} {files : List (String × List UInt8)} :
    (tree.putAll dir files).Writable other ↔ tree.Writable other := by
  induction files generalizing tree with
  | nil => rfl
  | cons file files ih => exact ih.trans writable_put

theorem putAll_of_notMem {tree : Tree} {dir other : Path} {files : List (String × List UInt8)}
    (apart : ∀ file ∈ files, other ≠ dir ++ [file.1]) : (tree.putAll dir files).entries other = tree.entries other := by
  induction files generalizing tree with
  | nil => rfl
  | cons file files ih =>
    have rest : ((tree.put (dir ++ [file.1]) file.2).putAll dir files).entries other = _ :=
      ih fun later there => apart later (List.mem_cons_of_mem _ there)
    exact rest.trans (put_of_ne (apart file List.mem_cons_self) file.2)

theorem putAll_mem {tree : Tree} {dir : Path} {files : List (String × List UInt8)} {file : String × List UInt8}
    (distinct : (files.map Prod.fst).Nodup) (member : file ∈ files) (writable : tree.Writable (dir ++ [file.1])) :
    (tree.putAll dir files).IsFile (dir ++ [file.1]) file.2 := by
  induction files generalizing tree with
  | nil => cases member
  | cons first files ih =>
    obtain ⟨fresh, later⟩ := List.nodup_cons.mp distinct
    rcases List.mem_cons.mp member with rfl | inside
    · have kept : ((tree.put (dir ++ [file.1]) file.2).putAll dir files).entries (dir ++ [file.1]) =
          (tree.put (dir ++ [file.1]) file.2).entries (dir ++ [file.1]) := by
        refine putAll_of_notMem fun other there same => fresh ?_
        have named : file.1 = other.1 := by simpa using same
        exact named ▸ List.mem_map_of_mem there
      exact kept.trans (put_self writable file.2)
    · exact ih later inside (writable_put.mpr writable)

@[simp] theorem putAll_nil (tree : Tree) (dir : Path) : tree.putAll dir [] = tree := rfl

theorem putAll_append (tree : Tree) (dir : Path) (first second : List (String × List UInt8)) :
    tree.putAll dir (first ++ second) = (tree.putAll dir first).putAll dir second := List.foldl_append

theorem makeDirs_file {tree : Tree} {dir : Path} (name : String) :
    (tree.makeDirs dir).entries (dir ++ [name]) = tree.entries (dir ++ [name]) := by
  have longer : ¬ dir ++ [name] <+: dir := fun inside => by
    have shorter := inside.length_le
    rw [List.length_append, List.length_singleton] at shorter
    omega
  exact if_neg longer

theorem makeDirs_makeDirs {tree : Tree} {dir : Path} : (tree.makeDirs dir).makeDirs dir = tree.makeDirs dir := by
  ext1
  funext above
  simp only [makeDirs]
  split <;> rfl

theorem isFile_makeDirs {tree : Tree} {dir path : Path} {bytes : List UInt8} (passable : tree.Passable dir) :
    (tree.makeDirs dir).IsFile path bytes ↔ tree.IsFile path bytes := by
  unfold IsFile makeDirs
  dsimp only
  split
  · rename_i inside
    rcases passable path ((List.mem_inits path dir).mpr inside) with absent | directory
    · simp [absent]
    · simp [directory]
  · rfl

/-- What lies above something is a directory. -/
theorem directory_above {tree : Tree} {path above : Path} (present : tree.entries path ≠ none) (name : String)
    (inside : above ++ [name] <+: path) : tree.entries above = some .directory := by
  induction path using List.reverseRecOn with
  | nil => simp at inside
  | append_singleton path last ih =>
    have home := tree.rooted path last present
    rcases List.prefix_concat_iff.mp inside with same | further
    · obtain ⟨rfl, -⟩ := List.append_inj' same rfl
      exact home
    · exact ih (by simp [home]) further

theorem directory_on_way {tree : Tree} {dir above : Path} {name : String}
    (present : tree.entries (dir ++ [name]) ≠ none) (inside : above <+: dir) :
    tree.entries above = some .directory := by
  obtain ⟨rest, rfl⟩ := inside
  cases rest with
  | nil =>
    rw [List.append_nil] at present
    exact tree.rooted above name present
  | cons next rest =>
    refine directory_above present next ⟨rest ++ [name], ?_⟩
    simp

theorem passable_of_entry {tree : Tree} {dir : Path} {name : String} (present : tree.entries (dir ++ [name]) ≠ none) :
    tree.Passable dir := fun above inside => .inr (directory_on_way present ((List.mem_inits above dir).mp inside))

theorem makeDirs_of_entry {tree : Tree} {dir : Path} {name : String} (present : tree.entries (dir ++ [name]) ≠ none) :
    tree.makeDirs dir = tree := by
  ext1
  funext above
  simp only [makeDirs]
  split
  · rename_i inside
    exact (directory_on_way present inside).symm
  · rfl

theorem makeDirs_of_directory {tree : Tree} {dir : Path} (present : tree.entries dir = some .directory) :
    tree.makeDirs dir = tree := by
  ext1
  funext above
  simp only [makeDirs]
  split
  · rename_i inside
    obtain ⟨rest, rfl⟩ := inside
    cases rest with
    | nil => rw [← present, List.append_nil]
    | cons next rest =>
      have there : tree.entries (above ++ next :: rest) ≠ none := by
        rw [present]
        exact Option.some_ne_none _
      exact (directory_above there next ⟨rest, by simp⟩).symm
  · rfl

theorem writable_of_file {tree : Tree} {dir : Path} {name : String} {bytes : List UInt8}
    (file : tree.IsFile (dir ++ [name]) bytes) : tree.Writable (dir ++ [name]) := by
  have there : tree.entries (dir ++ [name]) = some (.file bytes) := file
  refine ⟨by simp, ?_, by simp [there]⟩
  rw [List.dropLast_concat]
  exact tree.rooted dir name (by simp [there])

theorem put_same {tree : Tree} {path : Path} {bytes : List UInt8} (file : tree.IsFile path bytes) :
    tree.put path bytes = tree := by
  ext1
  simp only [put]
  rw [← show tree.entries path = some (.file bytes) from file, Function.update_eq_self, ite_self]

theorem writable_makeDirs {tree : Tree} {dir : Path} {name : String} :
    (tree.makeDirs dir).Writable (dir ++ [name]) ↔ tree.entries (dir ++ [name]) ≠ some .directory := by
  have home : (tree.makeDirs dir).entries dir = some .directory := if_pos List.prefix_rfl
  unfold Writable
  rw [List.dropLast_concat, home, makeDirs_file]
  simp

def removeAll (tree : Tree) (path : Path) : Tree where
  entries := fun below => if path <+: below then none else tree.entries below
  rooted := by
    intro parent name present
    split at present
    · exact absurd rfl present
    · rename_i outside
      have directory := tree.rooted parent name present
      rw [if_neg fun inside => outside (inside.trans (List.prefix_append parent [name])), directory]

end Tree

/-- An open file goes on being there when its name is taken away. -/
inductive Referent where
  | named (path : Path)
  | unlinked (bytes : List UInt8)

/-- The bytes of an entry, unless it is a directory. -/
def Entry.bytes : Entry → Option (List UInt8)
  | .file bytes => some bytes
  | .directory => none

structure Description where
  referent : Referent
  offset : Nat

structure Disk where
  tree : Tree
  opened : List Description
  /-- What is in store for the next operations: that one succeeds, or that it
  fails, if it writes after so many bytes. -/
  faults : List (Option Nat)
  /-- The length a directory reports. -/
  directoryLen : Nat

inductive IoError where
  | notFound
  | notADirectory
  | isADirectory
  | unexpectedEof
  | invalidData
  | other
  deriving DecidableEq

/-- Errors that an input or output error turns into. -/
class FromIo (ε : Type) where
  ofIo : IoError → ε

namespace Disk
variable {ε α : Type} [FromIo ε] (disk : Disk)

def next : Disk := { disk with faults := disk.faults.tail }

def fault : Option Nat := disk.faults.head?.join

/-- What an open file holds, unless it is a directory. -/
def contents (fd : Nat) : Option (List UInt8) :=
  disk.opened[fd]?.bind fun description =>
    match description.referent with
    | .unlinked bytes => some bytes
    | .named path => (disk.tree.entries path).bind Entry.bytes

def offset (fd : Nat) : Nat := (disk.opened[fd]?.map Description.offset).getD 0

def seek (fd offset : Nat) : Disk :=
  { disk with opened := disk.opened.modify fd fun description => { description with offset := offset } }

@[simp] theorem seek_tree (fd offset : Nat) : (disk.seek fd offset).tree = disk.tree := rfl

@[simp] theorem seek_faults (fd offset : Nat) : (disk.seek fd offset).faults = disk.faults := rfl

@[simp] theorem seek_contents (fd offset other : Nat) : (disk.seek fd offset).contents other = disk.contents other := by
  unfold contents seek
  dsimp only
  rw [List.getElem?_modify]
  cases disk.opened[other]? with
  | none => rfl
  | some description =>
    split
    · rfl
    · rfl

@[simp] theorem seek_offset (fd : Nat) : (disk.seek fd 0).offset fd = 0 := by
  unfold Disk.offset seek
  dsimp only
  rw [List.getElem?_modify_eq]
  cases disk.opened[fd]? with
  | none => rfl
  | some description => rfl

@[simp] theorem seek_seek (fd first second : Nat) : (disk.seek fd first).seek fd second = disk.seek fd second := by
  unfold seek
  dsimp only
  rw [List.modify_modify_eq]
  rfl

theorem seek_of_offset {fd offset : Nat} (there : disk.offset fd = offset) : disk.seek fd offset = disk := by
  have same : disk.opened.modify fd (fun description => { description with offset := offset }) = disk.opened := by
    apply List.ext_getElem?
    intro index
    rw [List.getElem?_modify]
    cases found : disk.opened[index]? with
    | none => rfl
    | some description =>
      split
      · rename_i here
        have current : description.offset = offset := by
          rw [← there, Disk.offset, here, found]
          rfl
        rw [← current]
        rfl
      · rfl
  rw [seek, same]

/-! ## Operations -/

def operation (act : Disk → Except IoError α × Disk) : Attempt ε Disk α := fun disk =>
  match disk.fault with
  | some _ => (.error (FromIo.ofIo .other), disk.next)
  | none =>
    match act disk.next with
    | (.ok a, disk') => (.ok a, disk')
    | (.error e, disk') => (.error (FromIo.ofIo e), disk')

/-- `create_dir_all`. -/
def createDirAll (path : Path) : Attempt ε Disk Unit := operation fun disk =>
  if disk.tree.Passable path then
    (.ok (), { disk with tree := disk.tree.makeDirs path })
  else
    (.error .notADirectory, disk)

/-- Opening for writing, with `create` and `truncate`. -/
def openTruncate (path : Path) : Attempt ε Disk Unit := operation fun disk =>
  if disk.tree.Writable path then
    (.ok (), { disk with tree := disk.tree.put path [] })
  else
    (.error (if disk.tree.entries path = some .directory then .isADirectory else .notFound), disk)

/-- Bytes go to the end of a file that was opened for writing. -/
def append (path : Path) (bytes : List UInt8) : Disk :=
  match disk.tree.entries path with
  | some (.file old) => { disk with tree := disk.tree.put path (old ++ bytes) }
  | _ => disk

/-- `write_all`, which may write some of the bytes before it fails. -/
def writeAll (path : Path) (bytes : List UInt8) : Attempt ε Disk Unit := fun disk =>
  if bytes = [] then
    (.ok (), disk)
  else
    match disk.fault with
    | some written => (.error (FromIo.ofIo .other), disk.next.append path (bytes.take written))
    | none => (.ok (), disk.next.append path bytes)

def syncAll : Attempt ε Disk Unit := operation fun disk => (.ok (), disk)

/-- Opening for reading gives a description of its own. -/
def openRead (path : Path) : Attempt ε Disk Nat := operation fun disk =>
  match disk.tree.entries path with
  | some _ => (.ok disk.opened.length, { disk with opened := disk.opened ++ [⟨.named path, 0⟩] })
  | none => (.error .notFound, disk)

/-- A second handle on the same description. -/
def tryClone (fd : Nat) : Attempt ε Disk Nat := operation fun disk => (.ok fd, disk)

def seekStart (fd : Nat) : Attempt ε Disk Unit := operation fun disk => (.ok (), disk.seek fd 0)

def readExact (fd count : Nat) : Attempt ε Disk (List UInt8) :=
  if count = 0 then
    pure []
  else operation fun disk =>
    match disk.contents fd with
    | none => (.error .isADirectory, disk)
    | some bytes =>
      let rest := bytes.drop (disk.offset fd)
      if count ≤ rest.length then
        (.ok (rest.take count), disk.seek fd (disk.offset fd + count))
      else
        (.error .unexpectedEof, disk.seek fd (disk.offset fd + rest.length))

/-- Reading until nothing is left. -/
def readRest (fd : Nat) : Attempt ε Disk (List UInt8) := operation fun disk =>
  match disk.contents fd with
  | none => (.error .isADirectory, disk)
  | some bytes =>
    let rest := bytes.drop (disk.offset fd)
    (.ok rest, disk.seek fd (disk.offset fd + rest.length))

def readFile (path : Path) : Attempt ε Disk (List UInt8) := operation fun disk =>
  match disk.tree.entries path with
  | some (.file bytes) => (.ok bytes, disk)
  | some .directory => (.error .isADirectory, disk)
  | none => (.error .notFound, disk)

def metadataLen (path : Path) : Attempt ε Disk Nat := operation fun disk =>
  match disk.tree.entries path with
  | some (.file bytes) => (.ok bytes.length, disk)
  | some .directory => (.ok disk.directoryLen, disk)
  | none => (.error .notFound, disk)

/-- `Path::exists`, which takes an error for an absence. -/
def pathExists (path : Path) : Attempt ε Disk Bool := fun disk =>
  (.ok (disk.fault.isNone ∧ disk.tree.entries path ≠ none), disk.next)

/-- `remove_dir_all`. What was open in it goes on without a name. -/
def removeDirAll (path : Path) : Attempt ε Disk Unit := operation fun disk =>
  if disk.tree.entries path = some .directory then
    (.ok (), { disk with
      tree := disk.tree.removeAll path
      opened := disk.opened.map fun description =>
        match description.referent with
        | .named below =>
          match path.isPrefixOf below, disk.tree.entries below with
          | true, some (.file bytes) => { description with referent := .unlinked bytes }
          | _, _ => description
        | .unlinked _ => description })
  else
    (.error .notFound, disk)

/-- The disk with the file opened once more, so far read. -/
def openAt (path : Path) (offset : Nat) : Disk :=
  { disk with opened := disk.opened ++ [⟨.named path, offset⟩] }

@[simp] theorem openAt_tree (path : Path) (offset : Nat) : (disk.openAt path offset).tree = disk.tree := rfl

@[simp] theorem openAt_faults (path : Path) (offset : Nat) : (disk.openAt path offset).faults = disk.faults := rfl

@[simp] theorem openAt_offset (path : Path) (offset : Nat) :
    (disk.openAt path offset).offset disk.opened.length = offset := by
  simp [openAt, Disk.offset]

private theorem modify_last {β : Type} (list : List β) (last : β) (f : β → β) :
    (list ++ [last]).modify list.length f = list ++ [f last] := by
  induction list with
  | nil => rfl
  | cons first list ih => exact congrArg (first :: ·) ih

theorem openAt_contents (path : Path) (offset : Nat) :
    (disk.openAt path offset).contents disk.opened.length = (disk.tree.entries path).bind Entry.bytes := by
  simp [openAt, contents]

@[simp] theorem openAt_seek (path : Path) (offset later : Nat) :
    (disk.openAt path offset).seek disk.opened.length later = disk.openAt path later := by
  rw [seek, openAt, modify_last]
  rfl

/-! ## Runs without faults -/

section Calm
variable {disk disk' : Disk} {path : Path} {bytes : List UInt8} {fd count : Nat}

theorem operation_ok {act : Disk → Except IoError α × Disk} {a : α} (calm : disk.faults = []) :
    (operation act : Attempt ε Disk α).Ends disk (.ok a) disk' ↔ act disk = (.ok a, disk') := by
  have still : disk.next = disk := by rw [next, calm, List.tail_nil, ← calm]
  have none : disk.fault = none := by rw [fault, calm]; rfl
  unfold Attempt.Ends operation
  rw [none, still]
  dsimp only
  rcases act disk with ⟨_ | _, _⟩ <;> simp

theorem createDirAll_ok (calm : disk.faults = []) :
    (createDirAll path : Attempt ε Disk Unit).Ends disk (.ok ()) disk' ↔
      disk.tree.Passable path ∧ disk' = { disk with tree := disk.tree.makeDirs path } := by
  rw [createDirAll, operation_ok calm]
  split <;> simp [*, eq_comm]

theorem openTruncate_ok (calm : disk.faults = []) :
    (openTruncate path : Attempt ε Disk Unit).Ends disk (.ok ()) disk' ↔
      disk.tree.Writable path ∧ disk' = { disk with tree := disk.tree.put path [] } := by
  rw [openTruncate, operation_ok calm]
  split <;> simp [*, eq_comm]

private theorem append_nil (disk : Disk) (path : Path) : disk.append path [] = disk := by
  unfold append
  split
  · rename_i old file
    rw [List.append_nil, Tree.put_same file]
  · rfl

theorem writeAll_ok (calm : disk.faults = []) :
    (writeAll path bytes : Attempt ε Disk Unit).Ends disk (.ok ()) disk' ↔ disk' = disk.append path bytes := by
  unfold Attempt.Ends writeAll
  split
  · rename_i empty
    rw [empty, append_nil]
    simp [eq_comm]
  · have still : disk.next = disk := by rw [next, calm, List.tail_nil, ← calm]
    have none : disk.fault = none := by rw [fault, calm]; rfl
    simp only [none, still, Prod.mk.injEq, true_and]
    exact eq_comm

theorem append_of_file {old : List UInt8} (file : disk.tree.IsFile path old) :
    disk.append path bytes = { disk with tree := disk.tree.put path (old ++ bytes) } := by
  unfold append
  rw [show disk.tree.entries path = some (.file old) from file]

theorem append_put {old : List UInt8} (writable : disk.tree.Writable path) :
    ({ disk with tree := disk.tree.put path old } : Disk).append path bytes =
      { disk with tree := disk.tree.put path (old ++ bytes) } := by
  rw [append_of_file (Tree.put_self writable old), Tree.put_put]

theorem syncAll_ok (calm : disk.faults = []) :
    (syncAll : Attempt ε Disk Unit).Ends disk (.ok ()) disk' ↔ disk' = disk := by
  rw [syncAll, operation_ok calm]
  simp [eq_comm]

theorem openRead_ok (calm : disk.faults = []) :
    (openRead path : Attempt ε Disk Nat).Ends disk (.ok fd) disk' ↔ disk.tree.entries path ≠ none ∧
      fd = disk.opened.length ∧ disk' = disk.openAt path 0 := by
  rw [openRead, operation_ok calm]
  cases disk.tree.entries path <;> simp [openAt, eq_comm]

theorem tryClone_ok {clone : Nat} (calm : disk.faults = []) :
    (tryClone fd : Attempt ε Disk Nat).Ends disk (.ok clone) disk' ↔ clone = fd ∧ disk' = disk := by
  rw [tryClone, operation_ok calm]
  simp [eq_comm]

theorem seekStart_ok (calm : disk.faults = []) :
    (seekStart fd : Attempt ε Disk Unit).Ends disk (.ok ()) disk' ↔ disk' = disk.seek fd 0 := by
  rw [seekStart, operation_ok calm]
  simp [eq_comm]

theorem readFile_ok (calm : disk.faults = []) :
    (readFile path : Attempt ε Disk (List UInt8)).Ends disk (.ok bytes) disk' ↔
      disk.tree.IsFile path bytes ∧ disk' = disk := by
  rw [readFile, operation_ok calm, Tree.IsFile]
  cases disk.tree.entries path with
  | none => simp
  | some entry => cases entry <;> simp [eq_comm]

/-- What is not a file is not read. -/
theorem readFile_failed (calm : disk.faults = []) (unreadable : (disk.tree.entries path).bind Entry.bytes = none) :
    ∃ e, (readFile path : Attempt ε Disk (List UInt8)).Ends disk (.error e) disk := by
  have still : disk.next = disk := by rw [next, calm, List.tail_nil, ← calm]
  have none : disk.fault = none := by rw [fault, calm]; rfl
  unfold Attempt.Ends readFile operation
  rw [none, still]
  dsimp only
  cases found : disk.tree.entries path with
  | none => exact ⟨_, rfl⟩
  | some entry =>
    cases entry with
    | directory => exact ⟨_, rfl⟩
    | file bytes => simp [found, Entry.bytes] at unreadable

theorem readExact_ok (calm : disk.faults = []) :
    (readExact fd count : Attempt ε Disk (List UInt8)).Ends disk (.ok bytes) disk' ↔
      (count = 0 ∧ bytes = [] ∧ disk' = disk) ∨ (count ≠ 0 ∧ ∃ held, disk.contents fd = some held ∧
        count ≤ held.length - disk.offset fd ∧ bytes = (held.drop (disk.offset fd)).take count ∧
        disk' = disk.seek fd (disk.offset fd + count)) := by
  rw [readExact]
  split
  · rename_i none
    simp [none]
  · rename_i some
    rw [operation_ok calm]
    cases disk.contents fd with
    | none => simp [some]
    | some held =>
      by_cases enough : count ≤ held.length - disk.offset fd
      · simp [some, enough, eq_comm]
      · simp [some, enough]

theorem readRest_ok (calm : disk.faults = []) :
    (readRest fd : Attempt ε Disk (List UInt8)).Ends disk (.ok bytes) disk' ↔
      ∃ held, disk.contents fd = some held ∧ bytes = held.drop (disk.offset fd) ∧
        disk' = disk.seek fd (disk.offset fd + bytes.length) := by
  rw [readRest, operation_ok calm]
  cases disk.contents fd with
  | none => simp
  | some held =>
    simp only [Prod.mk.injEq, Except.ok.injEq, Option.some.injEq, exists_eq_left']
    constructor <;> (rintro ⟨rfl, rfl⟩; exact ⟨rfl, rfl⟩)

/-- Reading more than there is takes what there is. -/
theorem readExact_short {held : List UInt8} (calm : disk.faults = []) (there : disk.contents fd = some held)
    (short : held.length - disk.offset fd < count) :
    (readExact fd count : Attempt ε Disk (List UInt8)).Ends disk (.error (FromIo.ofIo .unexpectedEof))
      (disk.seek fd (disk.offset fd + (held.length - disk.offset fd))) := by
  have still : disk.next = disk := by rw [next, calm, List.tail_nil, ← calm]
  have none : disk.fault = none := by rw [fault, calm]; rfl
  have some : count ≠ 0 := by omega
  have less : ¬ count ≤ held.length - disk.offset fd := Nat.not_le.mpr short
  unfold Attempt.Ends readExact
  rw [if_neg some]
  unfold operation
  simp only [none, still, there, less, if_false, List.length_drop]

/-- The first bytes of an open file, if there are so many. -/
def first (disk : Disk) (fd count : Nat) : Option (List UInt8) :=
  if count = 0 then
    some []
  else
    (disk.contents fd).bind fun held => if count ≤ held.length then some (held.take count) else none

theorem readFirst_ok (calm : disk.faults = []) :
    (readExact fd count : Attempt ε Disk (List UInt8)).Ends (disk.seek fd 0) (.ok bytes) disk' ↔
      disk.first fd count = some bytes ∧ disk' = disk.seek fd count := by
  rw [readExact_ok (by exact calm), first]
  simp only [seek_offset, seek_contents, seek_seek, List.drop_zero, Nat.sub_zero, Nat.zero_add]
  by_cases none : count = 0
  · simp [none, eq_comm]
  · cases disk.contents fd with
    | none => simp [none]
    | some held =>
      by_cases enough : count ≤ held.length
      · simp [none, enough, eq_comm]
      · simp [none, enough]

theorem readStart_ok (calm : disk.faults = []) (start : disk.offset fd = 0) :
    (readExact fd count : Attempt ε Disk (List UInt8)).Ends disk (.ok bytes) disk' ↔
      disk.first fd count = some bytes ∧ disk' = disk.seek fd count := by
  have again : (readExact fd count : Attempt ε Disk (List UInt8)).Ends (disk.seek fd 0) (.ok bytes) disk' ↔
      disk.first fd count = some bytes ∧ disk' = disk.seek fd count := readFirst_ok calm
  rwa [seek_of_offset disk start] at again

theorem readWhole_ok (calm : disk.faults = []) :
    (readRest fd : Attempt ε Disk (List UInt8)).Ends (disk.seek fd 0) (.ok bytes) disk' ↔
      disk.contents fd = some bytes ∧ disk' = disk.seek fd bytes.length := by
  rw [readRest_ok (by exact calm)]
  simp only [seek_offset, seek_contents, seek_seek, List.drop_zero, Nat.zero_add]
  constructor
  · rintro ⟨held, found, rfl, rfl⟩
    exact ⟨found, rfl⟩
  · rintro ⟨found, rfl⟩
    exact ⟨bytes, found, rfl, rfl⟩

/-- The length a file or a directory reports. -/
def entryLen (disk : Disk) : Entry → Nat
  | .file bytes => bytes.length
  | .directory => disk.directoryLen

theorem metadataLen_ok {length : Nat} (calm : disk.faults = []) :
    (metadataLen path : Attempt ε Disk Nat).Ends disk (.ok length) disk' ↔
      ∃ entry, disk.tree.entries path = some entry ∧ length = disk.entryLen entry ∧ disk' = disk := by
  rw [metadataLen, operation_ok calm]
  cases disk.tree.entries path with
  | none => simp
  | some entry => cases entry <;> simp [entryLen, eq_comm]

omit [FromIo ε] in
theorem pathExists_ends {result : Except ε Bool} (calm : disk.faults = []) :
    (pathExists path : Attempt ε Disk Bool).Ends disk result disk' ↔
      result = .ok (disk.tree.entries path ≠ none) ∧ disk' = disk := by
  have still : disk.next = disk := by rw [next, calm, List.tail_nil, ← calm]
  have none : disk.fault = none := by rw [fault, calm]; rfl
  simp only [Attempt.Ends, pathExists, none, still, Option.isNone_none, true_and, Prod.mk.injEq]
  exact and_congr eq_comm eq_comm

omit [FromIo ε] in
theorem pathExists_bind {next : Bool → Attempt ε Disk α} {result : Except ε α} (calm : disk.faults = []) :
    Attempt.Ends (pathExists path >>= next) disk result disk' ↔
      (next (disk.tree.entries path ≠ none)).Ends disk result disk' := by
  rw [Attempt.bind_ends]
  simp only [pathExists_ends calm]
  simp

end Calm

/-! ## Runs that meet no fault -/

/-- A run that succeeds depends on nothing but the success of so many operations. -/
def Steady (x : Attempt ε Disk α) : Prop :=
  ∀ disk a disk', x.Ends disk (.ok a) disk' → ∃ calm, ∀ faults : List (Option Nat),
    (∀ fault ∈ faults.take calm, fault = none) →
      x.Ends { disk with faults := faults } (.ok a) { disk' with faults := faults.drop calm }

section Steady
variable {β : Type} {path : Path} {bytes : List UInt8} {fd count : Nat}

omit [FromIo ε] in
/-- It goes the same without faults. -/
theorem Steady.calm {x : Attempt ε Disk α} {disk disk' : Disk} {a : α} (steady : Steady x)
    (ends : x.Ends disk (.ok a) disk') : x.Ends { disk with faults := [] } (.ok a) { disk' with faults := [] } := by
  obtain ⟨calm, goes⟩ := steady disk a disk' ends
  have none : ∀ fault ∈ ([] : List (Option Nat)).take calm, fault = none := by simp
  simpa using goes [] none

omit [FromIo ε] in
/-- It succeeds with a fault in store for later. -/
theorem Steady.later {x : Attempt ε Disk α} {disk disk' : Disk} {a : α} (steady : Steady x)
    (ends : x.Ends disk (.ok a) disk') : ∃ calm, ∀ faults,
      x.Ends { disk with faults := List.replicate calm none ++ faults } (.ok a) { disk' with faults := faults } := by
  obtain ⟨calm, goes⟩ := steady disk a disk' ends
  refine ⟨calm, fun faults => ?_⟩
  have length : (List.replicate calm (none : Option Nat)).length = calm := List.length_replicate
  have run := goes (List.replicate calm none ++ faults) fun fault member => by
    rw [List.take_left' length] at member
    exact (List.mem_replicate.mp member).2
  rwa [List.drop_left' length] at run

omit [FromIo ε] in
theorem steady_pure (a : α) : Steady (pure a : Attempt ε Disk α) := by
  intro disk b disk' ends
  obtain ⟨same, rfl⟩ := Attempt.pure_ends.mp ends
  exact ⟨0, fun faults _ => Attempt.pure_ends.mpr ⟨same, rfl⟩⟩

omit [FromIo ε] in
theorem steady_fail (e : ε) : Steady (Attempt.fail e : Attempt ε Disk α) := by
  intro disk b disk' ends
  simp at ends

omit [FromIo ε] in
theorem Steady.bind {x : Attempt ε Disk α} {f : α → Attempt ε Disk β} (first : Steady x)
    (next : ∀ a, Steady (f a)) : Steady (x >>= f) := by
  intro disk b disk' ends
  obtain ⟨a, between, done, rest⟩ := Attempt.bind_ok.mp ends
  obtain ⟨one, goes⟩ := first disk a between done
  obtain ⟨two, goes_on⟩ := next a between b disk' rest
  refine ⟨one + two, fun faults none => ?_⟩
  rw [List.take_add] at none
  obtain ⟨early, late⟩ := List.forall_mem_append.mp none
  have last := goes_on (faults.drop one) late
  rw [List.drop_drop] at last
  exact Attempt.bind_ok.mpr ⟨a, _, goes faults early, last⟩

theorem operation_go {act : Disk → Except IoError α × Disk} {a : α} {disk disk' : Disk} (free : disk.fault = none)
    (ran : act disk.next = (.ok a, disk')) : (operation act : Attempt ε Disk α).Ends disk (.ok a) disk' := by
  unfold Attempt.Ends operation
  rw [free]
  dsimp only
  rw [ran]

omit [FromIo ε] in
private theorem fault_of_take {disk : Disk} {faults : List (Option Nat)} (free : ∀ fault ∈ faults.take 1, fault = none) :
    ({ disk with faults := faults } : Disk).fault = none := by
  cases faults with
  | nil => rfl
  | cons fault faults => exact free fault List.mem_cons_self

theorem steady_operation {act : Disk → Except IoError α × Disk}
    (blind : ∀ disk a disk' faults, act disk = (.ok a, disk') →
      act { disk with faults := faults } = (.ok a, { disk' with faults := faults })) :
    Steady (operation act : Attempt ε Disk α) := by
  intro disk a disk' ends
  unfold Attempt.Ends operation at ends
  split at ends
  · cases ends
  · split at ends
    · rename_i ran
      cases ends
      refine ⟨1, fun faults free => ?_⟩
      rw [List.drop_one]
      exact operation_go (fault_of_take free) (blind disk.next a _ faults.tail ran)
    · cases ends

theorem steady_createDirAll : Steady (createDirAll path : Attempt ε Disk Unit) := by
  refine steady_operation fun disk a disk' faults ran => ?_
  split at ran <;> cases ran
  rw [if_pos (by assumption)]

theorem steady_openTruncate : Steady (openTruncate path : Attempt ε Disk Unit) := by
  refine steady_operation fun disk a disk' faults ran => ?_
  split at ran <;> cases ran
  rw [if_pos (by assumption)]

omit [FromIo ε] in
private theorem append_faults (disk : Disk) (faults : List (Option Nat)) :
    ({ disk with faults := faults } : Disk).append path bytes =
      { disk.append path bytes with faults := faults } := by
  unfold append
  dsimp only
  cases disk.tree.entries path with
  | none => rfl
  | some entry => cases entry <;> rfl

/-- What is written when nothing fails. -/
theorem writeAll_go {disk : Disk} (free : disk.fault = none) (some : bytes ≠ []) :
    (writeAll path bytes : Attempt ε Disk Unit).Ends disk (.ok ()) (disk.next.append path bytes) := by
  unfold Attempt.Ends writeAll
  rw [if_neg some, free]

theorem steady_writeAll : Steady (writeAll path bytes : Attempt ε Disk Unit) := by
  intro disk a disk' ends
  by_cases empty : bytes = []
  · unfold Attempt.Ends writeAll at ends ⊢
    rw [if_pos empty] at ends
    cases ends
    exact ⟨0, fun faults _ => if_pos empty⟩
  · have free : disk.fault = none := by
      unfold Attempt.Ends writeAll at ends
      rw [if_neg empty] at ends
      cases found : disk.fault with
      | none => rfl
      | some written => simp [found] at ends
    obtain ⟨-, rfl⟩ := (writeAll_go free empty).unique ends
    refine ⟨1, fun faults free => ?_⟩
    have goes : (writeAll path bytes : Attempt ε Disk Unit).Ends { disk with faults := faults } (.ok ())
        (({ disk with faults := faults.tail } : Disk).append path bytes) := writeAll_go (fault_of_take free) empty
    rw [List.drop_one, next, append_faults]
    rwa [append_faults] at goes

theorem steady_syncAll : Steady (syncAll : Attempt ε Disk Unit) := by
  refine steady_operation fun disk a disk' faults ran => ?_
  cases ran
  rfl

theorem steady_tryClone : Steady (tryClone fd : Attempt ε Disk Nat) := by
  refine steady_operation fun disk a disk' faults ran => ?_
  cases ran
  rfl

theorem steady_seekStart : Steady (seekStart fd : Attempt ε Disk Unit) := by
  refine steady_operation fun disk a disk' faults ran => ?_
  cases ran
  rfl

theorem steady_readExact : Steady (readExact fd count : Attempt ε Disk (List UInt8)) := by
  unfold readExact
  split
  · exact steady_pure []
  · refine steady_operation fun disk a disk' faults ran => ?_
    change (match disk.contents fd with | none => _ | some bytes => _) = _
    cases held : disk.contents fd with
    | none => simp [held] at ran
    | some bytes =>
      simp only [held] at ran
      change (if count ≤ (bytes.drop (disk.offset fd)).length then _ else _) = _
      split at ran
      · rename_i enough
        cases ran
        rw [if_pos enough]
        rfl
      · cases ran

theorem steady_readRest : Steady (readRest fd : Attempt ε Disk (List UInt8)) := by
  refine steady_operation fun disk a disk' faults ran => ?_
  change (match disk.contents fd with | none => _ | some bytes => _) = _
  cases held : disk.contents fd with
  | none => simp [held] at ran
  | some bytes =>
    simp only [held] at ran
    cases ran
    rfl

end Steady

/-! ## Failing runs -/

/-- Some fault makes the run fail with such a disk. -/
def CanFail (x : Attempt ε Disk α) (disk : Disk) (holds : Disk → Prop) : Prop :=
  ∃ faults e disk', x.Ends { disk with faults := faults } (.error e) disk' ∧ holds disk'

section CanFail
variable {β : Type} {path : Path} {bytes : List UInt8} {disk disk' : Disk} {holds : Disk → Prop}

omit [FromIo ε] in
theorem CanFail.bind_left {x : Attempt ε Disk α} {f : α → Attempt ε Disk β} (fails : CanFail x disk holds) :
    CanFail (x >>= f) disk holds := by
  obtain ⟨faults, e, disk', ends, after⟩ := fails
  exact ⟨faults, e, disk', Attempt.bind_ends.mpr (.inl ⟨e, ends, rfl⟩), after⟩

omit [FromIo ε] in
theorem Steady.bind_canFail {x : Attempt ε Disk α} {f : α → Attempt ε Disk β} {a : α} (steady : Steady x)
    (ends : x.Ends disk (.ok a) disk') (fails : CanFail (f a) disk' holds) : CanFail (x >>= f) disk holds := by
  obtain ⟨faults, e, disk'', failed, after⟩ := fails
  obtain ⟨calm, goes⟩ := steady.later ends
  exact ⟨_, e, disk'', Attempt.bind_ends.mpr (.inr ⟨a, _, goes faults, failed⟩), after⟩

omit [FromIo ε] in
theorem canFail_fail {e : ε} (after : holds { disk with faults := [] }) :
    CanFail (Attempt.fail e : Attempt ε Disk α) disk holds := ⟨[], e, _, Attempt.fail_ends.mpr ⟨rfl, rfl⟩, after⟩

theorem canFail_operation {act : Disk → Except IoError α × Disk} (after : holds { disk with faults := [] }) :
    CanFail (operation act : Attempt ε Disk α) disk holds := ⟨[some 0], FromIo.ofIo .other, _, rfl, after⟩

theorem canFail_writeAll (written : Nat) (some : bytes ≠ [])
    (after : holds (({ disk with faults := [] } : Disk).append path (bytes.take written))) :
    CanFail (writeAll path bytes : Attempt ε Disk Unit) disk holds := by
  refine ⟨[.some written], FromIo.ofIo .other, _, ?_, after⟩
  unfold Attempt.Ends writeAll
  rw [if_neg some]
  rfl

end CanFail

/-! ## What operations leave alone -/

theorem keeps_operation {act : Disk → Except IoError α × Disk} {holds : Disk → Prop}
    (next : ∀ disk, holds disk → holds disk.next) (step : ∀ disk, holds disk → holds (act disk).2) :
    Attempt.Keeps holds (operation act : Attempt ε Disk α) := by
  intro disk result disk' before ends
  unfold Attempt.Ends operation at ends
  split at ends
  · cases ends
    exact next disk before
  · have after := step disk.next (next disk before)
    split at ends
    · rename_i ran
      cases ends
      rwa [ran] at after
    · rename_i ran
      cases ends
      rwa [ran] at after

theorem halts_operation {act : Disk → Except IoError α × Disk} {holds : Disk → Prop}
    (next : ∀ disk, holds disk → holds disk.next)
    (step : ∀ disk, holds disk → (∃ e, (act disk).1 = .error e) ∧ holds (act disk).2) :
    Attempt.Halts holds (operation act : Attempt ε Disk α) := by
  intro disk result disk' before ends
  unfold Attempt.Ends operation at ends
  split at ends
  · cases ends
    exact ⟨⟨_, rfl⟩, next disk before⟩
  · obtain ⟨⟨e, failed⟩, after⟩ := step disk.next (next disk before)
    split at ends
    · rename_i ran
      rw [ran] at failed
      cases failed
    · rename_i ran
      cases ends
      rw [ran] at after
      exact ⟨⟨_, rfl⟩, after⟩

end Disk
end TinyMachine.Lib
