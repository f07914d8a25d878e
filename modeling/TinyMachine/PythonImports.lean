import TinyMachine.LayerImports
import TinyMachine.PythonCoverage

/-! The packages that a Python program imports, read off its syntax tree, and what
three readers make of it: one that scans the lines, one that reads the statements
at the top level, and the frontend. The parser is not part of the program: it is
a parameter. -/
namespace TinyMachine.Python
open Lib Text Ir
open Uops (isWhitespace trim stripPrefix)

/-- What stands before the first dot. -/
def stem (word : List Char) : List Char := word.takeWhile (· ≠ '.')

def topLevel (module : String) : String := String.ofList (stem module.toList)

/-! ## What a program imports -/

/-- A module that is imported. A relative import without a name has the empty
one. -/
structure Imported where
  module : String
  relative : Bool

mutual
/-- Every import in a statement, its bodies included, with all of its names. -/
def Stmt.imports : Stmt → List Imported
  | .import_ names => names.map fun alias_ => ⟨alias_.name, false⟩
  | .importFrom module _ level => [⟨module.getD "", level.getD 0 != 0⟩]
  | .functionDef _ _ _ body _ _ _ => importsOf body
  | .classDef _ _ _ body _ _ => importsOf body
  | .with_ _ _ body => importsOf body
  | .for_ _ _ _ body orelse => importsOf body ++ importsOf orelse
  | .while_ _ body orelse => importsOf body ++ importsOf orelse
  | .if_ _ body orelse => importsOf body ++ importsOf orelse
  | .match_ _ cases => importsOfCases cases
  | .try_ body handlers orelse finalbody =>
    importsOf body ++ importsOfHandlers handlers ++ importsOf orelse ++ importsOf finalbody
  | .tryStar body handlers orelse finalbody =>
    importsOf body ++ importsOfHandlers handlers ++ importsOf orelse ++ importsOf finalbody
  | _ => []

def importsOf : List Stmt → List Imported
  | [] => []
  | stmt :: rest => stmt.imports ++ importsOf rest

def importsOfHandlers : List (ExceptHandler Stmt) → List Imported
  | [] => []
  | ⟨_, _, body⟩ :: rest => importsOf body ++ importsOfHandlers rest

def importsOfCases : List (MatchCase Stmt) → List Imported
  | [] => []
  | ⟨_, _, body⟩ :: rest => importsOf body ++ importsOfCases rest
end

/-- The packages that absolute imports anywhere in the program name. -/
def packages (body : Suite) : List String :=
  ((importsOf body).filter fun imported => ! imported.relative).map fun imported => topLevel imported.module

/-! ## The readers -/

def extract (imports : List String) : IrStmt → List String
  | .import_ module _ => addNew id imports (topLevel module)
  | .importFrom module _ _ => addNew id imports (topLevel module)
  | _ => imports

/-- The packages of the imports at the top level, each once. A program that
cannot be parsed has none. -/
def extractImports (parse : String → Option Suite) (code : String) : List String :=
  match parse code with
  | some body => (convertSuite body).body.foldl extract []
  | none => []

/-- The packages of the import statements that the frontend hands on. -/
def irImports (body : Suite) : List String := (modulesOf (convertSuite body).body).map topLevel

/-- The names that are found are the packages of the program. -/
def Lists (found : List String) (body : Suite) : Prop := ∀ package, package ∈ found ↔ package ∈ packages body

def ExactImports (parse : String → Option Suite) (code : String) (body : Suite) : Prop :=
  Lists (Layers.extractImports "python" code) body ∧ Lists (extractImports parse code) body ∧
    Lists (irImports body) body

/-! ## Imports as the frontend sees them -/

/-- An import statement by the first of its names. -/
def Stmt.first? : Stmt → Option Imported
  | .import_ (alias_ :: _) => some ⟨alias_.name, false⟩
  | .importFrom module (_ :: _) level => some ⟨module.getD "", level.getD 0 != 0⟩
  | _ => none

/-- What lies inside a statement that the frontend can lower. -/
def Stmt.inside (stmt : Stmt) (imports : List Imported) : List Imported := if stmt.Lowers then imports else []

mutual
/-- The imports in the places that the frontend lowers, by their first names. -/
def Stmt.firsts : Stmt → List Imported
  | .functionDef _ _ _ body _ _ _ => firstsOf body
  | .classDef _ _ _ body _ _ => firstsOf body
  | .with_ _ _ body => firstsOf body
  | s@(.for_ _ _ _ body _) => s.inside (firstsOf body)
  | s@(.while_ _ body _) => s.inside (firstsOf body)
  | s@(.if_ _ body orelse) => s.inside (firstsOf body ++ firstsOf orelse)
  | .try_ body handlers orelse finalbody =>
    firstsOf body ++ firstsOfHandlers handlers ++ firstsOf orelse ++ firstsOf finalbody
  | s => s.first?.toList

def firstsOf : List Stmt → List Imported
  | [] => []
  | stmt :: rest => stmt.firsts ++ firstsOf rest

def firstsOfHandlers : List (ExceptHandler Stmt) → List Imported
  | [] => []
  | ⟨_, _, body⟩ :: rest => firstsOf body ++ firstsOfHandlers rest
end

section Frontend
variable {body : Suite} {stmt : Stmt} {imported : Imported} {package : String}

def modulesIn (items : List Item) : List String := items.filterMap Item.module?

@[simp] theorem modulesIn_exprs (es : List Expr) : modulesIn (exprItems es) = [] := by
  induction es with
  | nil => rfl
  | cons e rest ih => exact ih

@[simp] theorem modulesIn_append (items more : List Item) :
    modulesIn (items ++ more) = modulesIn items ++ modulesIn more := List.filterMap_append

theorem modulesIn_coverWith (inner : Cover Item) {imports : List Imported}
    (same : modulesIn inner.kept = imports.map Imported.module) :
    modulesIn (stmt.coverWith inner).kept = (stmt.inside imports).map Imported.module := by
  unfold Stmt.coverWith Stmt.inside
  split
  · exact same
  · rfl

/-- A statement without statements in it imports nothing. -/
theorem modulesIn_plain (cover : Cover Expr) : modulesIn (stmt.coverWith cover.items).kept = [] := by
  unfold Stmt.coverWith
  split
  · exact modulesIn_exprs _
  · rfl

mutual
/-- What the frontend keeps of the imports. -/
theorem stmt_firsts : ∀ stmt : Stmt, modulesIn stmt.cover.kept = stmt.firsts.map Imported.module
  | .functionDef _ _ _ body _ _ _ => by
    rw [Stmt.cover, Stmt.firsts, ← stmts_firsts body]
    simp [Cover.both, Cover.out]
  | .classDef _ _ _ body _ _ => by
    rw [Stmt.cover, Stmt.firsts, ← stmts_firsts body]
    simp [Cover.both, Cover.out]
  | .with_ _ items body => by
    rw [Stmt.cover, Stmt.firsts, ← stmts_firsts body]
    simp [Cover.both, Cover.items]
  | .for_ _ target iter body orelse => by
    rw [Stmt.cover, Stmt.firsts]
    refine modulesIn_coverWith _ ?_
    simp [Cover.both, Cover.items, Cover.out, stmts_firsts body]
  | .while_ test body orelse => by
    rw [Stmt.cover, Stmt.firsts]
    refine modulesIn_coverWith _ ?_
    simp [Cover.both, Cover.items, Cover.out, stmts_firsts body]
  | .if_ test body orelse => by
    rw [Stmt.cover, Stmt.firsts]
    refine modulesIn_coverWith _ ?_
    simp [Cover.both, Cover.items, stmts_firsts body, stmts_firsts orelse]
  | .try_ body handlers orelse finalbody => by
    rw [Stmt.cover, Stmt.firsts]
    simp [Cover.both, stmts_firsts body, handlers_firsts handlers, stmts_firsts orelse, stmts_firsts finalbody]
  | .import_ [] => rfl
  | .import_ (_ :: _) => rfl
  | .importFrom _ [] _ => rfl
  | .importFrom _ (_ :: _) _ => rfl
  | .return_ _ => modulesIn_exprs _
  | .raise _ _ => modulesIn_exprs _
  | .delete _ => modulesIn_plain _
  | .assign _ _ => modulesIn_plain _
  | .augAssign _ _ _ => modulesIn_plain _
  | .assert _ _ => modulesIn_plain _
  | .expr _ => modulesIn_plain _
  | .typeAlias _ _ _ | .annAssign _ _ _ | .match_ _ _ | .tryStar _ _ _ _ | .global _ | .nonlocal _ | .pass
  | .break_ | .continue_ => rfl

theorem stmts_firsts : ∀ stmts : List Stmt,
    modulesIn (coverOfStmts stmts).kept = (firstsOf stmts).map Imported.module
  | [] => rfl
  | stmt :: rest => by
    rw [coverOfStmts, firstsOf, List.map_append, ← stmt_firsts stmt, ← stmts_firsts rest]
    exact modulesIn_append _ _

theorem handlers_firsts : ∀ handlers : List (ExceptHandler Stmt),
    modulesIn (coverOfHandlers handlers).kept = (firstsOfHandlers handlers).map Imported.module
  | [] => rfl
  | ⟨type_, _, body⟩ :: rest => by
    rw [coverOfHandlers, firstsOfHandlers, List.map_append, ← stmts_firsts body, ← handlers_firsts rest]
    simp [Cover.both, Cover.items]
end

theorem modulesOf_convertSuite (body : Suite) :
    modulesOf (convertSuite body).body = (firstsOf body).map Imported.module := by
  rw [← stmts_firsts body]
  exact (stmts_show body).2.symm

theorem mem_irImports : package ∈ irImports body ↔ ∃ imported ∈ firstsOf body, topLevel imported.module = package := by
  rw [irImports, modulesOf_convertSuite, List.map_map, List.mem_map]
  rfl

/-! ## Imports at the top level -/

/-- The module that the statement itself imports. -/
def importedModule : IrStmt → Option String
  | .import_ module _ => some module
  | .importFrom module _ _ => some module
  | _ => none

/-- What is lowered to an import is one, and is known by its first name. -/
theorem importedModule_convertStmt (stmt : Stmt) :
    (convertStmt stmt).bind importedModule = stmt.first?.map Imported.module := by
  cases stmt with
  | import_ names => cases names <;> rfl
  | importFrom module names level => cases names <;> rfl
  | expr value =>
    rw [convertStmt]
    cases convertExpr value <;> rfl
  | assign targets value =>
    rw [convertStmt]
    cases convertExprs targets <;> cases convertExpr value <;> rfl
  | augAssign target op value =>
    rw [convertStmt]
    cases convertExpr target <;> cases convertExpr value <;> rfl
  | delete targets =>
    rw [convertStmt]
    cases convertExprs targets <;> rfl
  | for_ async target iter body orelse =>
    rw [convertStmt]
    cases convertExpr target <;> cases convertExpr iter <;> rfl
  | while_ test body orelse =>
    rw [convertStmt]
    cases convertExpr test <;> rfl
  | if_ test body orelse =>
    rw [convertStmt]
    cases convertExpr test <;> rfl
  | assert test msg =>
    rw [convertStmt]
    cases convertExpr test <;> rfl
  | _ => rfl

theorem mem_extract (imports : List String) (stmt : IrStmt) :
    package ∈ extract imports stmt ↔ package ∈ imports ∨ ∃ module ∈ importedModule stmt, topLevel module = package := by
  have collected : ∀ module, package ∈ addNew id imports (topLevel module) ↔
      package ∈ imports ∨ topLevel module = package := by
    intro module
    have keys : id package ∈ (addNew id imports (topLevel module)).map id ↔
        id package ∈ imports.map id ∨ id package = id (topLevel module) := keys_addNew
    rw [List.map_id, List.map_id, id, id] at keys
    rw [keys, eq_comm (a := package)]
  cases stmt with
  | import_ module _ => simpa [extract, importedModule] using collected module
  | importFrom module _ _ => simpa [extract, importedModule] using collected module
  | _ => simp [extract, importedModule]

theorem mem_foldl_extract (stmts : List IrStmt) (imports : List String) :
    package ∈ stmts.foldl extract imports ↔
      package ∈ imports ∨ ∃ module ∈ stmts.filterMap importedModule, topLevel module = package := by
  induction stmts generalizing imports with
  | nil => simp
  | cons stmt rest ih =>
    rw [List.foldl_cons, ih, mem_extract, or_assoc]
    refine or_congr_right ?_
    cases here : importedModule stmt with
    | none => simp [here]
    | some module => simp [here]

theorem imports_convertStmts (stmts : List Stmt) : (convertStmts stmts).filterMap importedModule =
    (stmts.filterMap Stmt.first?).map Imported.module := by
  induction stmts with
  | nil => rfl
  | cons stmt rest ih =>
    have one := importedModule_convertStmt stmt
    rw [convertStmts, List.filterMap_append, ih, List.filterMap_cons]
    cases lowered : convertStmt stmt with
    | none =>
      rw [lowered] at one
      cases first : stmt.first? with
      | none => rfl
      | some imported => simp [first] at one
    | some ir =>
      rw [lowered, Option.bind_some] at one
      cases first : stmt.first? <;> simp [one, first]

theorem mem_extractImports {parse : String → Option Suite} {code : String} (parsed : parse code = some body) :
    package ∈ extractImports parse code ↔
      ∃ imported ∈ body.filterMap Stmt.first?, topLevel imported.module = package := by
  have read : extractImports parse code = (convertStmts body).foldl extract [] := by
    rw [extractImports, parsed]
    rfl
  rw [read, mem_foldl_extract, imports_convertStmts]
  simp only [List.not_mem_nil, false_or, List.mem_map]
  exact ⟨fun ⟨_, ⟨imported, first, same⟩, top⟩ => ⟨imported, first, same ▸ top⟩,
    fun ⟨imported, first, top⟩ => ⟨_, ⟨imported, first, rfl⟩, top⟩⟩

/-! ## The imports that are seen are imports -/

theorem first_sublist (stmt : Stmt) : stmt.first?.toList.Sublist stmt.firsts := by
  cases stmt with
  | import_ names => exact .refl _
  | importFrom module names level => exact .refl _
  | _ => exact List.nil_sublist _

theorem firsts_at_top (stmts : List Stmt) : (stmts.filterMap Stmt.first?).Sublist (firstsOf stmts) := by
  induction stmts with
  | nil => exact .refl _
  | cons stmt rest ih =>
    have whole := (first_sublist stmt).append ih
    rw [List.filterMap_cons]
    cases first : stmt.first? with
    | none => rwa [first] at whole
    | some imported => rwa [first] at whole

theorem inside_sublist {imports more : List Imported} (sublist : imports.Sublist more) :
    (stmt.inside imports).Sublist more := by
  unfold Stmt.inside
  split
  · exact sublist
  · exact List.nil_sublist _

mutual
theorem firsts_sublist : ∀ stmt : Stmt, stmt.firsts.Sublist stmt.imports
  | .functionDef _ _ _ body _ _ _ => firstsOf_sublist body
  | .classDef _ _ _ body _ _ => firstsOf_sublist body
  | .with_ _ _ body => firstsOf_sublist body
  | .for_ _ _ _ body _ => inside_sublist ((firstsOf_sublist body).trans (List.sublist_append_left ..))
  | .while_ _ body _ => inside_sublist ((firstsOf_sublist body).trans (List.sublist_append_left ..))
  | .if_ _ body orelse => inside_sublist ((firstsOf_sublist body).append (firstsOf_sublist orelse))
  | .try_ body handlers orelse finalbody =>
    (((firstsOf_sublist body).append (firstsOfHandlers_sublist handlers)).append (firstsOf_sublist orelse)).append
      (firstsOf_sublist finalbody)
  | .import_ [] => .refl _
  | .import_ (_ :: _) => List.Sublist.cons_cons _ (List.nil_sublist _)
  | .importFrom _ [] _ => List.nil_sublist _
  | .importFrom _ (_ :: _) _ => .refl _
  | .return_ _ | .raise _ _ | .delete _ | .assign _ _ | .augAssign _ _ _ | .assert _ _ | .expr _
  | .typeAlias _ _ _ | .annAssign _ _ _ | .match_ _ _ | .tryStar _ _ _ _ | .global _ | .nonlocal _ | .pass
  | .break_ | .continue_ => List.nil_sublist _

theorem firstsOf_sublist : ∀ stmts : List Stmt, (firstsOf stmts).Sublist (importsOf stmts)
  | [] => .refl _
  | stmt :: rest => (firsts_sublist stmt).append (firstsOf_sublist rest)

theorem firstsOfHandlers_sublist : ∀ handlers : List (ExceptHandler Stmt),
    (firstsOfHandlers handlers).Sublist (importsOfHandlers handlers)
  | [] => .refl _
  | ⟨_, _, body⟩ :: rest => (firstsOf_sublist body).append (firstsOfHandlers_sublist rest)
end

end Frontend

/-! ## Imports as the scanner sees them -/

/-- The words that stand between blanks and commas behind `import` at the start of
a line. -/
def importWords (line : List Char) : List (List Char) :=
  match stripPrefix "import ".toList (trim line) with
  | some rest => (rest.splitOn ',').flatMap (words isWhitespace)
  | none => []

/-- The word behind `from` at the start of a line. -/
def fromWord (line : List Char) : Option (List Char) :=
  (stripPrefix "from ".toList (trim line)).bind fun rest => (words isWhitespace rest).head?

/-- The word is `as`, begins a comment or has nothing before its first dot. -/
def Skipped (word : List Char) : Prop := stem word = "as".toList ∨ word.head? = some '#' ∨ stem word = []

/-- The word stands where the name of a package is expected on the line. -/
def Names (line word : List Char) : Prop :=
  word ∈ importWords line ∧ ¬ Skipped word ∨ word ∈ fromWord line ∧ stem word ≠ []

section Scanner
variable {line word name : List Char} {code package : String} {body : Suite} {parse : String → Option Suite}

theorem solid_importWord (member : word ∈ importWords line) : ∀ c ∈ word, isWhitespace c = false := by
  unfold importWords at member
  split at member
  · obtain ⟨piece, -, inside⟩ := List.mem_flatMap.mp member
    exact (mem_words inside).2
  · cases member

/-- What the scanner does with a word behind `import`. -/
def readWord (word : List Char) : Option (List Char) :=
  let module := trim (stem word)
  if word = "as".toList ∨ word.head? = some '#' ∨ module = [] ∨ module = "as".toList then none else some module

theorem readWord_eq_some (solid : ∀ c ∈ word, isWhitespace c = false) :
    readWord word = some name ↔ ¬ Skipped word ∧ stem word = name := by
  have trimmed : trim (stem word) = stem word :=
    Layers.trim_of_solid fun c there => solid c ((List.takeWhile_sublist _).subset there)
  have skipped : (word = "as".toList ∨ word.head? = some '#' ∨ stem word = [] ∨ stem word = "as".toList) ↔
      Skipped word := by
    constructor
    · rintro (rfl | comment | empty | named)
      · exact .inl rfl
      · exact .inr (.inl comment)
      · exact .inr (.inr empty)
      · exact .inl named
    · rintro (named | comment | empty)
      · exact .inr (.inr (.inr named))
      · exact .inr (.inl comment)
      · exact .inr (.inr (.inl empty))
  unfold readWord
  simp only [trimmed, skipped, Option.ite_none_left_eq_some, Option.some.injEq]

theorem pythonImports_eq (line : List Char) : Layers.pythonImports line =
    (importWords line).filterMap readWord ++
      (fromWord line).elim [] fun word => if stem word = [] then [] else [stem word] := by
  unfold Layers.pythonImports importWords fromWord
  refine congrArg₂ (· ++ ·) ?_ ?_
  · cases stripPrefix "import ".toList (trim line) <;> rfl
  · cases stripPrefix "from ".toList (trim line) with
    | none => rfl
    | some rest =>
      rw [Option.bind_some]
      dsimp only
      cases (words isWhitespace rest).head? <;> rfl

theorem mem_pythonImports : name ∈ Layers.pythonImports line ↔
    (∃ word ∈ importWords line, ¬ Skipped word ∧ stem word = name) ∨
      ∃ word ∈ fromWord line, stem word ≠ [] ∧ stem word = name := by
  rw [pythonImports_eq, List.mem_append, List.mem_filterMap]
  refine or_congr ?_ ?_
  · refine exists_congr fun word => and_congr_right fun member => ?_
    exact readWord_eq_some (solid_importWord member)
  · cases fromWord line with
    | none => simp
    | some word =>
      simp only [Option.elim_some, Option.mem_def, Option.some.injEq, exists_eq_left']
      by_cases empty : stem word = []
      · rw [if_pos empty]
        exact ⟨fun member => (List.not_mem_nil member).elim, fun named => absurd empty named.1⟩
      · rw [if_neg empty, List.mem_singleton]
        exact ⟨fun same => ⟨empty, same.symm⟩, fun named => named.2.symm⟩

theorem mem_scanned : package ∈ Layers.extractImports "python" code ↔
    ∃ line ∈ lines code.toList, ∃ word, Names line word ∧ String.ofList (stem word) = package := by
  rw [Layers.extractImports, if_pos rfl, List.mem_map]
  simp only [List.mem_flatMap, mem_pythonImports]
  constructor
  · rintro ⟨_, ⟨line, member, imported | taken⟩, rfl⟩
    · obtain ⟨word, inside, read, rfl⟩ := imported
      exact ⟨line, member, word, .inl ⟨inside, read⟩, rfl⟩
    · obtain ⟨word, inside, named, rfl⟩ := taken
      exact ⟨line, member, word, .inr ⟨inside, named⟩, rfl⟩
  · rintro ⟨line, member, word, ⟨inside, read⟩ | ⟨inside, named⟩, rfl⟩
    · exact ⟨_, ⟨line, member, .inl ⟨word, inside, read, rfl⟩⟩, rfl⟩
    · exact ⟨_, ⟨line, member, .inr ⟨word, inside, named, rfl⟩⟩, rfl⟩

end Scanner

/-! ## When all three agree -/

/-- Every package is imported at the top level, as the first name of its statement;
relative imports that are lowered have the names of packages; and the words that
stand in the places of names on the lines of the text begin with packages, and
with all of them. -/
structure PlainlyImported (code : String) (body : Suite) : Prop where
  atTop : ∀ package ∈ packages body, ∃ imported ∈ body.filterMap Stmt.first?, topLevel imported.module = package
  relatives : ∀ imported ∈ firstsOf body, imported.relative = true → topLevel imported.module ∈ packages body
  named : ∀ line ∈ lines code.toList, ∀ word, Names line word → String.ofList (stem word) ∈ packages body
  written : ∀ package ∈ packages body, ∃ line ∈ lines code.toList, ∃ word, Names line word ∧
    String.ofList (stem word) = package

section Agreement
variable {code : String} {body : Suite} {parse : String → Option Suite} {imported : Imported}

/-- An absolute import that the frontend keeps is of a package. -/
theorem package_of_first (first : imported ∈ firstsOf body) (absolute : imported.relative = false) :
    topLevel imported.module ∈ packages body := by
  refine List.mem_map.mpr ⟨imported, List.mem_filter.mpr ⟨(firstsOf_sublist body).subset first, ?_⟩, rfl⟩
  rw [absolute]
  rfl

theorem lists_scanned_iff : Lists (Layers.extractImports "python" code) body ↔
    (∀ line ∈ lines code.toList, ∀ word, Names line word → String.ofList (stem word) ∈ packages body) ∧
      ∀ package ∈ packages body, ∃ line ∈ lines code.toList, ∃ word, Names line word ∧
        String.ofList (stem word) = package := by
  constructor
  · intro exact
    refine ⟨fun line member word names => ?_, fun package there => mem_scanned.mp ((exact package).mpr there)⟩
    exact (exact _).mp (mem_scanned.mpr ⟨line, member, word, names, rfl⟩)
  · rintro ⟨named, written⟩ package
    refine ⟨fun scanned => ?_, fun there => mem_scanned.mpr (written package there)⟩
    obtain ⟨line, member, word, names, rfl⟩ := mem_scanned.mp scanned
    exact named line member word names

/-- The reader of the top level and the frontend find the packages of a program
exactly when each is imported first at the top level, and no relative import
that is lowered has another name. -/
theorem lists_parsed_iff (parsed : parse code = some body) :
    (Lists (extractImports parse code) body ∧ Lists (irImports body) body) ↔
      (∀ package ∈ packages body, ∃ imported ∈ body.filterMap Stmt.first?, topLevel imported.module = package) ∧
        ∀ imported ∈ firstsOf body, imported.relative = true → topLevel imported.module ∈ packages body := by
  constructor
  · rintro ⟨top, lowered⟩
    refine ⟨fun package there => (mem_extractImports parsed).mp ((top package).mpr there), fun imported first _ => ?_⟩
    exact (lowered _).mp (mem_irImports.mpr ⟨imported, first, rfl⟩)
  · rintro ⟨atTop, relatives⟩
    have known : ∀ imported ∈ firstsOf body, topLevel imported.module ∈ packages body := by
      intro imported first
      cases kind : imported.relative with
      | true => exact relatives imported first kind
      | false => exact package_of_first first kind
    have higher := (firsts_at_top body).subset
    refine ⟨fun package => ?_, fun package => ?_⟩
    · rw [mem_extractImports parsed]
      refine ⟨?_, atTop package⟩
      rintro ⟨imported, first, rfl⟩
      exact known imported (higher first)
    · rw [mem_irImports]
      constructor
      · rintro ⟨imported, first, rfl⟩
        exact known imported first
      · intro there
        obtain ⟨imported, first, same⟩ := atTop package there
        exact ⟨imported, higher first, same⟩

end Agreement

/-- The three readers find the packages of a program exactly when it imports them
plainly. -/
theorem exact_imports_iff {parse : String → Option Suite} {code : String} {body : Suite}
    (parsed : parse code = some body) : ExactImports parse code body ↔ PlainlyImported code body := by
  rw [ExactImports, lists_scanned_iff, lists_parsed_iff parsed]
  constructor
  · rintro ⟨⟨named, written⟩, atTop, relatives⟩
    exact ⟨atTop, relatives, named, written⟩
  · rintro ⟨atTop, relatives, named, written⟩
    exact ⟨⟨named, written⟩, atTop, relatives⟩

/-- A parser that knows one program. -/
def parseOnly (text : String) (body : Suite) (code : String) : Option Suite := if code = text then some body else none

theorem import_os_exact_iff : ExactImports (parseOnly "import os" [.import_ [⟨"os", none⟩]]) "import os"
    [.import_ [⟨"os", none⟩]] ↔ PlainlyImported "import os" [.import_ [⟨"os", none⟩]] :=
  exact_imports_iff (if_pos rfl)

/-- `np` is no package, and `sys` is not found behind it. -/
theorem second_name_is_missed : ¬ ExactImports
    (parseOnly "import numpy as np, sys" [.import_ [⟨"numpy", some "np"⟩, ⟨"sys", none⟩]]) "import numpy as np, sys"
    [.import_ [⟨"numpy", some "np"⟩, ⟨"sys", none⟩]] := by
  rintro ⟨-, -, lowered⟩
  have listed := (lowered "sys").mpr (by decide)
  revert listed
  decide

end TinyMachine.Python
