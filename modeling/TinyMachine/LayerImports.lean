import TinyMachine.LayerRegistryFile

/-! The names that a program of a language can ask for, and for each of them a
program that asks for nothing else. -/
namespace TinyMachine.Layers
open Lib Text
open Uops (isWhitespace trim infix_trim stripPrefix)

variable {lang name : String} {line module part : List Char}

/-- Some program of the language imports the name. -/
def Importable (lang name : String) : Prop := ∃ code, name ∈ extractImports lang code

/-! ## Python -/

/-- One or more characters, no blank and no dot among them. -/
def PythonName (module : List Char) : Prop := module ≠ [] ∧ ∀ c ∈ module, isWhitespace c = false ∧ c ≠ '.'

private theorem pythonName_of_word {rest : List Char} (member : part ∈ words isWhitespace rest)
    (some : part.takeWhile (· ≠ '.') ≠ []) : PythonName (part.takeWhile (· ≠ '.')) := by
  refine ⟨some, fun c there => ⟨(mem_words member).2 c ((List.takeWhile_sublist _).subset there), ?_⟩⟩
  simpa using List.mem_takeWhile_imp there

theorem trim_of_solid (solid : ∀ c ∈ part, isWhitespace c = false) : trim part = part := by
  have whole : ∀ text : List Char, (∀ c ∈ text, isWhitespace c = false) → text.dropWhile isWhitespace = text := by
    intro text solid
    cases text with
    | nil => rfl
    | cons c text => exact List.dropWhile_cons_of_neg (by simp [solid c List.mem_cons_self])
  rw [trim, whole part solid, whole _ fun c there => solid c (List.mem_reverse.mp there), List.reverse_reverse]

theorem pythonName_of_mem (member : module ∈ pythonImports line) : PythonName module := by
  rcases List.mem_append.mp member with imported | taken
  · split at imported
    · obtain ⟨part, inside, kept⟩ := List.mem_filterMap.mp imported
      obtain ⟨piece, -, word⟩ := List.mem_flatMap.mp inside
      have solid : ∀ c ∈ part.takeWhile (· ≠ '.'), isWhitespace c = false := fun c there =>
        (mem_words word).2 c ((List.takeWhile_sublist _).subset there)
      simp only [trim_of_solid solid] at kept
      split at kept
      · cases kept
      · rename_i proper
        cases kept
        exact pythonName_of_word word fun empty => proper (.inr (.inr (.inl empty)))
    · cases imported
  · split at taken
    · split at taken
      · rename_i rest _ part first
        dsimp only at taken
        split at taken
        · cases taken
        · rename_i some
          rw [List.mem_singleton.mp taken]
          exact pythonName_of_word (List.mem_of_head? first) some
      · cases taken
    · cases taken

/-- The program `from` that name. -/
def fromLine (module : List Char) : List Char := "from ".toList ++ module

theorem pythonImports_fromLine (valid : PythonName module) : pythonImports (fromLine module) = [module] := by
  obtain ⟨some, plain⟩ := valid
  have trimmed : trim (fromLine module) = fromLine module := by
    have shape : fromLine module = 'f' :: ("rom ".toList ++ module.dropLast) ++ [module.getLast some] := by
      rw [List.cons_append, List.append_assoc, List.dropLast_append_getLast]
      rfl
    rw [shape]
    exact trim_solid rfl (plain _ (List.getLast_mem some)).1
  have asked : words isWhitespace module = [module] := words_of_solid some fun c there => (plain c there).1
  have whole : module.takeWhile (· ≠ '.') = module := List.takeWhile_eq_self_iff.mpr fun c there => by
    simpa using (plain c there).2
  have notImport : stripPrefix "import ".toList (fromLine module) = none := rfl
  have taken : stripPrefix "from ".toList (fromLine module) = Option.some module := rfl
  simp only [pythonImports, trimmed, notImport, taken, asked, List.head?_cons, whole, if_neg some, List.nil_append]

/-! ## JavaScript -/

/-- What `require` takes: a path in single quotes that is not that of a file. -/
structure RequiredName (module : List Char) : Prop where
  unquoted : singleQuote ∉ module
  whole : '\n' ∉ module
  package : ¬ (module.head? = some '.' ∨ module.head? = some '/')

/-- What `import` takes: a text that is not empty, is not the word `from` and
does not begin or end with the quotation mark around it. -/
structure ImportedName (module : List Char) : Prop where
  nonempty : module ≠ []
  proper : module ≠ "from".toList
  whole : '\n' ∉ module
  ends : module.head? ≠ some doubleQuote ∧ module.getLast? ≠ some doubleQuote

private theorem stripPrefix_suffix {start text rest : List Char} (stripped : stripPrefix start text = some rest) :
    rest <:+ text := by
  unfold stripPrefix at stripped
  split at stripped
  · cases stripped
    exact List.drop_suffix _ _
  · cases stripped

theorem jsName_of_mem (whole : '\n' ∉ line) (member : module ∈ jsRequires line) :
    RequiredName module ∨ ImportedName module := by
  have trimmed : '\n' ∉ trim line := fun there => whole ((infix_trim line).subset there)
  rcases List.mem_append.mp member with required | imported
  · left
    split at required
    · rename_i call found
      split at required
      · rename_i _ before after cut
        obtain ⟨⟨opening, opened⟩, first, second⟩ := Option.bind_eq_some_iff.mp cut
        obtain ⟨split, -⟩ := splitOnce_eq_some first
        obtain ⟨rfl, fresh⟩ := splitOnce_eq_some second
        split at required
        · cases required
        · rename_i package
          rw [List.mem_singleton.mp required]
          refine ⟨fresh, fun there => trimmed ((fromFirst_suffix found).subset ?_), package⟩
          rw [split]
          exact List.mem_append_right _ (List.mem_cons_of_mem _ (List.mem_append_left _ there))
      · cases required
    · cases required
  · right
    split at imported
    · rename_i rest stripped
      split at imported
      · rename_i clause found
        dsimp only at imported
        split at imported
        · cases imported
        · rename_i proper
          rw [List.mem_singleton.mp imported]
          obtain ⟨some, notFrom⟩ := not_or.mp proper
          refine ⟨some, notFrom, fun there => trimmed ?_, trimMatches_ends⟩
          have taken := (fromFirst_suffix found).isInfix.trans (stripPrefix_suffix stripped).isInfix
          apply taken.subset
          apply List.mem_of_mem_drop
          exact (infix_trim _).subset (infix_trimMatches.subset (infix_trimMatches.subset there))
      · cases imported
    · cases imported

/-- The program that requires that path. -/
def requireLine (module : List Char) : List Char :=
  "require(".toList ++ singleQuote :: module ++ [singleQuote, ')']

theorem jsRequires_requireLine (valid : RequiredName module) : jsRequires (requireLine module) = [module] := by
  have trimmed : trim (requireLine module) = requireLine module := by
    have shape : requireLine module =
        'r' :: ("equire(".toList ++ singleQuote :: module ++ [singleQuote]) ++ [')'] :=
      (List.append_assoc _ [singleQuote] [')']).symm
    rw [shape]
    exact trim_solid rfl rfl
  have found : fromFirst "require(".toList (requireLine module) = some (requireLine module) := rfl
  have opened : splitOnce singleQuote (requireLine module) =
      some ("require(".toList, module ++ [singleQuote, ')']) := by
    have shape : requireLine module = "require(".toList ++ singleQuote :: (module ++ [singleQuote, ')']) := by
      unfold requireLine
      rw [List.append_assoc, List.cons_append]
    rw [shape]
    exact splitOnce_append (by decide)
  have closed : splitOnce singleQuote (module ++ [singleQuote, ')']) = some (module, [')']) :=
    splitOnce_append valid.unquoted
  have notImport : stripPrefix "import ".toList (requireLine module) = none := rfl
  simp only [jsRequires, trimmed, found, opened, closed, Option.bind_some, if_neg valid.package, notImport,
    List.append_nil]

/-- The program that imports from that text. The `require` in it names a file,
so that none in the text is looked at. -/
def importLine (module : List Char) : List Char :=
  "import require('.') from ".toList ++ doubleQuote :: module ++ [doubleQuote]

theorem jsRequires_importLine (valid : ImportedName module) : jsRequires (importLine module) = [module] := by
  have trimmed : trim (importLine module) = importLine module := by
    have shape : importLine module =
        'i' :: ("mport require('.') from ".toList ++ doubleQuote :: module) ++ [doubleQuote] := rfl
    rw [shape]
    exact trim_solid rfl rfl
  have found : fromFirst "require(".toList (importLine module) =
      some ("require('.') from ".toList ++ doubleQuote :: module ++ [doubleQuote]) := rfl
  have opened : splitOnce singleQuote ("require('.') from ".toList ++ doubleQuote :: module ++ [doubleQuote]) =
      some ("require(".toList, ".') from ".toList ++ doubleQuote :: module ++ [doubleQuote]) := rfl
  have closed : splitOnce singleQuote (".') from ".toList ++ doubleQuote :: module ++ [doubleQuote]) =
      some (['.'], ") from ".toList ++ doubleQuote :: module ++ [doubleQuote]) := rfl
  have taken : stripPrefix "import ".toList (importLine module) =
      some ("require('.') from ".toList ++ doubleQuote :: module ++ [doubleQuote]) := rfl
  have clause : fromFirst " from ".toList ("require('.') from ".toList ++ doubleQuote :: module ++ [doubleQuote]) =
      some (" from ".toList ++ doubleQuote :: module ++ [doubleQuote]) := rfl
  have freed : trimMatches doubleQuote (trimMatches singleQuote (trim (doubleQuote :: module ++ [doubleQuote]))) =
      module := by
    have solid : trim (doubleQuote :: module ++ [doubleQuote]) = doubleQuote :: module ++ [doubleQuote] :=
      trim_solid rfl rfl
    have kept : trimMatches singleQuote (doubleQuote :: module ++ [doubleQuote]) =
        doubleQuote :: module ++ [doubleQuote] := by
      simp [trimMatches, singleQuote, doubleQuote]
    rw [solid, kept]
    exact trimMatches_pair valid.nonempty valid.ends.1 valid.ends.2
  have notFile : ['.'].head? = some '.' ∨ ['.'].head? = some '/' := .inl rfl
  have proper : ¬ (module = [] ∨ module = "from".toList) := not_or.mpr ⟨valid.nonempty, valid.proper⟩
  have behind : (" from ".toList ++ doubleQuote :: module ++ [doubleQuote]).drop 6 =
      doubleQuote :: module ++ [doubleQuote] := rfl
  simp only [jsRequires, trimmed, found, opened, closed, Option.bind_some, if_pos notFile, taken, clause, behind,
    freed, if_neg proper, List.nil_append]

/-! ## A program of one import -/

private theorem unbroken_append {text rest : List Char} (one : '\n' ∉ text) (two : '\n' ∉ rest) :
    '\n' ∉ text ++ rest := fun there => (List.mem_append.mp there).elim one two

/-- A line that is the whole program is the line whose imports and pragmas are
looked at. -/
private theorem single_line {imports : List Char → List (List Char)} {first : Char} (starts : line.head? = some first)
    (whole : '\n' ∉ line) (solid : isWhitespace first = false) (notPragma : first ≠ '#')
    (imported : imports line = [module]) :
    ((lines (String.ofList line).toList).flatMap imports).map String.ofList = [String.ofList module] ∧
      parsePragmas (String.ofList line) = [] := by
  obtain ⟨text, rfl⟩ := List.head?_eq_some_iff.mp starts
  have single : lines (String.ofList (first :: text)).toList = [first :: text] := by
    rw [String.toList_ofList]
    exact lines_of_whole (List.cons_ne_nil _ _) whole
  obtain ⟨kept, trimmed⟩ := trim_cons solid text
  have other : stripPrefix "# tinymachine:dep ".toList (first :: kept) = none := by
    refine if_neg fun start => notPragma ?_
    obtain ⟨rest, same⟩ := List.isPrefixOf_iff_prefix.mp start
    exact (List.cons.inj same).1.symm
  constructor
  · rw [single, List.flatMap_singleton, imported, List.map_singleton]
  · rw [parsePragmas, single, List.flatMap_singleton, trimmed, other]

/-- Whatever a program imports some program imports alone. -/
theorem Importable.alone (importable : Importable lang name) :
    ∃ code, extractImports lang code = [name] ∧ parsePragmas code = [] := by
  obtain ⟨code, member⟩ := importable
  by_cases python : lang = "python"
  · simp only [extractImports, if_pos python] at member ⊢
    obtain ⟨module, inside, rfl⟩ := List.mem_map.mp member
    obtain ⟨line, -, imported⟩ := List.mem_flatMap.mp inside
    have valid := pythonName_of_mem imported
    have whole : '\n' ∉ fromLine module :=
      unbroken_append (by decide) fun there => absurd (valid.2 _ there).1 (by decide)
    exact ⟨String.ofList (fromLine module),
      single_line (rfl : _ = some 'f') whole rfl (by decide) (pythonImports_fromLine valid)⟩
  by_cases script : lang = "node" ∨ lang = "javascript"
  · simp only [extractImports, if_neg python, if_pos script] at member ⊢
    obtain ⟨module, inside, rfl⟩ := List.mem_map.mp member
    obtain ⟨line, there, imported⟩ := List.mem_flatMap.mp inside
    rcases jsName_of_mem (mem_lines there) imported with valid | valid
    · have whole : '\n' ∉ requireLine module :=
        unbroken_append (unbroken_append (by decide) (List.not_mem_cons_of_ne_of_not_mem (by decide) valid.whole))
          (by decide)
      exact ⟨String.ofList (requireLine module),
        single_line (rfl : _ = some 'r') whole rfl (by decide) (jsRequires_requireLine valid)⟩
    · have whole : '\n' ∉ importLine module :=
        unbroken_append (unbroken_append (by decide) (List.not_mem_cons_of_ne_of_not_mem (by decide) valid.whole))
          (by decide)
      exact ⟨String.ofList (importLine module),
        single_line (rfl : _ = some 'i') whole rfl (by decide) (jsRequires_importLine valid)⟩
  · rw [extractImports, if_neg python, if_neg script] at member
    cases member

end TinyMachine.Layers
