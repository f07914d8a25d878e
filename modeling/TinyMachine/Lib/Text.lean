import Mathlib.Data.List.DropRight
import Mathlib.Data.List.Infix

/-! Cutting texts into lines and words, and searching them. -/
namespace TinyMachine.Lib.Text

section Searching
variable {α : Type} [DecidableEq α]

/-- The text from the first place on where the pattern begins. -/
def fromFirst (pattern : List α) : List α → Option (List α)
  | [] => if pattern = [] then some [] else none
  | c :: rest => if pattern.isPrefixOf (c :: rest) then some (c :: rest) else fromFirst pattern rest

/-- The text before the first place where the pattern begins. -/
def beforeFirst (pattern : List α) : List α → Option (List α)
  | [] => if pattern = [] then some [] else none
  | c :: rest => if pattern.isPrefixOf (c :: rest) then some [] else (beforeFirst pattern rest).map (c :: ·)

/-- What stands before and behind the first occurrence of the separator. -/
def splitOnce (separator : α) : List α → Option (List α × List α)
  | [] => none
  | c :: rest =>
    if c = separator then some ([], rest) else (splitOnce separator rest).map fun (before, after) => (c :: before, after)

/-- Without any number of these characters at either end. -/
def trimMatches (c : α) (text : List α) : List α :=
  ((text.dropWhile (· = c)).reverse.dropWhile (· = c)).reverse

end Searching

/-- Without the blanks at either end. -/
def strip {α : Type} (blank : α → Bool) (text : List α) : List α := (text.dropWhile blank).rdropWhile blank

/-- The lines of a text behind the characters of an unfinished line. A carriage
return at the end of a finished line is not part of it. -/
def linesFrom : List Char → List Char → List (List Char)
  | line, [] => if line = [] then [] else [line]
  | line, c :: rest =>
    if c = '\n' then
      (if line.getLast? = some '\r' then line.dropLast else line) :: linesFrom [] rest
    else
      linesFrom (line ++ [c]) rest

def lines (text : List Char) : List (List Char) := linesFrom [] text

/-- The words of a text behind the characters of an unfinished word. -/
def wordsFrom (blank : Char → Bool) : List Char → List Char → List (List Char)
  | word, [] => if word = [] then [] else [word]
  | word, c :: rest =>
    if blank c then
      (if word = [] then [] else [word]) ++ wordsFrom blank [] rest
    else
      wordsFrom blank (word ++ [c]) rest

def words (blank : Char → Bool) (text : List Char) : List (List Char) := wordsFrom blank [] text

section Searched
variable {α : Type} [DecidableEq α] {separator c : α} {pattern text found before after : List α}

theorem fromFirst_suffix (hit : fromFirst pattern text = some found) : found <:+ text := by
  induction text with
  | nil =>
    rw [fromFirst] at hit
    split at hit
    · cases hit
      exact List.suffix_rfl
    · cases hit
  | cons c text ih =>
    rw [fromFirst] at hit
    split at hit
    · cases hit
      exact List.suffix_rfl
    · exact (ih hit).trans (List.suffix_cons c text)

omit [DecidableEq α] in
/-- A pattern whose first character does not come again in it cannot begin
inside one of its own occurrences. -/
private theorem prefix_before_pattern {behind : List α} (first : separator ∉ pattern) (some : before ≠ [])
    (starts : separator :: pattern <+: before ++ (separator :: pattern ++ behind)) : separator :: pattern <+: before := by
  rcases List.prefix_or_prefix_of_prefix starts (List.prefix_append before _) with inside | ⟨overlap, split⟩
  · exact inside
  · cases overlap with
    | nil => rw [← split, List.append_nil]
    | cons d overlap =>
      have again : before ++ d :: overlap <+: before ++ (separator :: pattern ++ behind) := split ▸ starts
      rw [List.prefix_append_right_inj, List.cons_append, List.cons_prefix_cons] at again
      cases before with
      | nil => exact absurd rfl some
      | cons c before =>
        rw [List.cons_append, List.cons.injEq] at split
        have member : d ∈ pattern := split.2 ▸ List.mem_append_right before List.mem_cons_self
        exact absurd (again.1 ▸ member) first

/-- The first occurrence of such a pattern is the one behind a text exactly
when it does not occur in the text. -/
theorem beforeFirst_append_iff {behind : List α} (first : separator ∉ pattern) :
    beforeFirst (separator :: pattern) (before ++ (separator :: pattern ++ behind)) = some before ↔
      ¬ separator :: pattern <:+: before := by
  induction before with
  | nil =>
    have here : (separator :: pattern).isPrefixOf (separator :: (pattern ++ behind)) :=
      List.isPrefixOf_iff_prefix.mpr ⟨behind, rfl⟩
    rw [List.nil_append, List.cons_append, beforeFirst, if_pos here]
    simp
  | cons c before ih =>
    rw [List.cons_append, beforeFirst, List.infix_cons_iff]
    split
    · rename_i here
      have inside := prefix_before_pattern first (List.cons_ne_nil c before) (List.isPrefixOf_iff_prefix.mp here)
      exact iff_of_false (by simp) (fun absent => absent (.inl inside))
    · rename_i elsewhere
      have notHere : ¬ separator :: pattern <+: c :: before := fun inside =>
        elsewhere (List.isPrefixOf_iff_prefix.mpr (inside.trans (List.prefix_append ..)))
      rw [or_iff_right notHere, ← ih, Option.map_eq_some_iff]
      simp

theorem splitOnce_eq_some (cut : splitOnce separator text = some (before, after)) :
    text = before ++ separator :: after ∧ separator ∉ before := by
  induction text generalizing before with
  | nil => cases cut
  | cons c text ih =>
    rw [splitOnce] at cut
    split at cut
    · rename_i same
      cases cut
      exact ⟨congrArg (· :: after) same, List.not_mem_nil⟩
    · rename_i other
      obtain ⟨⟨start, rest⟩, earlier, same⟩ := Option.map_eq_some_iff.mp cut
      cases same
      obtain ⟨rfl, fresh⟩ := ih earlier
      exact ⟨rfl, fun there => (List.mem_cons.mp there).elim (fun same => other same.symm) fresh⟩

theorem splitOnce_append (fresh : separator ∉ before) :
    splitOnce separator (before ++ separator :: after) = some (before, after) := by
  induction before with
  | nil => rw [List.nil_append, splitOnce, if_pos rfl]
  | cons c before ih =>
    obtain ⟨notHere, notLater⟩ := not_or.mp (mt List.mem_cons.mpr fresh)
    rw [List.cons_append, splitOnce, if_neg (Ne.symm notHere), ih notLater]
    rfl

/-- What stands behind the last separator. -/
theorem rtakeWhile_behind (fresh : separator ∉ after) :
    (before ++ separator :: after).rtakeWhile (· ≠ separator) = after := by
  have behind : ∀ c ∈ after.reverse, decide (c ≠ separator) = true := by
    intro c member
    refine decide_eq_true fun same => fresh ?_
    exact same ▸ List.mem_reverse.mp member
  rw [List.rtakeWhile, List.reverse_append, List.reverse_cons, List.append_assoc,
    List.takeWhile_append_of_pos behind, List.singleton_append, List.takeWhile_cons_of_neg (by simp),
    List.append_nil, List.reverse_reverse]

theorem infix_trimMatches : trimMatches c text <:+: text :=
  (List.rdropWhile_prefix _ _).isInfix.trans (List.dropWhile_suffix _).isInfix

theorem trimMatches_ends : (trimMatches c text).head? ≠ some c ∧ (trimMatches c text).getLast? ≠ some c := by
  have shorter : trimMatches c text <+: text.dropWhile (· = c) := List.rdropWhile_prefix _ _
  constructor
  · intro first
    obtain ⟨rest, kept⟩ := List.head?_eq_some_iff.mp first
    obtain ⟨behind, whole⟩ := shorter
    rw [kept, List.cons_append] at whole
    have stopped := List.head?_dropWhile_not (· = c) text
    rw [← whole] at stopped
    simp at stopped
  · intro last
    rw [List.getLast?_eq_head?_reverse, trimMatches, List.reverse_reverse] at last
    have stopped := List.head?_dropWhile_not (· = c) (text.dropWhile (· = c)).reverse
    rw [last] at stopped
    simp at stopped

/-- A text that does not begin or end with the character is freed of a pair of
them around it. -/
theorem trimMatches_pair (nonempty : text ≠ []) (first : text.head? ≠ some c) (last : text.getLast? ≠ some c) :
    trimMatches c (c :: text ++ [c]) = text := by
  have front : ∀ {rest : List α}, rest ≠ [] → rest.head? ≠ some c →
      ∀ behind, (c :: rest ++ behind).dropWhile (· = c) = rest ++ behind := by
    intro rest filled other behind
    cases rest with
    | nil => exact absurd rfl filled
    | cons d rest =>
      have differs : ¬ d = c := fun same => other (congrArg some same)
      simp [differs]
  rw [trimMatches, front nonempty first, List.reverse_append, List.reverse_singleton, List.singleton_append,
    ← List.append_nil text.reverse, ← List.cons_append,
    front (by simpa using nonempty) (by rwa [List.head?_reverse]), List.append_nil, List.reverse_reverse]

end Searched

section Stripping
variable {α : Type} {blank : α → Bool} {text : List α}

theorem strip_infix : strip blank text <:+: text :=
  (List.rdropWhile_prefix _ _).isInfix.trans (List.dropWhile_suffix _).isInfix

/-- A text whose ends are no blanks is left as it is. -/
theorem strip_eq_self (first : ∀ c ∈ text.head?, blank c = false) (last : ∀ c ∈ text.getLast?, blank c = false) :
    strip blank text = text := by
  have front : text.dropWhile blank = text := by
    cases text with
    | nil => rfl
    | cons c rest => exact List.dropWhile_cons_of_neg (by simp [first c rfl])
  rw [strip, front, List.rdropWhile_eq_self_iff]
  intro nonempty
  simp [last _ (List.getLast?_eq_getLast_of_ne_nil nonempty)]

theorem strip_strip : strip blank (strip blank text) = strip blank text := by
  apply strip_eq_self
  · intro c first
    have shorter : strip blank text <+: text.dropWhile blank := List.rdropWhile_prefix _ _
    have earlier : (text.dropWhile blank).head? = some c := by
      obtain ⟨rest, kept⟩ := List.head?_eq_some_iff.mp first
      obtain ⟨behind, whole⟩ := shorter
      rw [← whole, kept]
      rfl
    have stopped := List.head?_dropWhile_not blank text
    rw [earlier] at stopped
    simpa using stopped
  · intro c last
    have stopped := List.head?_dropWhile_not blank (text.dropWhile blank).reverse
    rw [Option.mem_def, strip, List.rdropWhile, List.getLast?_reverse] at last
    rw [last] at stopped
    simpa using stopped

end Stripping

section Cutting
variable {line text : List Char} {blank : Char → Bool} {word part : List Char}

theorem linesFrom_append {rest : List Char} (whole : '\n' ∉ text) :
    linesFrom line (text ++ rest) = linesFrom (line ++ text) rest := by
  induction text generalizing line with
  | nil => rw [List.nil_append, List.append_nil]
  | cons c text ih =>
    obtain ⟨notBreak, later⟩ := not_or.mp (mt List.mem_cons.mpr whole)
    rw [List.cons_append, linesFrom, if_neg (Ne.symm notBreak), ih later, List.append_assoc,
      List.singleton_append]

theorem lines_of_whole (some : text ≠ []) (whole : '\n' ∉ text) : lines text = [text] := by
  rw [lines, ← List.append_nil text, linesFrom_append whole, linesFrom, List.nil_append, List.append_nil, if_neg some]

/-- Lines that are all finished, each without a carriage return at its end. -/
theorem lines_finished {parts : List (List Char)} (whole : ∀ line ∈ parts, '\n' ∉ line) :
    lines (parts.flatMap (· ++ ['\n'])) =
      parts.map fun line => if line.getLast? = some '\r' then line.dropLast else line := by
  induction parts with
  | nil => rfl
  | cons line parts ih =>
    obtain ⟨first, others⟩ := List.forall_mem_cons.mp whole
    rw [List.flatMap_cons, List.append_assoc, lines, linesFrom_append first, List.nil_append, List.singleton_append,
      linesFrom, if_pos rfl, List.map_cons, ← ih others, lines]

private theorem mem_linesFrom {unfinished : List Char} (whole : '\n' ∉ unfinished)
    (member : line ∈ linesFrom unfinished text) : '\n' ∉ line := by
  induction text generalizing unfinished with
  | nil =>
    rw [linesFrom] at member
    split at member
    · cases member
    · rwa [List.mem_singleton.mp member]
  | cons c text ih =>
    rw [linesFrom] at member
    split at member
    · rcases List.mem_cons.mp member with here | later
      · rw [here]
        split
        · exact fun there => whole (List.mem_of_mem_dropLast there)
        · exact whole
      · exact ih List.not_mem_nil later
    · rename_i other
      refine ih (fun there => ?_) member
      rcases List.mem_append.mp there with early | last
      · exact whole early
      · exact other (List.mem_singleton.mp last).symm

theorem mem_lines (member : line ∈ lines text) : '\n' ∉ line := mem_linesFrom List.not_mem_nil member

private theorem mem_wordsFrom (solid : ∀ c ∈ word, blank c = false) (member : part ∈ wordsFrom blank word text) :
    part ≠ [] ∧ ∀ c ∈ part, blank c = false := by
  induction text generalizing word with
  | nil =>
    rw [wordsFrom] at member
    split at member
    · cases member
    · rename_i some
      rw [List.mem_singleton.mp member]
      exact ⟨some, solid⟩
  | cons c text ih =>
    rw [wordsFrom] at member
    split at member
    · rcases List.mem_append.mp member with here | later
      · split at here
        · cases here
        · rename_i some
          rw [List.mem_singleton.mp here]
          exact ⟨some, solid⟩
      · exact ih (fun c there => absurd there List.not_mem_nil) later
    · rename_i other
      refine ih (fun d there => ?_) member
      rcases List.mem_append.mp there with early | last
      · exact solid d early
      · rw [List.mem_singleton.mp last]
        exact (Bool.not_eq_true _).mp other

theorem mem_words (member : part ∈ words blank text) : part ≠ [] ∧ ∀ c ∈ part, blank c = false :=
  mem_wordsFrom (fun _ there => absurd there List.not_mem_nil) member

private theorem wordsFrom_solid (solid : ∀ c ∈ text, blank c = false) :
    wordsFrom blank word text = if word ++ text = [] then [] else [word ++ text] := by
  induction text generalizing word with
  | nil => rw [wordsFrom, List.append_nil]
  | cons c text ih =>
    have here := solid c List.mem_cons_self
    rw [wordsFrom, if_neg (by simp [here]), ih fun d there => solid d (List.mem_cons_of_mem _ there),
      List.append_assoc, List.singleton_append]

theorem words_of_solid (some : text ≠ []) (solid : ∀ c ∈ text, blank c = false) : words blank text = [text] := by
  rw [words, wordsFrom_solid solid, List.nil_append, if_neg some]

end Cutting
end TinyMachine.Lib.Text
