import TinyMachine.CmdlineScan

/-! The parameters a configuration is written as, each with the space behind
it, before the tokenizer: those whose values it can tell from their
surroundings come out as one token, whatever the tokenizer is inside of the
others keep too little. -/
namespace TinyMachine.Cmdline
open Lib Tokenizer

/-- The value reads back as written: the quotes put around it are not ended by
it, and it is in quotes if it has a number sign. -/
def Quotable (value : Text) : Prop := '"' ∉ value ∧ ('#' ∈ value → needsQuotes value = true)

/-- Without blanks at its ends, which are lost in any case. -/
def Trimmed (value : Text) : Prop := trim value = value

def Plain (value : Text) : Prop := Trimmed value ∧ Quotable value

instance plainDecidable (value : Text) : Decidable (Plain value) :=
  inferInstanceAs (Decidable (_ = _ ∧ _ ∉ _ ∧ (_ → _)))

/-- A parameter and the space behind it. -/
def spaced (p : Field × Text) : Text := param p.1 (quoteIfNeeded p.2) ++ [' ']

/-- What stands before the value. -/
def lead (field : Field) : Text := ours ++ field.name ++ ['=']

section Texts
variable {field : Field} {value : Text} {ch : Char}

theorem param_eq_lead (field : Field) (text : Text) : param field text = lead field ++ text := by
  simp [param, lead]

theorem solid_of_all (all : value.all fun ch => decide (Solid ch)) : ∀ ch ∈ value, Solid ch := fun ch member =>
  of_decide_eq_true (List.all_eq_true.mp all ch member)

theorem name_solid (field : Field) : ∀ ch ∈ field.name, Solid ch := by
  cases field <;> exact solid_of_all (by decide)

theorem lead_solid (field : Field) : ∀ ch ∈ lead field, Solid ch := by
  have prefixed : ∀ ch ∈ ours, Solid ch := solid_of_all (by decide)
  intro ch member
  rcases List.mem_append.mp member with front | sign
  · rcases List.mem_append.mp front with first | second
    · exact prefixed ch first
    · exact name_solid field ch second
  · rw [List.mem_singleton.mp sign]
    decide

theorem notMem_lead (unsolid : ¬ Solid ch) : ch ∉ lead field := fun member => unsolid (lead_solid field ch member)

/-- Quoting adds no characters but double quotes and backslashes. -/
theorem count_quoteIfNeeded (notQuote : ch ≠ '"') (notSlash : ch ≠ '\\') :
    (quoteIfNeeded value).count ch = value.count ch := by
  have escaped : (escape value).count ch = value.count ch := by
    unfold escape
    induction value with
    | nil => rfl
    | cons c value ih =>
      rw [List.flatMap_cons, List.count_append, ih]
      by_cases quote : c = '"'
      · simp [quote, notQuote.symm, notSlash.symm]
      · rw [if_neg quote, ← List.count_append]
        rfl
  unfold quoteIfNeeded
  split
  · simp [escaped, notQuote.symm]
  · rfl

theorem count_spaced {p : Field × Text} (notQuote : ch ≠ '"') (notSlash : ch ≠ '\\') (notSpace : ch ≠ ' ')
    (unsolid : ¬ Solid ch) : (spaced p).count ch = p.2.count ch := by
  have before : (lead p.1).count ch = 0 := List.count_eq_zero.mpr (notMem_lead unsolid)
  rw [spaced, param_eq_lead, List.count_append, List.count_append, before, count_quoteIfNeeded notQuote notSlash]
  simp [notSpace.symm]

theorem escape_eq_self (plain : '"' ∉ value) : escape value = value := by
  unfold escape
  induction value with
  | nil => rfl
  | cons c value ih =>
    obtain ⟨notHere, later⟩ := not_or.mp (mt List.mem_cons.mpr plain)
    rw [List.flatMap_cons, ih later, if_neg (Ne.symm notHere)]
    rfl

theorem spaced_quoted {p : Field × Text} (needs : needsQuotes p.2 = true) (plain : '"' ∉ p.2) :
    spaced p = lead p.1 ++ ('"' :: (p.2 ++ ['"', ' '])) := by
  rw [spaced, param_eq_lead, quoteIfNeeded, if_pos needs, escape_eq_self plain]
  simp

theorem spaced_raw {p : Field × Text} (raw : needsQuotes p.2 = false) : spaced p = lead p.1 ++ (p.2 ++ [' ']) := by
  rw [spaced, param_eq_lead, quoteIfNeeded, raw]
  simp

theorem raw_chars (raw : needsQuotes value = false) :
    '"' ∉ value ∧ '\'' ∉ value ∧ ∀ ch ∈ value, isWhitespace ch = false := by
  simp only [needsQuotes, Bool.or_eq_false_iff, List.any_eq_false, List.contains_eq_mem] at raw
  obtain ⟨⟨blank, double⟩, single⟩ := raw
  exact ⟨of_decide_eq_false double, of_decide_eq_false single, fun ch member => by simpa using blank ch member⟩

theorem needsQuotes_of_single (quote : '\'' ∈ value) : needsQuotes value = true := by
  by_contra raw
  exact (raw_chars (Bool.not_eq_true _ ▸ raw)).2.1 quote

theorem raw_solid (raw : needsQuotes value = false) (noHash : '#' ∉ value) : ∀ ch ∈ value, Solid ch := by
  obtain ⟨double, single, blank⟩ := raw_chars raw
  intro ch member
  refine ⟨?_, ?_, ?_, blank ch member⟩
  · rintro rfl
    exact double member
  · rintro rfl
    exact single member
  · rintro rfl
    exact noHash member

end Texts

section Scanning
variable {t : Tokenizer} {text current : Text} {p : Field × Text}

theorem scan_solid (solid : ∀ ch ∈ text, Solid ch) :
    scan ⟨.outside, current⟩ text = ([], ⟨.outside, current ++ text⟩) := by
  induction text generalizing current with
  | nil => simp [scan]
  | cons ch text ih =>
    obtain ⟨double, single, hash, blank⟩ := solid ch List.mem_cons_self
    have pushed : step ⟨.outside, current⟩ ch = ([], ⟨.outside, current ++ [ch]⟩) := by
      simp [step, double, single, hash, blank]
    rw [scan_cons, pushed, ih fun other member => solid other (List.mem_cons_of_mem _ member)]
    simp

theorem scan_quoted (plain : '"' ∉ text) :
    scan ⟨.doubleQuote, current⟩ text = ([], ⟨.doubleQuote, current ++ text⟩) := by
  induction text generalizing current with
  | nil => simp [scan]
  | cons ch text ih =>
    obtain ⟨notHere, later⟩ := not_or.mp (mt List.mem_cons.mpr plain)
    have pushed : step ⟨.doubleQuote, current⟩ ch = ([], ⟨.doubleQuote, current ++ [ch]⟩) := by
      simp [step, Ne.symm notHere]
    rw [scan_cons, pushed, ih later]
    simp

theorem lead_ne_nil (field : Field) (text : Text) : lead field ++ text ≠ [] := by simp [lead]

/-- Such a parameter comes out as one token. -/
theorem scan_spaced (quotable : Quotable p.2) : start.scan (spaced p) = ([param p.1 p.2], start) := by
  obtain ⟨plain, hash⟩ := quotable
  have whole (text : Text) : flush (lead p.1 ++ text) = [lead p.1 ++ text] := by
    rw [flush, if_neg (lead_ne_nil p.1 text)]
  have led : start.scan (lead p.1) = ([], ⟨.outside, lead p.1⟩) := scan_solid (lead_solid p.1)
  rw [param_eq_lead]
  by_cases needs : needsQuotes p.2 = true
  · have opened : step ⟨.outside, lead p.1⟩ '"' = ([], ⟨.doubleQuote, lead p.1⟩) := rfl
    have closed : step ⟨.doubleQuote, lead p.1 ++ p.2⟩ '"' = ([lead p.1 ++ p.2], start) := by
      rw [← whole]
      rfl
    have blank : start.scan [' '] = ([], start) := rfl
    rw [spaced_quoted needs plain, scan_append, led, scan_cons, opened, scan_append, scan_quoted plain, scan_cons,
      closed, blank]
    rfl
  · have raw : needsQuotes p.2 = false := (Bool.not_eq_true _).mp needs
    have solid := raw_solid raw (mt hash needs)
    have ended : scan ⟨.outside, lead p.1 ++ p.2⟩ [' '] = ([lead p.1 ++ p.2], start) := by
      rw [← whole]
      rfl
    rw [spaced_raw raw, scan_append, led, scan_append, scan_solid solid, ended]
    rfl

theorem scan_params {ps : List (Field × Text)} (quotable : ∀ p ∈ ps, Quotable p.2) :
    start.scan (ps.flatMap spaced) = (ps.map fun p => param p.1 p.2, start) := by
  induction ps with
  | nil => rfl
  | cons p ps ih =>
    rw [List.flatMap_cons, scan_append, scan_spaced (quotable p List.mem_cons_self),
      ih fun q member => quotable q (List.mem_cons_of_mem _ member)]
    rfl

end Scanning

section Losing
variable {mode : Mode} {p : Field × Text}

/-- A raw value keeps no number sign, unless it is inside of other quotes. -/
theorem raw_lost (raw : needsQuotes p.2 = false) (outer : mode.Unquoted) :
    '#' ∉ mode.kept (spaced p) ∧ (mode.after (spaced p)).Unquoted := by
  obtain ⟨double, single, -⟩ := raw_chars raw
  rw [spaced_raw raw]
  apply Mode.kept_hash outer
  · have front : '"' ∉ lead p.1 := notMem_lead (by decide)
    simp [front, double]
  · have front : '\'' ∉ lead p.1 := notMem_lead (by decide)
    simp [front, single]

/-- The number sign of a raw value begins a comment. -/
theorem raw_comments (raw : needsQuotes p.2 = false) (hash : '#' ∈ p.2) :
    Mode.outside.after (spaced p) = .comment := by
  obtain ⟨double, single, blank⟩ := raw_chars raw
  obtain ⟨front, back, cut, fresh⟩ := List.eq_append_cons_of_mem hash
  rw [cut] at double single blank
  have solid : ∀ ch ∈ front, Solid ch := by
    intro ch member
    refine ⟨?_, ?_, ?_, blank ch (List.mem_append_left _ member)⟩
    · rintro rfl
      exact double (List.mem_append_left _ member)
    · rintro rfl
      exact single (List.mem_append_left _ member)
    · rintro rfl
      exact fresh member
  have line : '\n' ∉ back ++ [' '] := by
    intro member
    rcases List.mem_append.mp member with inside | last
    · exact absurd (blank '\n' (List.mem_append_right _ (List.mem_cons_of_mem _ inside))) (by decide)
    · exact absurd (List.mem_singleton.mp last) (by decide)
  have hashed : Mode.outside.next '#' = .comment := rfl
  rw [spaced_raw raw, cut, Mode.after_append, Mode.after_solid (lead_solid p.1), List.append_assoc, Mode.after_append,
    Mode.after_solid solid, List.cons_append, Mode.after_cons, hashed, Mode.after_comment line]

/-- A value with a single quote does not keep it, unless it is read as one
token. -/
theorem single_lost (undoubled : '"' ∉ p.2) (single : '\'' ∈ p.2) (inner : mode ≠ .outside) :
    '\'' ∉ mode.kept (spaced p) ∧ mode.after (spaced p) ≠ .outside := by
  have needs := needsQuotes_of_single single
  have front : '\'' ∉ mode.kept (lead p.1) := Mode.notMem_kept (notMem_lead (by decide))
  have same : mode.after (lead p.1) = mode := Mode.after_solid (lead_solid p.1)
  have opened : mode.next '"' ≠ .doubleQuote := by
    cases mode <;> simp_all [Mode.next]
  have opening : '\'' ∉ mode.kept ['"'] := Mode.notMem_kept (by decide)
  obtain ⟨lost, ending⟩ := Mode.kept_single opened undoubled
  have closing : ((mode.next '"').after p.2).after ['"', ' '] ≠ .outside := by
    generalize (mode.next '"').after p.2 = behind at ending
    cases behind <;> simp_all [Mode.after, Mode.next]
  have last : '\'' ∉ ((mode.next '"').after p.2).kept ['"', ' '] := Mode.notMem_kept (by decide)
  rw [spaced_quoted needs undoubled, ← List.singleton_append]
  simp only [Mode.kept_append, Mode.after_append, same, List.mem_append, not_or]
  exact ⟨⟨front, opening, lost, last⟩, closing⟩

/-- In a comment a value without quotes keeps no number sign, in quotes or not. -/
theorem comment_lost (double : '"' ∉ p.2) (single : '\'' ∉ p.2) : '#' ∉ Mode.comment.kept (spaced p) := by
  by_cases needs : needsQuotes p.2 = true
  · have same : Mode.comment.after (lead p.1) = .comment := Mode.after_solid (lead_solid p.1)
    have front : '#' ∉ Mode.comment.kept (lead p.1) := Mode.notMem_kept (notMem_lead (by decide))
    have lost : '#' ∉ Mode.comment.kept p.2 := (Mode.kept_hash (.inr rfl) double single).1
    have last : '#' ∉ (Mode.comment.after p.2).kept ['"', ' '] := Mode.notMem_kept (by decide)
    have skipped : Mode.comment.kept ('"' :: (p.2 ++ ['"', ' '])) =
        Mode.comment.kept p.2 ++ (Mode.comment.after p.2).kept ['"', ' '] := by
      rw [Mode.kept_cons, ← Mode.kept_append]
      rfl
    rw [spaced_quoted needs double, Mode.kept_append, same, skipped]
    simp only [List.mem_append, not_or]
    exact ⟨front, lost, last⟩
  · exact (raw_lost ((Bool.not_eq_true _).mp needs) (.inr rfl)).1

end Losing
end TinyMachine.Cmdline
