import TinyMachine.Cmdline

/-! What the tokenizer keeps of a text. Which characters it keeps depends on
what it is inside of, not on the tokens so far, and is followed here by itself;
the tokens hold what is kept and nothing else. -/
namespace TinyMachine.Cmdline
open Lib

namespace Mode

def next (mode : Mode) (ch : Char) : Mode :=
  match mode with
  | comment => if ch = '\n' then outside else comment
  | doubleQuote => if ch = '"' then outside else doubleQuote
  | singleQuote => if ch = '\'' then outside else singleQuote
  | outside =>
    if ch = '"' then doubleQuote else if ch = '\'' then singleQuote else if ch = '#' then comment else outside

/-- The character goes into a token. -/
def keeps (mode : Mode) (ch : Char) : Bool :=
  match mode with
  | comment => false
  | doubleQuote => ch ≠ '"'
  | singleQuote => ch ≠ '\''
  | outside => ch ≠ '"' ∧ ch ≠ '\'' ∧ ch ≠ '#' ∧ isWhitespace ch = false

/-- Where the tokenizer is behind a text. -/
def after (mode : Mode) (text : Text) : Mode := text.foldl next mode

/-- What goes into tokens of a text. -/
def kept (mode : Mode) : Text → Text
  | [] => []
  | ch :: rest => if mode.keeps ch then ch :: (mode.next ch).kept rest else (mode.next ch).kept rest

variable {mode : Mode} {text front back : Text} {ch : Char}

@[simp] theorem after_nil : mode.after [] = mode := rfl
@[simp] theorem after_cons : mode.after (ch :: text) = (mode.next ch).after text := rfl
@[simp] theorem after_append : mode.after (front ++ back) = (mode.after front).after back := List.foldl_append

@[simp] theorem kept_nil : mode.kept [] = [] := rfl

theorem kept_cons : mode.kept (ch :: text) = (if mode.keeps ch then [ch] else []) ++ (mode.next ch).kept text := by
  rw [kept]
  split <;> rfl

@[simp] theorem kept_append : mode.kept (front ++ back) = mode.kept front ++ (mode.after front).kept back := by
  induction front generalizing mode with
  | nil => rfl
  | cons ch front ih => rw [List.cons_append, kept_cons, kept_cons, ih, after_cons, List.append_assoc]

theorem kept_sublist : (mode.kept text).Sublist text := by
  induction text generalizing mode with
  | nil => exact List.Sublist.refl _
  | cons ch text ih =>
    rw [kept]
    split
    · exact ih.cons_cons ch
    · exact ih.cons ch

theorem count_kept_le (ch : Char) (text : Text) : (mode.kept text).count ch ≤ text.count ch :=
  kept_sublist.count_le ch

theorem notMem_kept (absent : ch ∉ text) : ch ∉ mode.kept text := fun member => absent (kept_sublist.subset member)

/-- Where no single quote is lost, none is opened, and no double quote is kept. -/
theorem kept_of_quotes_kept (elsewhere : mode ≠ singleQuote) (whole : (mode.kept text).count '\'' = text.count '\'') :
    '"' ∉ mode.kept text := by
  induction text generalizing mode with
  | nil => exact List.not_mem_nil
  | cons ch text ih =>
    have fewer : ((mode.next ch).kept text).count '\'' ≤ text.count '\'' := count_kept_le _ _
    rw [kept_cons] at whole ⊢
    by_cases quote : ch = '\''
    · subst quote
      have inside : mode = doubleQuote := by
        cases mode with
        | doubleQuote => rfl
        | singleQuote => exact absurd rfl elsewhere
        | outside => simp [keeps] at whole; omega
        | comment => simp [keeps] at whole; omega
      subst inside
      simp only [keeps, next] at whole ⊢
      have elsewhere : doubleQuote ≠ singleQuote := by decide
      simpa using ih elsewhere (by simpa using whole)
    · have onward : mode.next ch ≠ singleQuote := by
        cases mode <;> simp only [next] <;> grind
      have same : ((mode.next ch).kept text).count '\'' = text.count '\'' := by
        have here : (if mode.keeps ch then [ch] else []).count '\'' = 0 := by
          split <;> simp [quote]
        rw [List.count_append, here, List.count_cons_of_ne quote] at whole
        omega
      have rest := ih onward same
      have here : '"' ∉ (if mode.keeps ch then [ch] else []) := by
        cases mode <;> simp only [keeps] <;> grind
      exact fun member => (List.mem_append.mp member).elim here rest

/-- A text without double quotes keeps no single quote, unless it begins inside
of double quotes. -/
theorem kept_single (outer : mode ≠ doubleQuote) (plain : '"' ∉ text) :
    '\'' ∉ mode.kept text ∧ mode.after text ≠ doubleQuote := by
  induction text generalizing mode with
  | nil => exact ⟨List.not_mem_nil, outer⟩
  | cons ch text ih =>
    obtain ⟨notHere, later⟩ := not_or.mp (mt List.mem_cons.mpr plain)
    have onward : mode.next ch ≠ doubleQuote := by
      cases mode <;> simp only [next] <;> grind
    obtain ⟨rest, ending⟩ := ih onward later
    refine ⟨?_, ending⟩
    have here : '\'' ∉ (if mode.keeps ch then [ch] else []) := by
      cases mode <;> simp only [keeps] <;> grind
    rw [kept_cons]
    exact fun member => (List.mem_append.mp member).elim here rest

/-- The tokenizer is inside of no quotes. -/
def Unquoted (mode : Mode) : Prop := mode = outside ∨ mode = comment

/-- A text without quotes keeps no number sign, unless it begins inside of
quotes. -/
theorem kept_hash (outer : mode.Unquoted) (double : '"' ∉ text) (single : '\'' ∉ text) :
    '#' ∉ mode.kept text ∧ (mode.after text).Unquoted := by
  induction text generalizing mode with
  | nil => exact ⟨List.not_mem_nil, outer⟩
  | cons ch text ih =>
    obtain ⟨notDouble, laterDouble⟩ := not_or.mp (mt List.mem_cons.mpr double)
    obtain ⟨notSingle, laterSingle⟩ := not_or.mp (mt List.mem_cons.mpr single)
    have onward : (mode.next ch).Unquoted := by
      rcases outer with rfl | rfl <;> simp only [next, Unquoted] <;> grind
    obtain ⟨rest, ending⟩ := ih onward laterDouble laterSingle
    refine ⟨?_, ending⟩
    have here : '#' ∉ (if mode.keeps ch then [ch] else []) := by
      rcases outer with rfl | rfl <;> simp only [keeps] <;> grind
    rw [kept_cons]
    exact fun member => (List.mem_append.mp member).elim here rest

/-- A comment goes on to the end of the line. -/
theorem after_comment (line : '\n' ∉ text) : comment.after text = comment := by
  induction text with
  | nil => rfl
  | cons ch text ih =>
    obtain ⟨notHere, later⟩ := not_or.mp (mt List.mem_cons.mpr line)
    have onward : comment.next ch = comment := by simp [next, Ne.symm notHere]
    rw [after_cons, onward, ih later]

end Mode

/-- A character that means nothing to the tokenizer. -/
def Solid (ch : Char) : Prop := ch ≠ '"' ∧ ch ≠ '\'' ∧ ch ≠ '#' ∧ isWhitespace ch = false

instance solidDecidable (ch : Char) : Decidable (Solid ch) := inferInstanceAs (Decidable (_ ∧ _))

namespace Mode
variable {mode : Mode} {text : Text}

theorem after_solid (solid : ∀ ch ∈ text, Solid ch) : mode.after text = mode := by
  induction text with
  | nil => rfl
  | cons ch text ih =>
    have here := solid ch List.mem_cons_self
    have newline : ch ≠ '\n' := by
      rintro rfl
      exact absurd here.2.2.2 (by decide)
    have onward : mode.next ch = mode := by
      cases mode <;> simp [next, here.1, here.2.1, here.2.2.1, newline]
    rw [after_cons, onward, ih fun other member => solid other (List.mem_cons_of_mem _ member)]

end Mode

namespace Tokenizer
variable {t : Tokenizer} {text front back current token : Text} {ch : Char}

theorem mem_flush : token ∈ flush current ↔ token = current ∧ current ≠ [] := by
  by_cases empty : current = [] <;> simp [flush, empty]

@[simp] theorem flatten_flush : (flush current).flatten = current := by
  by_cases empty : current = [] <;> simp [flush, empty]

theorem scan_cons : t.scan (ch :: text) =
    ((t.step ch).1 ++ ((t.step ch).2.scan text).1, ((t.step ch).2.scan text).2) := rfl

theorem scan_append : t.scan (front ++ back) =
    ((t.scan front).1 ++ ((t.scan front).2.scan back).1, ((t.scan front).2.scan back).2) := by
  induction front generalizing t with
  | nil => rfl
  | cons ch front ih => rw [List.cons_append, scan_cons, ih, scan_cons, List.append_assoc]

theorem tokens_cons : t.tokens (ch :: text) = (t.step ch).1 ++ (t.step ch).2.tokens text := by
  rw [tokens, scan_cons, tokens, List.append_assoc]

theorem tokens_append : t.tokens (front ++ back) = (t.scan front).1 ++ (t.scan front).2.tokens back := by
  rw [tokens, scan_append, tokens, List.append_assoc]

theorem step_mode : (t.step ch).2.mode = t.mode.next ch := by
  obtain ⟨mode, current⟩ := t
  cases mode <;> simp only [step, Mode.next, start] <;> split_ifs <;> rfl

theorem step_kept : (t.step ch).1.flatten ++ (t.step ch).2.current =
    t.current ++ if t.mode.keeps ch then [ch] else [] := by
  obtain ⟨mode, current⟩ := t
  cases mode <;> simp only [step, Mode.keeps, start] <;> split_ifs <;> simp_all

theorem scan_mode : (t.scan text).2.mode = t.mode.after text := by
  induction text generalizing t with
  | nil => rfl
  | cons ch text ih => rw [scan_cons, ih, step_mode, Mode.after_cons]

/-- The pushed tokens and the one that has begun are what is kept. -/
theorem scan_kept : (t.scan text).1.flatten ++ (t.scan text).2.current = t.current ++ t.mode.kept text := by
  induction text generalizing t with
  | nil => simp [scan]
  | cons ch text ih =>
    rw [scan_cons, List.flatten_append, List.append_assoc, ih, step_mode, ← List.append_assoc, step_kept,
      Mode.kept_cons, List.append_assoc]

theorem flatten_tokens : (t.tokens text).flatten = t.current ++ t.mode.kept text := by
  rw [tokens, List.flatten_append, flatten_flush, scan_kept]

/-- What is kept of a text is in no token if it was neither there nor before. -/
theorem notMem_tokens (before : ch ∉ t.current) (absent : ch ∉ t.mode.kept text) (member : token ∈ t.tokens text) :
    ch ∉ token := by
  intro inside
  have kept : ch ∈ (t.tokens text).flatten := List.mem_flatten_of_mem member inside
  rw [flatten_tokens] at kept
  exact (List.mem_append.mp kept).elim before absent

/-- A token has one quoted part at most. -/
def Unmixed (text : Text) : Prop := '"' ∉ text ∨ '\'' ∉ text

/-- The token that has begun has no quote that would end what it is inside of. -/
def Fits (t : Tokenizer) : Prop :=
  match t.mode with
  | .doubleQuote => '"' ∉ t.current
  | .singleQuote => '\'' ∉ t.current
  | _ => '"' ∉ t.current ∧ '\'' ∉ t.current

theorem Fits.unmixed (fits : t.Fits) : Unmixed t.current := by
  obtain ⟨mode, current⟩ := t
  cases mode with
  | outside => exact .inl fits.1
  | comment => exact .inl fits.1
  | doubleQuote => exact .inl fits
  | singleQuote => exact .inr fits

theorem Fits.step (fits : t.Fits) (ch : Char) :
    (∀ token ∈ (t.step ch).1, Unmixed token) ∧ (t.step ch).2.Fits := by
  have flushed : ∀ token ∈ flush t.current, Unmixed token := fun token member =>
    (mem_flush.mp member).1 ▸ fits.unmixed
  have fresh : start.Fits := ⟨List.not_mem_nil, List.not_mem_nil⟩
  obtain ⟨mode, current⟩ := t
  cases mode with
  | comment =>
    have same : (step ⟨.comment, current⟩ ch).2.Fits := by
      simp only [Tokenizer.step]
      split
      · exact fits
      · exact fits
    exact ⟨by simp [Tokenizer.step], same⟩
  | doubleQuote =>
    by_cases quote : ch = '"'
    · simp only [Tokenizer.step, quote, if_true]
      exact ⟨flushed, fresh⟩
    · simp only [Tokenizer.step, quote, if_false]
      exact ⟨by simp, by simpa [Fits, Ne.symm quote] using fits⟩
  | singleQuote =>
    by_cases quote : ch = '\''
    · simp only [Tokenizer.step, quote, if_true]
      exact ⟨flushed, fresh⟩
    · simp only [Tokenizer.step, quote, if_false]
      exact ⟨by simp, by simpa [Fits, Ne.symm quote] using fits⟩
  | outside =>
    simp only [Tokenizer.step]
    split_ifs with double single hash blank
    · exact ⟨by simp, fits.1⟩
    · exact ⟨by simp, fits.2⟩
    · exact ⟨flushed, fresh⟩
    · exact ⟨flushed, fresh⟩
    · exact ⟨by simp, by simpa [Fits, Ne.symm double, Ne.symm single] using fits⟩

theorem tokens_unmixed (fits : t.Fits) : ∀ token ∈ t.tokens text, Unmixed token := by
  induction text generalizing t with
  | nil =>
    intro token member
    exact (mem_flush.mp member).1 ▸ fits.unmixed
  | cons ch text ih =>
    obtain ⟨pushed, onward⟩ := fits.step ch
    intro token member
    rw [tokens_cons] at member
    exact (List.mem_append.mp member).elim (pushed token) (ih onward token)

end Tokenizer
end TinyMachine.Cmdline
