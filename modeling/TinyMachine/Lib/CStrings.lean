import Mathlib.Data.List.Infix

/-! Searching texts the way C does, with the rest of the text from where
something is found, and quoted texts in what was searched. -/
namespace TinyMachine.Lib.CString
variable {α : Type}

/-! ## Texts cut at their quotation marks -/

section Pieces
variable {quote : α} {word piece : List α} {pieces : List (List α)}

/-- The pieces, with a quotation mark in front of each. -/
def joined (quote : α) (pieces : List (List α)) : List α := pieces.flatMap (quote :: ·)

@[simp] theorem joined_nil : joined quote [] = [] := rfl

@[simp] theorem joined_cons : joined quote (piece :: pieces) = quote :: (piece ++ joined quote pieces) := rfl

theorem joined_append {more : List (List α)} :
    joined quote (pieces ++ more) = joined quote pieces ++ joined quote more := List.flatMap_append

theorem prefix_quoted {rest : List α} (clean : quote ∉ word) (whole : quote ∉ piece) :
    word ++ [quote] <+: piece ++ quote :: rest ↔ word = piece := by
  constructor
  · rintro ⟨after, same⟩
    rw [List.append_assoc] at same
    induction word generalizing piece with
    | nil =>
      cases piece with
      | nil => rfl
      | cons a piece =>
        have first := (List.cons.inj same).1
        exact absurd (first ▸ List.mem_cons_self) whole
    | cons b word ih =>
      cases piece with
      | nil =>
        have first := (List.cons.inj same).1
        exact absurd (first ▸ List.mem_cons_self) clean
      | cons a piece =>
        obtain ⟨first, rest⟩ := List.cons.inj same
        rw [first, ih (fun inside => clean (List.mem_cons_of_mem _ inside))
          (fun inside => whole (List.mem_cons_of_mem _ inside)) rest]
  · rintro rfl
    exact ⟨rest, by rw [List.append_assoc]; rfl⟩

end Pieces

/-! ## Searching -/

variable [DecidableEq α]

def strchr (text : List α) (c : α) : Option (List α) :=
  match text with
  | [] => none
  | a :: rest => if a = c then some (a :: rest) else strchr rest c

def strstr (text word : List α) : Option (List α) :=
  match text with
  | [] => if word = [] then some [] else none
  | a :: rest => if word <+: a :: rest then some (a :: rest) else strstr rest word

/-- The text between the next two quotation marks behind the next mark behind a
word, with what follows it from the closing one on. -/
def quotedBehind (quote mark : α) (word text : List α) : Option (List α × List α) := do
  let found ← strstr text word
  let marked ← strchr found mark
  let start ← strchr marked quote
  let stop ← strchr start.tail quote
  return (start.tail.take (start.tail.length - stop.length), stop)

/-! ## Searching a part of a text -/

section Parts
variable {text more rest word : List α} {c quote mark : α}

theorem strchr_suffix (found : strchr text c = some rest) : ∃ before, text = before ++ rest ∧ c ∉ before := by
  induction text with
  | nil => cases found
  | cons a text ih =>
    unfold strchr at found
    split at found
    · cases found
      exact ⟨[], rfl, List.not_mem_nil⟩
    · rename_i other
      obtain ⟨before, rfl, clean⟩ := ih found
      refine ⟨a :: before, rfl, ?_⟩
      rintro (_ | ⟨_, inside⟩)
      · exact other rfl
      · exact clean inside

theorem strchr_head (found : strchr text c = some rest) : ∃ after, rest = c :: after := by
  induction text with
  | nil => cases found
  | cons a text ih =>
    unfold strchr at found
    split at found
    · rename_i same
      cases found
      exact ⟨text, by rw [same]⟩
    · exact ih found

theorem strchr_skip {before : List α} (clean : c ∉ before) : strchr (before ++ text) c = strchr text c := by
  induction before with
  | nil => rfl
  | cons a before ih =>
    obtain ⟨other, clean⟩ := List.ne_and_not_mem_of_not_mem_cons clean
    rw [List.cons_append, strchr, if_neg (Ne.symm other), ih clean]

theorem strchr_of_notMem (clean : c ∉ text) : strchr text c = none := by
  have skipped : strchr (text ++ []) c = strchr [] c := strchr_skip clean
  rwa [List.append_nil] at skipped

theorem strchr_append (found : strchr text c = some rest) : strchr (text ++ more) c = some (rest ++ more) := by
  obtain ⟨before, rfl, clean⟩ := strchr_suffix found
  obtain ⟨after, rfl⟩ := strchr_head found
  rw [List.append_assoc, strchr_skip clean, List.cons_append, strchr, if_pos rfl]

/-- What is not found is not there. -/
theorem strchr_none (missing : strchr text c = none) : c ∉ text := by
  induction text with
  | nil => exact List.not_mem_nil
  | cons a text ih =>
    unfold strchr at missing
    split at missing
    · cases missing
    · rename_i other
      rintro (_ | ⟨_, inside⟩)
      · exact other rfl
      · exact ih missing inside

/-- What is found before the added text is found without it. -/
theorem strchr_of_append (found : strchr (text ++ more) c = some rest) (before : more.length < rest.length) :
    ∃ inside, rest = inside ++ more ∧ strchr text c = some inside := by
  cases here : strchr text c with
  | some inside =>
    have both : strchr (text ++ more) c = some (inside ++ more) := strchr_append here
    rw [found] at both
    exact ⟨inside, Option.some.inj both, rfl⟩
  | none =>
    rw [strchr_skip (strchr_none here)] at found
    obtain ⟨skipped, rfl, -⟩ := strchr_suffix found
    rw [List.length_append] at before
    omega

theorem strstr_suffix (found : strstr text word = some rest) : word <+: rest ∧ ∃ before, text = before ++ rest := by
  induction text with
  | nil =>
    unfold strstr at found
    split at found
    · rename_i empty
      cases found
      exact ⟨empty ▸ List.prefix_rfl, [], rfl⟩
    · cases found
  | cons a text ih =>
    unfold strstr at found
    split at found
    · rename_i here
      cases found
      exact ⟨here, [], rfl⟩
    · obtain ⟨starts, before, rfl⟩ := ih found
      exact ⟨starts, a :: before, rfl⟩

theorem strstr_append (found : strstr text word = some rest) (some : word ≠ []) :
    strstr (text ++ more) word = .some (rest ++ more) := by
  induction text with
  | nil => simp [strstr, some] at found
  | cons a text ih =>
    unfold strstr at found
    rw [List.cons_append, strstr]
    split at found
    · rename_i here
      cases found
      have starts : word <+: a :: (text ++ more) := here.trans (List.prefix_append (a :: text) more)
      rw [if_pos starts, List.cons_append]
    · rename_i other
      obtain ⟨starts, before, same⟩ := strstr_suffix found
      have fits : ¬ word <+: a :: (text ++ more) := by
        rintro ⟨after, longer⟩
        refine other ?_
        have within : word.length ≤ (a :: text).length := by
          have one := starts.length_le
          have two := congrArg List.length same
          simp only [List.length_append, List.length_cons] at two ⊢
          omega
        exact List.prefix_of_prefix_length_le ⟨after, longer⟩ (List.prefix_append (a :: text) more) within
      rw [if_neg fits, ih found]

theorem strstr_of_append (found : strstr (text ++ more) word = some rest) (some : word ≠ [])
    (before : more.length + word.length ≤ rest.length) :
    ∃ inside, rest = inside ++ more ∧ strstr text word = .some inside := by
  induction text with
  | nil =>
    obtain ⟨-, skipped, same⟩ := strstr_suffix found
    have length := congrArg List.length same
    have positive := List.length_pos_iff.mpr some
    rw [List.nil_append, List.length_append] at length
    omega
  | cons a text ih =>
    rw [List.cons_append, strstr] at found
    split at found
    · rename_i here
      cases found
      have within : word.length ≤ (a :: text).length := by
        simp only [List.length_cons, List.length_append] at before ⊢
        omega
      refine ⟨a :: text, rfl, ?_⟩
      rw [strstr, if_pos (List.prefix_of_prefix_length_le here (List.prefix_append (a :: text) more) within)]
    · rename_i other
      obtain ⟨inside, rfl, reached⟩ := ih found
      refine ⟨inside, rfl, ?_⟩
      rw [strstr, if_neg fun here => other (here.trans (List.prefix_append (a :: text) more)), reached]

variable {value stop : List α}

theorem quotedBehind_eq_some : quotedBehind quote mark word text = some (value, stop) ↔
    ∃ found marked start, strstr text word = some found ∧ strchr found mark = some marked ∧
      strchr marked quote = some (quote :: start) ∧ strchr start quote = some stop ∧ start = value ++ stop := by
  simp only [quotedBehind, Option.bind_eq_bind, Option.bind_eq_some_iff, Option.pure_def, Option.some.injEq,
    Prod.mk.injEq]
  constructor
  · rintro ⟨found, there, marked, mark, start, opening, _, closing, rfl, rfl⟩
    obtain ⟨after, rfl⟩ := strchr_head opening
    obtain ⟨before, same, -⟩ := strchr_suffix closing
    refine ⟨found, marked, after, there, mark, opening, closing, ?_⟩
    rw [List.tail_cons] at same ⊢
    rw [same]
    simp
  · rintro ⟨found, marked, start, there, mark, opening, closing, rfl⟩
    refine ⟨found, there, marked, mark, _, opening, stop, closing, ?_, rfl⟩
    simp

/-- Added text does not change what was found. -/
theorem quotedBehind_append (found : quotedBehind quote mark word text = some (value, stop)) (some : word ≠ []) :
    quotedBehind quote mark word (text ++ more) = .some (value, stop ++ more) := by
  obtain ⟨there, marked, start, word, mark, opening, closing, rfl⟩ := quotedBehind_eq_some.mp found
  refine quotedBehind_eq_some.mpr ⟨_, _, _, strstr_append word some, strchr_append mark, strchr_append opening,
    strchr_append closing, List.append_assoc value stop more⟩

/-- What was found before the added text was found without it. -/
theorem quotedBehind_of_append (found : quotedBehind quote mark word (text ++ more) = some (value, stop))
    (some : word ≠ []) (unmarked : mark ∉ word) (before : more.length < stop.length) :
    ∃ inside, stop = inside ++ more ∧ quotedBehind quote mark word text = .some (value, inside) := by
  obtain ⟨there, marked, start, first, second, opening, closing, same⟩ := quotedBehind_eq_some.mp found
  obtain ⟨rest, words⟩ := (strstr_suffix first).1
  have past : strchr rest mark = .some marked := by rw [← strchr_skip unmarked, words, second]
  obtain ⟨one, rests, -⟩ := strchr_suffix past
  obtain ⟨two, marks, -⟩ := strchr_suffix opening
  have starting : start.length = value.length + stop.length := by rw [same, List.length_append]
  have marking : marked.length = two.length + start.length + 1 := by
    rw [marks, List.length_append, List.length_cons, Nat.add_assoc]
  have finding : there.length = word.length + (one.length + marked.length) := by
    rw [← words, rests, List.length_append, List.length_append]
  obtain ⟨there', rfl, inFirst⟩ := strstr_of_append first some (by omega)
  obtain ⟨marked', rfl, inSecond⟩ := strchr_of_append second (by omega)
  obtain ⟨start', split, inOpening⟩ := strchr_of_append opening (by rw [List.length_cons]; omega)
  obtain ⟨inner, rfl⟩ := strchr_head inOpening
  obtain rfl : start = inner ++ more := (List.cons.inj split).2
  obtain ⟨stop', rfl, inClosing⟩ := strchr_of_append closing before
  refine ⟨stop', rfl, quotedBehind_eq_some.mpr ⟨_, _, _, inFirst, inSecond, inOpening, inClosing, ?_⟩⟩
  exact List.append_cancel_right (same.trans (List.append_assoc _ _ _).symm)

theorem quotedBehind_stop (found : quotedBehind quote mark word text = some (value, stop)) :
    ∃ after, stop = quote :: after := by
  obtain ⟨there, marked, start, first, second, opening, closing, same⟩ := quotedBehind_eq_some.mp found
  exact strchr_head closing

/-- The first part of a text shows what is complete in it. -/
theorem quotedBehind_take {n : Nat} (found : quotedBehind quote mark word text = some (value, stop))
    (some : word ≠ []) (unmarked : mark ∉ word) :
    (quotedBehind quote mark word (text.take n)).map Prod.fst =
      if text.length < n + stop.length then .some value else none := by
  have parts : text.take n ++ text.drop n = text := List.take_append_drop n text
  have behind : (text.drop n).length = text.length - n := List.length_drop
  have cut := found
  rw [← parts] at cut
  split
  · rename_i complete
    obtain ⟨after, closed⟩ := quotedBehind_stop found
    have later : (text.drop n).length < stop.length := by
      rw [behind]
      rw [closed, List.length_cons] at complete ⊢
      omega
    obtain ⟨inside, -, here⟩ := quotedBehind_of_append cut some unmarked later
    rw [here]
    rfl
  · rename_i outside
    cases here : quotedBehind quote mark word (text.take n) with
    | none => rfl
    | some read =>
      obtain ⟨value', inside⟩ := read
      obtain ⟨after, rfl⟩ := quotedBehind_stop here
      have whole : quotedBehind quote mark word (text.take n ++ text.drop n) =
          .some (value', quote :: after ++ text.drop n) := quotedBehind_append here some
      rw [cut] at whole
      have lengths := congrArg List.length (Prod.mk.inj (Option.some.inj whole)).2
      rw [List.length_append, behind, List.length_cons] at lengths
      omega

theorem quotedBehind_take_none {n : Nat} (missing : quotedBehind quote mark word text = none) (some : word ≠ []) :
    quotedBehind quote mark word (text.take n) = none := by
  cases here : quotedBehind quote mark word (text.take n) with
  | none => rfl
  | some read =>
    have whole : quotedBehind quote mark word (text.take n ++ text.drop n) =
        .some (read.1, read.2 ++ text.drop n) := quotedBehind_append here some
    rw [List.take_append_drop, missing] at whole
    cases whole

end Parts

/-! ## Searching the pieces -/

section Searching
variable {quote mark : α} {word piece : List α} {pieces : List (List α)}

/-- The pieces from the first on that is the word and has a quotation mark on
either side. -/
def seek (word : List α) : List (List α) → Option (List (List α))
  | [] => none
  | piece :: pieces => if piece = word ∧ pieces ≠ [] then some (piece :: pieces) else seek word pieces

/-- The pieces behind the first with the mark. -/
def behind (mark : α) : List (List α) → List (List α)
  | [] => []
  | piece :: pieces => if mark ∈ piece then pieces else behind mark pieces

theorem strstr_skip {before text rest : List α} (clean : quote ∉ before) :
    strstr (before ++ text) (quote :: rest) = strstr text (quote :: rest) := by
  induction before with
  | nil => rfl
  | cons a before ih =>
    obtain ⟨other, clean⟩ := List.ne_and_not_mem_of_not_mem_cons clean
    have apart : ¬ quote :: rest <+: a :: (before ++ text) := fun starts => other (List.cons_prefix_cons.mp starts).1
    rw [List.cons_append, strstr, if_neg apart, ih clean]

theorem strstr_joined (clean : quote ∉ word) (whole : ∀ piece ∈ pieces, quote ∉ piece) :
    strstr (joined quote pieces) (quote :: (word ++ [quote])) = (seek word pieces).map (joined quote) := by
  induction pieces with
  | nil => simp [strstr, seek]
  | cons piece pieces ih =>
    obtain ⟨first, others⟩ := List.forall_mem_cons.mp whole
    have later := (strstr_skip first).trans (ih others)
    simp only [joined_cons, strstr, seek, later, List.cons_prefix_cons, true_and]
    cases pieces with
    | nil =>
      have short : ¬ word ++ [quote] <+: piece := fun starts => first (starts.subset (by simp))
      simp [short, seek]
    | cons next pieces =>
      simp only [joined_cons, prefix_quoted clean first]
      by_cases same : piece = word
      · simp [same]
      · simp [same, Ne.symm same]

theorem strchr_joined (apart : mark ≠ quote) (whole : ∀ piece ∈ pieces, quote ∉ piece) :
    (strchr (joined quote pieces) mark).bind (strchr · quote) =
      if behind mark pieces = [] then none else some (joined quote (behind mark pieces)) := by
  induction pieces with
  | nil => rfl
  | cons piece pieces ih =>
    obtain ⟨first, others⟩ := List.forall_mem_cons.mp whole
    rw [joined_cons, strchr, if_neg apart.symm, behind]
    by_cases here : mark ∈ piece
    · rw [if_pos here]
      cases found : strchr piece mark with
      | none => exact absurd here (strchr_none found)
      | some rest =>
        obtain ⟨before, split, -⟩ := strchr_suffix found
        have clean : quote ∉ rest := fun inside => first (split ▸ List.mem_append_right _ inside)
        rw [strchr_append found, Option.bind_some, strchr_skip clean]
        cases pieces with
        | nil => rfl
        | cons next pieces => rw [joined_cons, strchr, if_pos rfl, if_neg (List.cons_ne_nil _ _)]
    · rw [strchr_skip here, ih others, if_neg here]

/-- What is found behind the mark behind a word, piece by piece. -/
def quotedPiece (quote mark : α) (word : List α) (pieces : List (List α)) : Option (List α × List α) :=
  (seek word pieces).bind fun found =>
    match behind mark found with
    | value :: next :: rest => some (value, joined quote (next :: rest))
    | _ => none

theorem seek_append {before after : List (List α)} (absent : word ∉ before) :
    seek word (before ++ after) = seek word after := by
  induction before with
  | nil => rfl
  | cons piece before ih =>
    obtain ⟨other, absent⟩ := List.ne_and_not_mem_of_not_mem_cons absent
    rw [List.cons_append, seek, if_neg fun here => other here.1.symm, ih absent]

theorem seek_here (some : pieces ≠ []) : seek word (word :: pieces) = .some (word :: pieces) := if_pos ⟨rfl, some⟩

theorem behind_here (here : mark ∈ piece) : behind mark (piece :: pieces) = pieces := if_pos here

theorem behind_skip (clean : mark ∉ piece) : behind mark (piece :: pieces) = behind mark pieces := if_neg clean

/-- A word that is met too early does no harm where the mark does not follow
before the right one. -/
theorem behind_of_seek {early : List (List α)} (some : pieces ≠ []) (unmarked : mark ∉ word)
    (clean : ∀ piece ∈ early, mark ∉ piece) :
    (seek word (early ++ word :: pieces)).map (behind mark) = .some (behind mark pieces) := by
  have skip : behind mark (early ++ word :: pieces) = behind mark pieces := by
    clear some
    induction early with
    | nil => exact behind_skip unmarked
    | cons piece early ih =>
      obtain ⟨first, rest⟩ := List.forall_mem_cons.mp clean
      rw [List.cons_append, behind_skip first, ih rest]
  induction early with
  | nil => rw [List.nil_append, seek_here some, Option.map_some, behind_skip unmarked]
  | cons piece early ih =>
    obtain ⟨first, rest⟩ := List.forall_mem_cons.mp clean
    rw [List.cons_append, behind_skip first] at skip
    by_cases same : piece = word
    · have more : early ++ word :: pieces ≠ [] := by simp
      rw [List.cons_append, seek, if_pos ⟨same, more⟩, Option.map_some, behind_skip first, skip]
    · rw [List.cons_append, seek, if_neg fun here => same here.1, ih rest skip]

theorem seek_suffix {found : List (List α)} (sought : seek word pieces = some found) : found <:+ pieces := by
  induction pieces with
  | nil => cases sought
  | cons piece pieces ih =>
    unfold seek at sought
    split at sought
    · cases sought
      exact List.suffix_rfl
    · exact (ih sought).trans (List.suffix_cons piece pieces)

theorem behind_suffix : behind mark pieces <:+ pieces := by
  induction pieces with
  | nil => exact List.suffix_rfl
  | cons piece pieces ih =>
    unfold behind
    split
    · exact List.suffix_cons piece pieces
    · exact ih.trans (List.suffix_cons piece pieces)

theorem quotedPiece_some {value next : List α} {rest : List (List α)}
    (sought : (seek word pieces).map (behind mark) = some (value :: next :: rest)) :
    quotedPiece quote mark word pieces = some (value, joined quote (next :: rest)) := by
  obtain ⟨found, there, reached⟩ := Option.map_eq_some_iff.mp sought
  rw [quotedPiece, there, Option.bind_some, reached]

theorem quotedPiece_none (sought : (seek word pieces).map (behind mark) = some []) :
    quotedPiece quote mark word pieces = none := by
  obtain ⟨found, there, reached⟩ := Option.map_eq_some_iff.mp sought
  rw [quotedPiece, there, Option.bind_some, reached]

theorem quotedBehind_joined {before : List α} (apart : mark ≠ quote) (clean : quote ∉ word) (start : quote ∉ before)
    (whole : ∀ piece ∈ pieces, quote ∉ piece) :
    quotedBehind quote mark (quote :: (word ++ [quote])) (before ++ joined quote pieces) =
      quotedPiece quote mark word pieces := by
  unfold quotedBehind quotedPiece
  rw [strstr_skip start, strstr_joined clean whole]
  cases sought : seek word pieces with
  | none => rfl
  | some found =>
    have within := seek_suffix sought
    have wholes : ∀ piece ∈ found, quote ∉ piece := fun piece member => whole piece (within.subset member)
    have wholes' : ∀ piece ∈ behind mark found, quote ∉ piece := fun piece member =>
      wholes piece (behind_suffix.subset member)
    simp only [Option.map_some, Option.bind_eq_bind, Option.bind_some]
    rw [← Option.bind_assoc, strchr_joined apart wholes]
    cases reached : behind mark found with
    | nil => rfl
    | cons value rest =>
      have first : quote ∉ value := wholes' value (by rw [reached]; exact List.mem_cons_self)
      rw [if_neg (List.cons_ne_nil _ _), Option.bind_some, joined_cons, List.tail_cons, strchr_skip first]
      cases rest with
      | nil => rfl
      | cons next rest =>
        rw [joined_cons, strchr, if_pos rfl]
        simp

end Searching
end TinyMachine.Lib.CString
