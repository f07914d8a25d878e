import Mathlib.Data.String.Basic

/-! Numbers with dots between them, and how they compare as texts. -/
namespace TinyMachine.Lib.DottedNumbers

def behind (components : List Nat) : List Char := components.flatMap fun n => '.' :: Nat.toDigits 10 n

def text : List Nat → List Char
  | [] => []
  | n :: rest => Nat.toDigits 10 n ++ behind rest

/-- Of the first components that differ, this one precedes the other as a text;
one that is missing precedes all. -/
def TextBefore : List Nat → List Nat → Prop
  | [], other => other ≠ []
  | _ :: _, [] => False
  | n :: rest, m :: others => if n = m then TextBefore rest others else Nat.toDigits 10 n < Nat.toDigits 10 m

theorem digits_isDigit (n : Nat) : ∀ c ∈ Nat.toDigits 10 n, c.isDigit = true := fun _ member =>
  Nat.isDigit_of_mem_toDigits (by decide) (by decide) member

theorem dot_lt_digit {c : Char} (digit : c.isDigit = true) : '.' < c := by
  have bounds : 48 ≤ c.toNat ∧ c.toNat ≤ 57 := Char.isDigit_iff_toNat.mp digit
  have dot : '.'.toNat = 46 := rfl
  exact Char.lt_def.mpr (UInt32.lt_iff_toNat_lt.mpr (show '.'.toNat < c.toNat by omega))

theorem behind_head (components : List Nat) : ∀ c ∈ (behind components).head?, c = '.' := by
  cases components with
  | nil => exact fun c none => nomatch none
  | cons n rest =>
    rintro c ⟨⟩
    rfl

/-- A text that ends, or goes on with a dot, is in front of a digit. -/
theorem lt_digit {c : Char} {rest others : List Char} (digit : c.isDigit = true) (dot : ∀ d ∈ rest.head?, d = '.') :
    rest < c :: others := by
  cases rest with
  | nil => exact List.nil_lt_cons ..
  | cons d rest =>
    rw [dot d rfl]
    exact List.cons_lt_cons_iff.mpr (.inl (dot_lt_digit digit))

/-- Numbers that differ are compared before what is behind them. -/
theorem digits_lt_iff {one two rest others : List Char} (oneDigits : ∀ c ∈ one, c.isDigit = true)
    (twoDigits : ∀ c ∈ two, c.isDigit = true) (restDot : ∀ c ∈ rest.head?, c = '.')
    (othersDot : ∀ c ∈ others.head?, c = '.') (differ : one ≠ two) : one ++ rest < two ++ others ↔ one < two := by
  induction one generalizing two with
  | nil =>
    cases two with
    | nil => exact absurd rfl differ
    | cons c two =>
      exact iff_of_true (lt_digit (twoDigits c List.mem_cons_self) restDot) (List.nil_lt_cons ..)
  | cons c one ih =>
    cases two with
    | nil =>
      have after := @lt_digit c others (one ++ rest) (oneDigits c List.mem_cons_self) othersDot
      exact iff_of_false (List.lt_asymm after) (List.not_lt_nil _)
    | cons d two =>
      rw [List.cons_append, List.cons_append, List.cons_lt_cons_iff, List.cons_lt_cons_iff]
      refine or_congr_right (and_congr_right fun same => ?_)
      subst same
      exact ih (fun e member => oneDigits e (List.mem_cons_of_mem _ member))
        (fun e member => twoDigits e (List.mem_cons_of_mem _ member)) fun same => differ (congrArg (c :: ·) same)

theorem toDigits_inj {n m : Nat} : Nat.toDigits 10 n = Nat.toDigits 10 m ↔ n = m := by
  constructor
  · intro same
    rw [← @Nat.ofDigitChars_ten_toDigits n, same, Nat.ofDigitChars_ten_toDigits]
  · rintro rfl
    rfl

theorem same_front_lt_iff (front : List Char) {rest others : List Char} :
    front ++ rest < front ++ others ↔ rest < others := by
  induction front with
  | nil => rfl
  | cons c front ih =>
    rw [List.cons_append, List.cons_append, List.cons_lt_cons_iff, ih, or_iff_right (lt_irrefl c), and_iff_right rfl]

theorem front_lt_iff {n m : Nat} {rest others : List Nat} : text (n :: rest) < text (m :: others) ↔
    if n = m then behind rest < behind others else Nat.toDigits 10 n < Nat.toDigits 10 m := by
  rw [text, text]
  split
  · next same =>
    subst same
    exact same_front_lt_iff _
  · next differ =>
    exact digits_lt_iff (digits_isDigit n) (digits_isDigit m) (behind_head rest) (behind_head others)
      (mt toDigits_inj.mp differ)

theorem behind_lt_iff {xs ys : List Nat} : behind xs < behind ys ↔ TextBefore xs ys := by
  induction xs generalizing ys with
  | nil =>
    cases ys with
    | nil => exact iff_of_false (List.not_lt_nil _) (fun other => other rfl)
    | cons m others => exact iff_of_true (List.nil_lt_cons ..) (List.cons_ne_nil m others)
  | cons n rest ih =>
    cases ys with
    | nil => exact iff_of_false (List.not_lt_nil _) id
    | cons m others =>
      have dots : behind (n :: rest) < behind (m :: others) ↔ text (n :: rest) < text (m :: others) :=
        same_front_lt_iff ['.']
      rw [dots, front_lt_iff, ih, TextBefore]

/-- The texts compare by their first components that differ. -/
theorem text_lt_iff {xs ys : List Nat} : text xs < text ys ↔ TextBefore xs ys := by
  cases xs with
  | nil =>
    cases ys with
    | nil => exact iff_of_false (List.not_lt_nil _) (fun other => other rfl)
    | cons m others =>
      refine iff_of_true ?_ (List.cons_ne_nil m others)
      obtain ⟨c, digits, start⟩ := List.exists_cons_of_ne_nil (@Nat.toDigits_ne_nil m 10)
      rw [text, text, start]
      exact List.nil_lt_cons ..
  | cons n rest =>
    cases ys with
    | nil => exact iff_of_false (List.not_lt_nil _) id
    | cons m others => rw [front_lt_iff, behind_lt_iff, TextBefore]

theorem textBefore_trichotomy (xs ys : List Nat) : TextBefore xs ys ∨ xs = ys ∨ TextBefore ys xs := by
  induction xs generalizing ys with
  | nil =>
    cases ys with
    | nil => exact .inr (.inl rfl)
    | cons m others => exact .inl (List.cons_ne_nil m others)
  | cons n rest ih =>
    cases ys with
    | nil => exact .inr (.inr (List.cons_ne_nil n rest))
    | cons m others =>
      rw [TextBefore, TextBefore]
      by_cases same : n = m
      · subst same
        rw [if_pos rfl, if_pos rfl]
        exact (ih others).imp_right (Or.imp_left (congrArg (n :: ·)))
      · rw [if_neg same, if_neg (Ne.symm same)]
        rcases lt_trichotomy (Nat.toDigits 10 n) (Nat.toDigits 10 m) with less | equal | more
        · exact .inl less
        · exact absurd (toDigits_inj.mp equal) same
        · exact .inr (.inr more)

theorem text_inj {xs ys : List Nat} : text xs = text ys ↔ xs = ys := by
  constructor
  · intro same
    rcases textBefore_trichotomy xs ys with before | equal | behind
    · exact absurd same (ne_of_lt (text_lt_iff.mpr before))
    · exact equal
    · exact absurd same.symm (ne_of_lt (text_lt_iff.mpr behind))
  · rintro rfl
    rfl

end TinyMachine.Lib.DottedNumbers
