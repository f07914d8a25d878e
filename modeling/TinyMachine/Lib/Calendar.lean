import Mathlib.Data.Prod.Lex

/-! The Gregorian calendar, carried on to every year, and its dates counted by
days. -/
namespace TinyMachine.Lib.Calendar

def Leap (year : Int) : Prop := 4 ∣ year ∧ ¬ 100 ∣ year ∨ 400 ∣ year

instance : DecidablePred Leap := fun year =>
  inferInstanceAs (Decidable (4 ∣ year ∧ ¬ 100 ∣ year ∨ 400 ∣ year))

def yearLength (year : Int) : Nat := if Leap year then 366 else 365

def monthLength (year : Int) (month : Nat) : Nat :=
  if month = 2 then if Leap year then 29 else 28
  else if month ∈ [4, 6, 9, 11] then 30
  else 31

/-- A day of a month that there is. -/
structure Date where
  year : Int
  month : Nat
  day : Nat
  inYear : 1 ≤ month ∧ month ≤ 12
  inMonth : 1 ≤ day ∧ day ≤ monthLength year month
  deriving DecidableEq

/-! ## Counting days -/

/-- The days of the years from 1 on up to this one, less those before year 1. -/
def daysBeforeYear (year : Int) : Int :=
  365 * (year - 1) + (year - 1) / 4 - (year - 1) / 100 + (year - 1) / 400

/-- The days of the first months of a year. -/
def daysOfMonths (year : Int) : Nat → Nat
  | 0 => 0
  | month + 1 => daysOfMonths year month + monthLength year (month + 1)

theorem daysBeforeYear_succ (year : Int) : daysBeforeYear (year + 1) = daysBeforeYear year + yearLength year := by
  unfold daysBeforeYear yearLength
  split
  · rename_i leap
    rw [Leap] at leap
    omega
  · rename_i common
    rw [Leap] at common
    omega

theorem daysBeforeYear_mono {year later : Int} (le : year ≤ later) :
    daysBeforeYear year ≤ daysBeforeYear later := by
  unfold daysBeforeYear
  omega

theorem monthLength_pos (year : Int) (month : Nat) : 0 < monthLength year month := by
  unfold monthLength
  split_ifs <;> omega

theorem monthLength_le (year : Int) (month : Nat) : monthLength year month ≤ 31 := by
  unfold monthLength
  split_ifs <;> omega

/-- The months make up the year. -/
theorem daysOfMonths_twelve (year : Int) : daysOfMonths year 12 = yearLength year := by
  by_cases leap : Leap year <;> simp [daysOfMonths, monthLength, yearLength, leap]

theorem daysOfMonths_mono {year : Int} {month later : Nat} (le : month ≤ later) :
    daysOfMonths year month ≤ daysOfMonths year later := by
  induction le with
  | refl => exact Nat.le_refl _
  | step _ ih => exact Nat.le_trans ih (Nat.le_add_right _ _)

namespace Date

/-- The days since the first of January 1970. -/
def dayNumber (date : Date) : Int :=
  daysBeforeYear date.year - daysBeforeYear 1970 + daysOfMonths date.year (date.month - 1) + date.day - 1

/-- The place of a day in its year, counted from 1. -/
def dayOfYear (date : Date) : Nat := daysOfMonths date.year (date.month - 1) + date.day

theorem dayNumber_eq (date : Date) :
    date.dayNumber = daysBeforeYear date.year - daysBeforeYear 1970 + date.dayOfYear - 1 := by
  rw [dayNumber, dayOfYear]
  omega

theorem dayOfYear_le_months (date : Date) : date.dayOfYear ≤ daysOfMonths date.year date.month := by
  obtain ⟨year, month, day, ⟨positive, -⟩, -, last⟩ := date
  cases month with
  | zero => omega
  | succ month => exact Nat.add_le_add_left last _

theorem dayOfYear_bounds (date : Date) : 1 ≤ date.dayOfYear ∧ date.dayOfYear ≤ yearLength date.year := by
  refine ⟨Nat.le_trans date.inMonth.1 (Nat.le_add_left _ _), ?_⟩
  rw [← daysOfMonths_twelve]
  exact Nat.le_trans date.dayOfYear_le_months (daysOfMonths_mono date.inYear.2)

/-! ## The order of dates -/

/-- Year first, then month, then day. -/
def key (date : Date) : Int ×ₗ Nat ×ₗ Nat := toLex (date.year, toLex (date.month, date.day))

theorem key_injective : Function.Injective key := by
  intro date other same
  cases date
  cases other
  simpa [key] using same

instance : LinearOrder Date := LinearOrder.lift' key key_injective

theorem lt_iff {date other : Date} : date < other ↔ date.year < other.year ∨ date.year = other.year ∧
    (date.month < other.month ∨ date.month = other.month ∧ date.day < other.day) :=
  Prod.Lex.lt_iff.trans (or_congr_right (and_congr_right fun _ => Prod.Lex.lt_iff))

theorem dayNumber_lt {date other : Date} (lt : date < other) : date.dayNumber < other.dayNumber := by
  rw [dayNumber_eq, dayNumber_eq]
  have first := date.dayOfYear_bounds
  have second := other.dayOfYear_bounds
  rcases lt_iff.mp lt with years | ⟨year, rest⟩
  · have next := daysBeforeYear_succ date.year
    have mono := daysBeforeYear_mono (Int.add_one_le_iff.mpr years)
    omega
  · have days : date.dayOfYear < other.dayOfYear := by
      rcases rest with months | ⟨month, day⟩
      · have upTo := date.dayOfYear_le_months
        have mono : daysOfMonths date.year date.month ≤ daysOfMonths other.year (other.month - 1) := by
          rw [year]
          exact daysOfMonths_mono (by omega)
        have later := other.inMonth.1
        rw [dayOfYear] at first second upTo ⊢
        rw [dayOfYear]
        omega
      · rw [dayOfYear, dayOfYear, year, month]
        omega
    rw [year]
    omega

/-- Dates are ordered as they follow one another. -/
theorem dayNumber_lt_iff {date other : Date} : date.dayNumber < other.dayNumber ↔ date < other := by
  refine ⟨fun less => ?_, dayNumber_lt⟩
  rcases lt_trichotomy date other with before | rfl | after
  · exact before
  · exact absurd less (Int.lt_irrefl _)
  · exact absurd (Int.lt_trans less (dayNumber_lt after)) (Int.lt_irrefl _)

theorem dayNumber_injective {date other : Date} (same : date.dayNumber = other.dayNumber) : date = other := by
  rcases lt_trichotomy date other with before | rfl | after
  · exact absurd (same ▸ dayNumber_lt before) (Int.lt_irrefl _)
  · rfl
  · exact absurd (same ▸ dayNumber_lt after) (Int.lt_irrefl _)

/-! ## The next day -/

/-- The date of the day after. -/
def next (date : Date) : Date :=
  if inside : date.day < monthLength date.year date.month then
    { date with
      day := date.day + 1
      inMonth := ⟨Nat.le_add_left _ _, inside⟩ }
  else if another : date.month < 12 then
    { date with
      month := date.month + 1
      day := 1
      inYear := ⟨Nat.le_add_left _ _, another⟩
      inMonth := ⟨Nat.le_refl _, monthLength_pos _ _⟩ }
  else
    { year := date.year + 1
      month := 1
      day := 1
      inYear := ⟨Nat.le_refl _, by decide⟩
      inMonth := ⟨Nat.le_refl _, monthLength_pos _ _⟩ }

/-- Day numbers count the days, one after the other. -/
theorem dayNumber_next (date : Date) : date.next.dayNumber = date.dayNumber + 1 := by
  obtain ⟨year, month, day, ⟨positive, twelve⟩, firstDay, lastDay⟩ := date
  unfold next
  dsimp only
  split
  · simp only [dayNumber]
    omega
  · rename_i last
    have whole : day = monthLength year month := by omega
    obtain ⟨earlier, rfl⟩ : ∃ earlier, month = earlier + 1 := ⟨month - 1, by omega⟩
    split
    · simp only [dayNumber, Nat.add_sub_cancel, daysOfMonths, whole]
      omega
    · have december : earlier = 11 := by omega
      have months : daysOfMonths year 11 + monthLength year 12 = yearLength year := daysOfMonths_twelve year
      have none : daysOfMonths (year + 1) 0 = 0 := rfl
      subst december
      simp only [dayNumber, daysBeforeYear_succ, whole, Nat.sub_self, Nat.reduceAdd, Nat.reduceSub]
      omega

/-- The first of January 1970. -/
def epoch : Date := ⟨1970, 1, 1, by decide, by decide⟩

/-- The day number is how many days after the epoch the date is. -/
theorem eq_iterate_next {date : Date} {days : Nat} (count : date.dayNumber = days) : date = next^[days] epoch := by
  refine dayNumber_injective ?_
  rw [count]
  clear count
  induction days with
  | zero => rfl
  | succ days ih =>
    rw [Function.iterate_succ_apply', dayNumber_next, ← ih]
    rfl

end Date
end TinyMachine.Lib.Calendar
