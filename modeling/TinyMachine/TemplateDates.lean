import TinyMachine.Lib.Calendar
import TinyMachine.Lib.Overflow

/-! The dates that templates are stamped with: years and months are taken off a
count of days, one after the other, until the rest lies within one. -/
namespace TinyMachine.Templates
open Lib Calendar

/-- Remainders go towards zero. -/
def isLeap (year : Int) : Bool :=
  (year.tmod 4 = 0 ∧ year.tmod 100 ≠ 0) ∨ year.tmod 400 = 0

/-- `y += 1` on a signed number of 64 bits. -/
def nextYear (mode : Overflow) (y : Int) : Option Int :=
  mode.fit (y + 1 < 2 ^ 63) ((y + 1).bmod (2 ^ 64))

def yearLoop (mode : Overflow) (y d : Int) : Option (Int × Int) :=
  let daysInYear := if isLeap y then 366 else 365
  if d < daysInYear then some (y, d)
  else (nextYear mode y).bind fun next => yearLoop mode next (d - daysInYear)
termination_by d.toNat
decreasing_by grind

def monthDays (leap : Bool) : List Int :=
  if leap then [31, 29, 31, 30, 31, 30, 31, 31, 30, 31, 30, 31]
  else [31, 28, 31, 30, 31, 30, 31, 31, 30, 31, 30, 31]

def monthLoop : Nat → Int → List Int → Nat × Int
  | m, d, [] => (m, d)
  | m, d, md :: rest => if d < md then (m, d) else monthLoop (m + 1) (d - md) rest

def addOne (mode : Overflow) (n : UInt32) : Option UInt32 :=
  mode.fit (n.toNat + 1 < 2 ^ 32) (n + 1)

/-- `days_to_date`. The count is taken for a signed number. -/
def daysToDate (mode : Overflow) (days : UInt64) : Option (UInt64 × UInt32 × UInt32) := do
  let (y, rest) ← yearLoop mode 1970 (Int.bmod days.toNat (2 ^ 64))
  let (m, d) := monthLoop 0 rest (monthDays (isLeap y))
  return (.ofInt y, ← addOne mode (.ofNat m), ← addOne mode (.ofInt d))

/-! ## The two loops -/

theorem isLeap_iff (year : Int) : isLeap year ↔ Leap year := by
  simp [isLeap, Leap, Int.dvd_iff_tmod_eq_zero]

theorem yearLength_eq (year : Int) : (if isLeap year then 366 else 365 : Int) = yearLength year := by
  by_cases leap : Leap year <;> simp [isLeap_iff, yearLength, leap]

theorem nextYear_fits (mode : Overflow) {y : Int} (start : 0 ≤ y) (fits : y + 1 < 2 ^ 63) :
    nextYear mode y = some (y + 1) := by
  rw [nextYear, Overflow.fit_of_fits fits, Int.bmod_eq_of_le (by omega) (by omega)]

/-- The loop takes off whole years and stops within one. -/
theorem yearLoop_spec (mode : Overflow) {y d : Int} (start : 0 ≤ y) (count : 0 ≤ d) (fits : y + d / 365 < 2 ^ 63) :
    ∃ year rest, yearLoop mode y d = some (year, rest) ∧ 0 ≤ year ∧ year < 2 ^ 63 ∧
      0 ≤ rest ∧ rest < yearLength year ∧ daysBeforeYear year + rest = daysBeforeYear y + d := by
  have long : (365 : Int) ≤ yearLength y := by
    unfold yearLength
    split <;> decide
  rw [yearLoop, yearLength_eq]
  split
  · rename_i within
    exact ⟨y, d, rfl, start, by omega, count, within, rfl⟩
  · rename_i beyond
    have shorter : (d - yearLength y).toNat < d.toNat := by omega
    obtain ⟨year, rest, found, early, late, inside, below, days⟩ :=
      yearLoop_spec mode (y := y + 1) (d := d - yearLength y) (by omega) (by omega) (by omega)
    refine ⟨year, rest, ?_, early, late, inside, below, ?_⟩
    · rw [nextYear_fits mode start (by omega), Option.bind_some, found]
    · rw [days, daysBeforeYear_succ]
      omega
termination_by d.toNat

theorem monthDays_eq (year : Int) :
    monthDays (isLeap year) = (List.range' 0 12).map fun month => (monthLength year (month + 1) : Int) := by
  by_cases leap : Leap year
  · rw [(isLeap_iff year).mpr leap]
    simp [monthDays, monthLength, leap, List.range']
  · rw [Bool.eq_false_iff.mpr fun is => leap ((isLeap_iff year).mp is)]
    simp [monthDays, monthLength, leap, List.range']

/-- The loop takes off whole months and stops within one. -/
theorem monthLoop_spec (year : Int) (m count : Nat) {d : Int} (start : 0 ≤ d)
    (inside : d < daysOfMonths year (m + count) - daysOfMonths year m) :
    ∃ month rest, monthLoop m d ((List.range' m count).map fun month => (monthLength year (month + 1) : Int)) =
        (month, rest) ∧ m ≤ month ∧ month < m + count ∧ 0 ≤ rest ∧ rest < monthLength year (month + 1) ∧
      daysOfMonths year month + rest = daysOfMonths year m + d := by
  induction count generalizing m d with
  | zero => simp only [Nat.add_zero] at inside; omega
  | succ count ih =>
    rw [List.range'_succ, List.map_cons, monthLoop]
    split
    · rename_i within
      exact ⟨m, d, rfl, Nat.le_refl _, by omega, start, within, rfl⟩
    · rename_i beyond
      have next : daysOfMonths year (m + 1) = daysOfMonths year m + monthLength year (m + 1) := rfl
      have ends : m + (count + 1) = m + 1 + count := by omega
      rw [ends] at inside
      obtain ⟨month, rest, found, after, before, above, below, days⟩ :=
        ih (m + 1) (d := d - monthLength year (m + 1)) (by omega) (by omega)
      exact ⟨month, rest, found, by omega, by omega, above, below, by omega⟩

/-! ## Dates -/

/-- A count of days that a signed number of 64 bits holds. -/
abbrev DayCount := {days : UInt64 // days.toNat < 2 ^ 63}

/-- The numbers are those of the date. -/
def Names (numbers : UInt64 × UInt32 × UInt32) (date : Date) : Prop :=
  (numbers.1.toNat : Int) = date.year ∧ numbers.2.1.toNat = date.month ∧ numbers.2.2.toNat = date.day

theorem addOne_fits (mode : Overflow) {n : UInt32} {value : Nat} (is : n.toNat = value) (fits : value + 1 < 2 ^ 32) :
    ∃ sum, addOne mode n = some sum ∧ sum.toNat = value + 1 := by
  refine ⟨n + 1, Overflow.fit_of_fits (by omega), ?_⟩
  rw [UInt32.toNat_add, is]
  exact Nat.mod_eq_of_lt fits

theorem toNat_ofInt32 {n : Int} {value : Nat} (is : n = value) (fits : value < 2 ^ 32) :
    (UInt32.ofInt n).toNat = value := by
  rw [UInt32.ofInt, UInt32.toNat_ofNat']
  omega

theorem toInt_ofInt64 {n : Int} (nonneg : 0 ≤ n) (fits : n < 2 ^ 64) : ((UInt64.ofInt n).toNat : Int) = n := by
  rw [UInt64.ofInt, UInt64.toNat_ofNat']
  omega

theorem daysToDate_spec (mode : Overflow) (days : DayCount) :
    ∃ numbers date, daysToDate mode days.val = some numbers ∧ Names numbers date ∧
      date.dayNumber = days.val.toNat := by
  obtain ⟨days, representable⟩ := days
  have signed : Int.bmod days.toNat (2 ^ 64) = days.toNat := Int.bmod_eq_of_le (by omega) (by omega)
  obtain ⟨year, inYear, years, early, late, start, ends, total⟩ :=
    yearLoop_spec mode (y := 1970) (d := days.toNat) (by omega) (by omega) (by omega)
  have whole : daysOfMonths year (0 + 12) = yearLength year := daysOfMonths_twelve year
  have none : daysOfMonths year 0 = 0 := rfl
  obtain ⟨month, inMonth, months, -, twelve, first, last, sum⟩ :=
    monthLoop_spec year 0 12 start (by omega)
  have short := monthLength_le year (month + 1)
  obtain ⟨day, is⟩ := Int.eq_ofNat_of_zero_le first
  have index : (UInt32.ofNat month).toNat = month := by
    rw [UInt32.toNat_ofNat']
    omega
  obtain ⟨monthNumber, monthAdded, monthIs⟩ := addOne_fits mode index (by omega)
  obtain ⟨dayNumber, dayAdded, dayIs⟩ := addOne_fits mode (toNat_ofInt32 is (by omega)) (by omega)
  refine ⟨(.ofInt year, monthNumber, dayNumber),
    ⟨year, month + 1, day + 1, ⟨by omega, by omega⟩, ⟨by omega, by omega⟩⟩, ?_,
    ⟨toInt_ofInt64 early (by omega), monthIs, dayIs⟩, ?_⟩
  · rw [daysToDate, signed, years]
    simp [monthDays_eq, months, monthAdded, dayAdded]
  · rw [Date.dayNumber]
    simp only [Nat.add_sub_cancel]
    have epoch : daysBeforeYear 1970 = 719162 := by decide
    omega

/-- A day is given the date it has in the calendar, and a later day a later date. -/
theorem days_to_date_inverts_calendar (mode : Overflow) : ∃ dates : DayCount → Date,
    (∀ days, (dates days).dayNumber = days.val.toNat ∧ dates days = Date.next^[days.val.toNat] Date.epoch ∧
      ∃ numbers, daysToDate mode days.val = some numbers ∧ Names numbers (dates days)) ∧
    ∀ days later : DayCount, days.val < later.val → dates days < dates later := by
  choose numbers dates found names count using daysToDate_spec mode
  refine ⟨dates, fun days => ?_, fun days later before => ?_⟩
  · exact ⟨count days, Date.eq_iterate_next (count days), numbers days, found days, names days⟩
  · rw [← Date.dayNumber_lt_iff, count, count]
    exact Int.ofNat_lt.mpr (UInt64.lt_iff_toNat_lt.mp before)

end TinyMachine.Templates
