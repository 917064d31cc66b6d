import LinkedViews.Proofs.Calendar.Date
import Mathlib

/-!
Day numbers as counts of days. From the beginning of year zero, a date has behind it all days of the
years before its own, all days of the months before its own, and the days before it in its month.
-/

namespace LinkedViews.Date

variable {date : Date} {year : Int} {number : Int}

def yearLength (year : Int) : Nat := if isLeapYear year then 366 else 365

/-- The days from the beginning of year zero up to a date of that year or a later one. -/
def elapsedDays (date : Date) : Nat :=
  ((List.range date.year.toNat).map fun year : Nat => yearLength year).sum +
    ((List.range (date.month - 1)).map fun month => monthLength date.year (month + 1)).sum +
    (date.day - 1)

/-- The day that day numbers are counted from. -/
def origin : Date := ⟨1970, 1, 1⟩

theorem isLeapYear_natCast (n : Nat) :
    isLeapYear n = true ↔ n % 4 = 0 ∧ (n % 100 ≠ 0 ∨ n % 400 = 0) := by
  simp only [isLeapYear, Bool.and_eq_true, Bool.or_eq_true, decide_eq_true_eq]
  omega

/-- Every fourth year has a leap day, but of the last years of centuries only every fourth. -/
theorem sum_yearLength (n : Nat) :
    ((List.range n).map fun year : Nat => yearLength year).sum + (n + 99) / 100 =
      365 * n + (n + 3) / 4 + (n + 399) / 400 := by
  induction n with
  | zero => rfl
  | succ n ih =>
      have fourth : (n + 1 + 3) / 4 = (n + 3) / 4 + if n % 4 = 0 then 1 else 0 := by
        split <;> omega
      have century : (n + 1 + 99) / 100 = (n + 99) / 100 + if n % 100 = 0 then 1 else 0 := by
        split <;> omega
      have era : (n + 1 + 399) / 400 = (n + 399) / 400 + if n % 400 = 0 then 1 else 0 := by
        split <;> omega
      have length : yearLength n + (if n % 100 = 0 then 1 else 0) =
          365 + (if n % 4 = 0 then 1 else 0) + if n % 400 = 0 then 1 else 0 := by
        simp only [yearLength, isLeapYear_natCast]
        split_ifs <;> omega
      rw [List.range_succ, List.map_append, List.sum_append, List.map_singleton, List.sum_singleton,
        fourth, century, era]
      omega

/-- The months after February run through a fixed pattern of lengths. -/
theorem sum_monthLength {month : Nat} (lower : 1 ≤ month) (upper : month ≤ 12) (year : Int) :
    ((List.range (month - 1)).map fun month => monthLength year (month + 1)).sum =
      if month ≤ 2 then 31 * (month - 1)
      else 31 + (monthLength year 2 + (153 * (month - 3) + 2) / 5) := by
  interval_cases month <;> simp [List.range_succ, monthLength]

theorem elapsedDays_eq (n month day : Nat) (lower : 1 ≤ month) (upper : month ≤ 12) :
    elapsedDays ⟨n, month, day⟩ + (n + 99) / 100 =
      365 * n + (n + 3) / 4 + (n + 399) / 400 +
        (if month ≤ 2 then 31 * (month - 1)
          else 31 + (monthLength n 2 + (153 * (month - 3) + 2) / 5)) + (day - 1) := by
  have years := sum_yearLength n
  rw [elapsedDays, Int.toNat_natCast, sum_monthLength lower upper]
  dsimp only
  omega

theorem elapsedDays_origin : origin.elapsedDays = 719528 := by
  have days := elapsedDays_eq 1970 1 1 (by decide) (by decide)
  exact Nat.add_right_cancel (days.trans (by decide))

/-- The number of a day is the count of the days since the first of January 1970. -/
theorem dayNumber_eq (valid : date.isValid = true) (positive : 0 ≤ date.year) :
    date.dayNumber = (date.elapsedDays : Int) - origin.elapsedDays := by
  obtain ⟨year, month, day⟩ := date
  simp only [isValid, Bool.and_eq_true, decide_eq_true_eq] at valid
  obtain ⟨n, rfl⟩ := Int.eq_ofNat_of_zero_le positive
  obtain ⟨⟨⟨⟨_, lower⟩, upper⟩, first⟩, _⟩ := valid
  have days := elapsedDays_eq n month day lower upper
  have leap := isLeapYear_natCast n
  have february : monthLength n 2 = if isLeapYear n then 29 else 28 := if_pos rfl
  have floor (value divisor : Int) (positive : 0 < divisor) :
      Int.fdiv value divisor = value / divisor :=
    Int.fdiv_eq_ediv_of_nonneg _ (Int.le_of_lt positive)
  rw [elapsedDays_origin, dayNumber, floor _ 4 (by decide), floor _ 100 (by decide),
    floor _ 400 (by decide)]
  by_cases early : month ≤ 2
  · simp only [if_pos early] at days ⊢
    omega
  · simp only [if_neg early, february] at days ⊢
    split at days <;> rename_i own <;>
      simp only [own, true_iff, false_iff, Bool.false_eq_true] at leap <;> omega

end LinkedViews.Date
