import LinkedViews.Calendar.Date

/-!
Every day number has one date: the date of a number is a day of its month, and its own number is
the one it was made from. An era of four centuries is cut into years at the days on which they
begin, and a year into months at the days on which those begin. The years that can be written are
those of an interval of day numbers.
-/

namespace LinkedViews.Date

/-- The days before a year of an era, with years that begin in March. -/
def yearStart (year : Nat) : Nat := 365 * year + year / 4 - year / 100

/-- The days of an era without its leap days, as far as a division by 365 can see them. -/
def evenDay (day : Nat) : Nat := day - day / 1460 + day / 36524 - day / 146096

def yearOfEra (day : Nat) : Nat := evenDay day / 365

theorem evenDay_succ {day : Nat} (inside : day + 1 < 146097) : evenDay day ≤ evenDay (day + 1) := by
  unfold evenDay
  by_cases last : day + 1 = 146096
  · obtain rfl : day = 146095 := by omega
    decide
  · have early : day / 146096 = 0 := by omega
    have early' : (day + 1) / 146096 = 0 := by omega
    omega

theorem evenDay_mono {day later : Nat} (order : day ≤ later) (inside : later < 146097) :
    evenDay day ≤ evenDay later := by
  induction order with
  | refl => exact Nat.le_refl _
  | step _ ih => exact Nat.le_trans (ih (Nat.lt_of_succ_lt inside)) (evenDay_succ inside)

theorem yearOfEra_mono {d e : Nat} (order : d ≤ e) (inside : e < 146097) :
    yearOfEra d ≤ yearOfEra e :=
  Nat.div_le_div_right (evenDay_mono order inside)

theorem yearOfEra_lt {day : Nat} (inside : day < 146097) : yearOfEra day < 400 := by
  have last : yearOfEra 146096 = 399 := by decide
  have order := yearOfEra_mono (d := day) (e := 146096) (by omega) (by decide)
  omega

theorem yearStart_lt {year : Nat} (bound : year < 400) : yearStart year < 146097 := by
  unfold yearStart
  omega

theorem yearOfEra_first {year : Nat} (bound : year < 400) : yearOfEra (yearStart year) = year := by
  have inside := yearStart_lt bound
  unfold yearOfEra evenDay
  have fourth : yearStart year / 1460 = year / 4 := by
    unfold yearStart
    omega
  have century : yearStart year / 36524 = year / 100 := by
    unfold yearStart
    omega
  have era : yearStart year / 146096 = 0 := by
    unfold yearStart
    omega
  rw [fourth, century, era]
  unfold yearStart
  omega

/-- On the last day of a century its leap day has not been left out yet. -/
theorem yearOfEra_last {year : Nat} (bound : year < 399) :
    yearOfEra (yearStart (year + 1) - 1) = year := by
  unfold yearOfEra evenDay
  have fourth : (yearStart (year + 1) - 1) / 1460 = (year + 1) / 4 := by
    unfold yearStart
    omega
  have century : (yearStart (year + 1) - 1) / 36524 ≤ (year + 1) / 100 ∧
      (year + 1) / 100 ≤ (yearStart (year + 1) - 1) / 36524 + 1 := by
    unfold yearStart
    omega
  have era : (yearStart (year + 1) - 1) / 146096 = 0 := by
    unfold yearStart
    omega
  generalize (yearStart (year + 1) - 1) / 36524 = centuries at century ⊢
  rw [fourth, era]
  unfold yearStart
  omega

theorem yearStart_le {day : Nat} (inside : day < 146097) : yearStart (yearOfEra day) ≤ day := by
  have below := yearOfEra_lt inside
  rcases Nat.lt_or_ge day (yearStart (yearOfEra day)) with early | late
  case inr => exact late
  cases year : yearOfEra day with
  | zero => simp [yearStart]
  | succ before =>
      -- Not after the last day of the year before, the day would be of that year or an earlier one.
      have own := yearOfEra_last (show before < 399 by omega)
      have order := yearOfEra_mono (d := day) (e := yearStart (before + 1) - 1)
        (by rw [year] at early; omega)
        (by have := yearStart_lt (show before + 1 < 400 by omega); omega)
      omega

theorem lt_yearStart {day : Nat} (inside : day < 146097) (early : yearOfEra day < 399) :
    day < yearStart (yearOfEra day + 1) := by
  rcases Nat.lt_or_ge day (yearStart (yearOfEra day + 1)) with sooner | late
  case inl => exact sooner
  have next : yearOfEra day + 1 < 400 := by omega
  have own := yearOfEra_first next
  have order := yearOfEra_mono (d := yearStart (yearOfEra day + 1)) (e := day) (by omega) inside
  omega

/-- A year has at most 366 days, and that many only where the next one has a leap day. -/
theorem dayOfYear_le {day : Nat} (inside : day < 146097) :
    day - yearStart (yearOfEra day) ≤ 365 ∧
      (day - yearStart (yearOfEra day) = 365 → (yearOfEra day + 1) % 4 = 0 ∧
        ((yearOfEra day + 1) % 100 ≠ 0 ∨ (yearOfEra day + 1) % 400 = 0)) := by
  have start := yearStart_le inside
  have below := yearOfEra_lt inside
  by_cases early : yearOfEra day < 399
  · have next := lt_yearStart inside early
    generalize yearOfEra day = year at start next early ⊢
    have fourth : (year + 1) / 4 = year / 4 ∧ (year + 1) % 4 ≠ 0 ∨
        (year + 1) / 4 = year / 4 + 1 ∧ (year + 1) % 4 = 0 := by omega
    have hundredth : (year + 1) / 100 = year / 100 ∧ (year + 1) % 100 ≠ 0 ∨
        (year + 1) / 100 = year / 100 + 1 ∧ (year + 1) % 100 = 0 := by omega
    unfold yearStart at start next ⊢
    rcases fourth with ⟨same, _⟩ | ⟨more, multiple⟩ <;>
      rcases hundredth with ⟨same', _⟩ | ⟨more', multiple'⟩ <;> omega
  · have last : yearOfEra day = 399 := by omega
    rw [last] at start ⊢
    have first : yearStart 399 = 145731 := by decide
    omega

/-! ## Months -/

/-- The month and the day in it of a day of a year, with March as month zero. -/
theorem monthOfYear {day : Nat} (inside : day ≤ 365) :
    (5 * day + 2) / 153 ≤ 11 ∧ (153 * ((5 * day + 2) / 153) + 2) / 5 ≤ day := by
  omega

/-- A day of a year lies in its month; in February only the last day of a leap year is the
twenty-ninth. -/
theorem dayOfMonth_le {day : Nat} (year : Int) (inside : day ≤ 365)
    (leap : day = 365 → isLeapYear year = true) :
    day - (153 * ((5 * day + 2) / 153) + 2) / 5 + 1 ≤ monthLength year
      (if (5 * day + 2) / 153 < 10 then (5 * day + 2) / 153 + 3 else (5 * day + 2) / 153 - 9) := by
  have lengths : ∀ month ≤ 10, (153 * (month + 1) + 2) / 5 - (153 * month + 2) / 5 ≤
      monthLength 1 (if month < 10 then month + 3 else month - 9) := by decide
  have common : day ≤ 364 → day - (153 * ((5 * day + 2) / 153) + 2) / 5 + 1 ≤ monthLength 1
      (if (5 * day + 2) / 153 < 10 then (5 * day + 2) / 153 + 3 else (5 * day + 2) / 153 - 9) := by
    intro _
    obtain ⟨bound, first⟩ := monthOfYear inside
    have next : day < (153 * ((5 * day + 2) / 153 + 1) + 2) / 5 := by omega
    generalize (5 * day + 2) / 153 = month at bound first next ⊢
    -- Only the last month ends before the next one would begin.
    rcases Nat.lt_or_ge month 11 with earlier | last
    · have length := lengths month (by omega)
      omega
    · obtain rfl : month = 11 := by omega
      have february : monthLength 1 (if 11 < 10 then 11 + 3 else 11 - 9) = 28 := by decide
      omega
  have longer (month : Nat) : monthLength 1 month ≤ monthLength year month := by
    by_cases february : month = 2
    · subst february
      have common : monthLength 1 2 = 28 := by decide
      rw [common, monthLength, if_pos rfl]
      split <;> decide
    · simp [monthLength, february]
  by_cases last : day = 365
  · subst last
    have length : monthLength year 2 = 29 := by simp [monthLength, leap rfl]
    exact Nat.le_of_eq length.symm
  · exact Nat.le_trans (common (by omega)) (longer _)

theorem monthLength_le (year : Int) (month : Nat) : monthLength year month ≤ 31 := by
  unfold monthLength
  split
  · split <;> decide
  · split <;> decide

theorem le_of_isValid {date : Date} (valid : date.isValid = true) :
    date.month ≤ 12 ∧ date.day ≤ 31 := by
  have length := monthLength_le date.year date.month
  simp only [isValid, Bool.and_eq_true, decide_eq_true_eq] at valid
  omega

/-! ## Days -/

/-- The date that is so many days into a year of an era. -/
def ofDayOfYear (era : Int) (year dayOfYear : Nat) : Date :=
  let month := (5 * dayOfYear + 2) / 153
  let day := dayOfYear - (153 * month + 2) / 5 + 1
  if month < 10 then ⟨era * 400 + year, month + 3, day⟩
  else ⟨era * 400 + year + 1, month - 9, day⟩

/-- A day number counts an era, the years of it and the days of one of those. -/
theorem ofDayNumber_eq (number : Int) :
    ∃ (era : Int) (day : Nat), day < 146097 ∧ number = era * 146097 + day - 719468 ∧
      ofDayNumber number =
        ofDayOfYear era (yearOfEra day) (day - yearStart (yearOfEra day)) := by
  refine ⟨Int.fdiv (number + 719468) 146097, (Int.fmod (number + 719468) 146097).toNat, ?_, ?_, rfl⟩
  · rw [Int.fmod_eq_emod_of_nonneg _ (by decide)]
    omega
  · rw [Int.fmod_eq_emod_of_nonneg _ (by decide), Int.fdiv_eq_ediv_of_nonneg _ (by decide)]
    omega

theorem dayNumber_ofDayOfYear {era : Int} {year dayOfYear : Nat} (short : dayOfYear ≤ 365)
    (below : year < 400) :
    (ofDayOfYear era year dayOfYear).dayNumber =
      era * 146097 + (yearStart year + dayOfYear : Nat) - 719468 := by
  have month := monthOfYear short
  have length : yearStart year + year / 100 = 365 * year + year / 4 := by
    unfold yearStart
    omega
  unfold ofDayOfYear
  generalize (5 * dayOfYear + 2) / 153 = months at month
  generalize yearStart year = first at length
  have leaps (divisor : Int) (positive : 0 < divisor) :
      Int.fdiv (era * 400 + year) divisor = (era * 400 + year) / divisor :=
    Int.fdiv_eq_ediv_of_nonneg _ (Int.le_of_lt positive)
  by_cases early : months < 10
  · have late : ¬ months + 3 ≤ 2 := by omega
    simp only [dayNumber, if_pos early, if_neg late, Nat.add_sub_cancel]
    rw [leaps 4 (by decide), leaps 100 (by decide), leaps 400 (by decide)]
    omega
  · have spring : months - 9 ≤ 2 := by omega
    have again : months - 9 + 9 = months := by omega
    simp only [dayNumber, if_neg early, if_pos spring, again, Nat.add_sub_cancel,
      Int.add_sub_cancel]
    rw [leaps 4 (by decide), leaps 100 (by decide), leaps 400 (by decide)]
    omega

theorem dayNumber_ofDayNumber (number : Int) : (ofDayNumber number).dayNumber = number := by
  obtain ⟨era, day, inside, whole, parts⟩ := ofDayNumber_eq number
  have start := yearStart_le inside
  rw [parts, dayNumber_ofDayOfYear (dayOfYear_le inside).1 (yearOfEra_lt inside), whole]
  omega

theorem isValid_ofDayOfYear {era : Int} {year dayOfYear : Nat} (short : dayOfYear ≤ 365)
    (leap : dayOfYear = 365 → isLeapYear (era * 400 + year + 1) = true) :
    (ofDayOfYear era year dayOfYear).isValid = inRange (ofDayOfYear era year dayOfYear).year := by
  have month := monthOfYear short
  unfold ofDayOfYear
  by_cases early : (5 * dayOfYear + 2) / 153 < 10
  · have notLast : dayOfYear ≠ 365 := by
      rintro rfl
      exact absurd early (by decide)
    have length := dayOfMonth_le (era * 400 + year) short (absurd · notLast)
    simp only [if_pos early] at length ⊢
    have upper : (5 * dayOfYear + 2) / 153 + 3 ≤ 12 := by omega
    simp [isValid, length, upper]
  · have length := dayOfMonth_le _ short leap
    simp only [if_neg early] at length ⊢
    have lower : 1 ≤ (5 * dayOfYear + 2) / 153 - 9 := by omega
    have upper : (5 * dayOfYear + 2) / 153 - 9 ≤ 12 := by omega
    simp only [isValid, length, lower, upper, decide_true, Bool.and_true, Nat.le_add_left]

/-- The date of a day number is a day of the calendar wherever its year can be written. -/
theorem isValid_ofDayNumber (number : Int) :
    (ofDayNumber number).isValid = inRange (ofDayNumber number).year := by
  obtain ⟨era, day, inside, _, parts⟩ := ofDayNumber_eq number
  obtain ⟨short, leap⟩ := dayOfYear_le inside
  rw [parts]
  refine isValid_ofDayOfYear short fun last => ?_
  obtain ⟨fourth, century⟩ := leap last
  simp only [isLeapYear, Bool.and_eq_true, Bool.or_eq_true, decide_eq_true_eq]
  omega

theorem year_ofDayOfYear {era : Int} {year dayOfYear : Nat} :
    (ofDayOfYear era year dayOfYear).year =
      era * 400 + year + if dayOfYear < 306 then 0 else 1 := by
  unfold ofDayOfYear
  by_cases early : dayOfYear < 306
  · have month : (5 * dayOfYear + 2) / 153 < 10 := by omega
    simp only [if_pos early, if_pos month, Int.add_zero]
  · have month : ¬ (5 * dayOfYear + 2) / 153 < 10 := by omega
    simp only [if_neg early, if_neg month]

/-- The days whose dates can be written reach from the first of the first year to the last of the
last one. -/
theorem inRange_ofDayNumber (number : Int) :
    inRange (ofDayNumber number).year = true ↔ -96465292 ≤ number ∧ number ≤ 95026236 := by
  obtain ⟨era, day, inside, whole, parts⟩ := ofDayNumber_eq number
  have start := yearStart_le inside
  have below := yearOfEra_lt inside
  have short := (dayOfYear_le inside).1
  have length : yearStart (yearOfEra day) + yearOfEra day / 100 =
      365 * yearOfEra day + yearOfEra day / 4 := by
    unfold yearStart
    omega
  rw [parts, year_ofDayOfYear, inRange, Bool.and_eq_true, decide_eq_true_eq, decide_eq_true_eq]
  generalize yearStart (yearOfEra day) = first at *
  generalize yearOfEra day = year at *
  -- The first year lies in one era and the last in another; in between all years can be written.
  have eras : era < -656 ∨ era = -656 ∨ (-656 < era ∧ era < 655) ∨ era = 655 ∨ 655 < era := by omega
  rcases eras with early | rfl | between | rfl | late
  · split <;> omega
  · rcases Nat.lt_trichotomy year 256 with before | rfl | after <;> split <;> omega
  · split <;> omega
  · rcases Nat.lt_trichotomy year 142 with before | rfl | after <;> split <;> omega
  · split <;> omega

end LinkedViews.Date
