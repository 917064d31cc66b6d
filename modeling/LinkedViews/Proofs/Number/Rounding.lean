import Mathlib
import LinkedViews.Number.Binary64

/-!
Rounding to the nearest magnitude. The magnitudes around a quotient are apart by a power of two, and
a rounded quotient is a whole number of those steps; so magnitudes themselves are kept, whole numbers
are rounded to whole numbers, and a power of two is never crossed.
-/

namespace LinkedViews.Binary64

variable {a b k m n s : Nat}

theorem unitsPerOne_eq : unitsPerOne = 2 ^ 1074 := by
  unfold unitsPerOne
  exact Nat.pow_eq

theorem unitsPerOne_pos : 0 < unitsPerOne := by
  rw [unitsPerOne_eq]
  exact Nat.two_pow_pos 1074

/-! ## Whole numbers -/

theorem nearestWhole_lt (below : 2 * (a % b) < b) : nearestWhole a b = a / b := by
  rw [nearestWhole, Nat.compare_eq_lt.mpr below]

theorem nearestWhole_gt (above : b < 2 * (a % b)) : nearestWhole a b = a / b + 1 := by
  rw [nearestWhole, Nat.compare_eq_gt.mpr above]

theorem nearestWhole_eq (tie : 2 * (a % b) = b) : nearestWhole a b = a / b + a / b % 2 := by
  rw [nearestWhole, Nat.compare_eq_eq.mpr tie]

theorem nearestWhole_bounds (a b : Nat) :
    a / b ≤ nearestWhole a b ∧ nearestWhole a b ≤ a / b + 1 := by
  rcases Nat.lt_trichotomy (2 * (a % b)) b with below | tie | above
  · rw [nearestWhole_lt below]
    omega
  · rw [nearestWhole_eq tie]
    omega
  · rw [nearestWhole_gt above]
    omega

theorem nearestWhole_mul (positive : 0 < k) : nearestWhole (a * k) (b * k) = nearestWhole a b := by
  have quotient : a * k / (b * k) = a / b := Nat.mul_div_mul_right a b positive
  have remainder : 2 * (a * k % (b * k)) = 2 * (a % b) * k := by
    rw [Nat.mul_mod_mul_right, Nat.mul_assoc]
  rcases Nat.lt_trichotomy (2 * (a % b)) b with below | tie | above
  · rw [nearestWhole_lt below, nearestWhole_lt, quotient]
    rw [remainder]
    exact Nat.mul_lt_mul_of_pos_right below positive
  · rw [nearestWhole_eq tie, nearestWhole_eq, quotient]
    rw [remainder, tie]
  · rw [nearestWhole_gt above, nearestWhole_gt, quotient]
    rw [remainder]
    exact Nat.mul_lt_mul_of_pos_right above positive

theorem nearestWhole_mul_self (positive : 0 < b) : nearestWhole (a * b) b = a := by
  rw [nearestWhole_lt, Nat.mul_div_cancel a positive]
  rw [Nat.mul_mod_left]
  exact positive

/-! ## Steps -/

/-- The binary length of the step between the magnitudes around a quotient of units. -/
def stepOf (a b : Nat) : Nat := (a / b).log2 - 52

theorem nearestMagnitude_eq (a b : Nat) :
    nearestMagnitude a b = min infiniteMagnitude
      (stepOf a b * fractionCount + nearestWhole a (b * 2 ^ stepOf a b)) := rfl

theorem nearestMagnitude_mul (positive : 0 < k) :
    nearestMagnitude (a * k) (b * k) = nearestMagnitude a b := by
  have step : stepOf (a * k) (b * k) = stepOf a b := by
    rw [stepOf, stepOf, Nat.mul_div_mul_right a b positive]
  have order : b * k * 2 ^ stepOf a b = b * 2 ^ stepOf a b * k := Nat.mul_right_comm ..
  rw [nearestMagnitude_eq, nearestMagnitude_eq, step, order, nearestWhole_mul positive]

/-- The units of a number of steps, written with one bit before its fraction or with none. -/
theorem unitsOf_steps (above : s = 0 ∨ fractionCount ≤ n) (below : n ≤ 2 * fractionCount) :
    unitsOf (s * fractionCount + n) = n * 2 ^ s := by
  have positive : 0 < fractionCount := by decide
  unfold unitsOf
  by_cases small : n < fractionCount
  · obtain rfl : s = 0 := by omega
    simp [Nat.div_eq_of_lt small, Nat.mod_eq_of_lt small]
  · by_cases last : n = 2 * fractionCount
    -- Rounded up to the end of its exponent, it is the first magnitude of the next one.
    · have shape : s * fractionCount + n = fractionCount * (s + 2) := by
        rw [last, Nat.mul_comm s, ← Nat.mul_comm fractionCount 2, ← Nat.mul_add]
      have exponent : fractionCount * (s + 2) / fractionCount = s + 2 :=
        Nat.mul_div_cancel_left _ positive
      rw [shape, exponent, Nat.mul_mod_right, last]
      rw [if_neg (Nat.succ_ne_zero _), Nat.add_zero]
      change fractionCount * 2 ^ (s + 1) = _
      rw [Nat.pow_succ, Nat.mul_comm 2, Nat.mul_assoc, Nat.mul_comm 2]
    · obtain ⟨fraction, rfl⟩ : ∃ fraction, n = fractionCount + fraction :=
        ⟨n - fractionCount, by omega⟩
      have short : fraction < fractionCount := by omega
      have shape : s * fractionCount + (fractionCount + fraction) =
          fraction + fractionCount * (s + 1) := by
        rw [Nat.mul_add, Nat.mul_comm s]
        omega
      rw [shape, Nat.add_mul_div_left _ _ positive, Nat.add_mul_mod_self_left,
        Nat.div_eq_of_lt short, Nat.mod_eq_of_lt short]
      simp only [Nat.zero_add, Nat.add_eq_zero_iff, Nat.one_ne_zero, and_false, if_false,
        Nat.add_sub_cancel]
      rfl

/-- A quotient has fewer steps than two times the fractions, and above the least numbers no fewer
than the fractions. -/
theorem steps_bounds (a b : Nat) :
    a / (b * 2 ^ stepOf a b) < 2 * fractionCount ∧
      (stepOf a b = 0 ∨ fractionCount ≤ a / (b * 2 ^ stepOf a b)) := by
  have size : 2 * fractionCount = 2 ^ 53 := by decide
  have half : fractionCount = 2 ^ 52 := by decide
  rw [← Nat.div_div_eq_div_mul, size, half]
  have above := Nat.lt_log2_self (n := a / b)
  have positive : 0 < 2 ^ stepOf a b := Nat.two_pow_pos _
  constructor
  · rw [Nat.div_lt_iff_lt_mul positive, ← Nat.pow_add]
    exact Nat.lt_of_lt_of_le above (Nat.pow_le_pow_right (by decide) (by unfold stepOf; omega))
  · by_cases flat : stepOf a b = 0
    · exact .inl flat
    · refine .inr ?_
      rw [Nat.le_div_iff_mul_le positive, ← Nat.pow_add]
      have large : a / b ≠ 0 := by
        intro zero
        simp [stepOf, zero] at flat
      refine Nat.le_trans (Nat.pow_le_pow_right (by decide) ?_) (Nat.log2_self_le large)
      unfold stepOf at flat ⊢
      omega

/-- A finite rounded quotient is the nearest whole number of steps. -/
theorem unitsOf_nearestMagnitude (finite : nearestMagnitude a b < infiniteMagnitude) :
    unitsOf (nearestMagnitude a b) = nearestWhole a (b * 2 ^ stepOf a b) * 2 ^ stepOf a b := by
  obtain ⟨below, above⟩ := steps_bounds a b
  obtain ⟨lower, upper⟩ := nearestWhole_bounds a (b * 2 ^ stepOf a b)
  rw [nearestMagnitude_eq] at finite ⊢
  rw [Nat.min_eq_right (by omega)]
  refine unitsOf_steps ?_ (by omega)
  rcases above with flat | above
  · exact .inl flat
  · exact .inr (Nat.le_trans above lower)

/-! ## Magnitudes are kept -/

theorem log2_steps {steps : Nat} (above : fractionCount ≤ steps)
    (below : steps < 2 * fractionCount) :
    (steps * 2 ^ s).log2 = 52 + s := by
  have size : 2 * fractionCount = 2 ^ 53 := by decide
  have half : fractionCount = 2 ^ 52 := by decide
  rw [half] at above
  rw [size] at below
  have positive := Nat.two_pow_pos s
  rw [Nat.log2_eq_iff (Nat.ne_of_gt (Nat.mul_pos (by omega) positive))]
  constructor
  · rw [Nat.pow_add]
    exact Nat.mul_le_mul_right _ above
  · rw [Nat.add_right_comm, Nat.pow_add]
    exact Nat.mul_lt_mul_of_pos_right below positive

/-- The units of a magnitude are a whole number of their own steps, which the magnitude counts. -/
theorem unitsOf_eq_steps (m : Nat) :
    ∃ steps, unitsOf m = steps * 2 ^ ((unitsOf m).log2 - 52) ∧
      m = ((unitsOf m).log2 - 52) * fractionCount + steps := by
  have fractions : 0 < fractionCount := by decide
  have fraction := Nat.mod_lt m fractions
  have whole := Nat.div_add_mod m fractionCount
  by_cases flat : m / fractionCount = 0
  · have units : unitsOf m = m % fractionCount := by
      unfold unitsOf
      exact if_pos flat
    have short : (m % fractionCount).log2 - 52 = 0 := by
      have bound : (m % fractionCount).log2 < 52 ∨ m % fractionCount = 0 := by
        by_cases zero : m % fractionCount = 0
        · exact .inr zero
        · exact .inl ((Nat.log2_lt zero).mpr fraction)
      rcases bound with bound | zero
      · omega
      · simp [zero]
    rw [units, short]
    refine ⟨m % fractionCount, by simp, ?_⟩
    rw [flat] at whole
    omega
  · have units : unitsOf m =
        (fractionCount + m % fractionCount) * 2 ^ (m / fractionCount - 1) := by
      unfold unitsOf
      exact if_neg flat
    have length : (unitsOf m).log2 - 52 = m / fractionCount - 1 := by
      rw [units, log2_steps (Nat.le_add_right ..) (by omega)]
      omega
    rw [length]
    refine ⟨fractionCount + m % fractionCount, units, ?_⟩
    obtain ⟨exponent, shape⟩ := Nat.exists_eq_succ_of_ne_zero flat
    rw [shape, Nat.succ_eq_add_one, Nat.mul_add, Nat.mul_comm fractionCount exponent] at whole
    rw [shape, Nat.succ_eq_add_one, Nat.add_sub_cancel]
    omega

/-- A magnitude is the nearest one to its own units. -/
theorem nearestMagnitude_unitsOf (finite : m < infiniteMagnitude) (positive : 0 < k) :
    nearestMagnitude (unitsOf m * k) k = m := by
  obtain ⟨steps, units, same⟩ := unitsOf_eq_steps m
  have step : stepOf (unitsOf m * k) k = (unitsOf m).log2 - 52 := by
    rw [stepOf, Nat.mul_div_cancel _ positive]
  rw [nearestMagnitude_eq, step]
  generalize (unitsOf m).log2 - 52 = s at units same ⊢
  -- A multiple of its own step is not rounded at all.
  have order : unitsOf m * k = steps * (k * 2 ^ s) := by
    rw [units, Nat.mul_assoc, Nat.mul_comm (2 ^ s)]
  rw [order, nearestWhole_mul_self (Nat.mul_pos positive (Nat.two_pow_pos s)), ← same]
  exact Nat.min_eq_right (Nat.le_of_lt finite)

/-! ## Powers of two -/

theorem stepOf_le (below : a / b < 2 ^ n) : stepOf a b ≤ n := by
  by_cases zero : a / b = 0
  · simp [stepOf, zero]
  · have length := (Nat.log2_lt zero).mpr below
    unfold stepOf
    omega

/-- Rounding does not go below a power of two that a quotient reaches. -/
theorem pow_le_unitsOf (finite : nearestMagnitude a b < infiniteMagnitude)
    (reached : 2 ^ n ≤ a / b) :
    2 ^ n ≤ unitsOf (nearestMagnitude a b) := by
  have nonzero : a / b ≠ 0 := by
    have positive := Nat.two_pow_pos n
    omega
  have length := (Nat.le_log2 nonzero).mpr reached
  have short : stepOf a b ≤ (a / b).log2 := by
    unfold stepOf
    omega
  rw [unitsOf_nearestMagnitude finite]
  calc 2 ^ n ≤ 2 ^ (a / b).log2 := Nat.pow_le_pow_right (by decide) length
    _ = 2 ^ ((a / b).log2 - stepOf a b) * 2 ^ stepOf a b := by
        rw [← Nat.pow_add, Nat.sub_add_cancel short]
    _ ≤ a / (b * 2 ^ stepOf a b) * 2 ^ stepOf a b := by
        refine Nat.mul_le_mul_right _ ?_
        rw [← Nat.div_div_eq_div_mul, Nat.le_div_iff_mul_le (Nat.two_pow_pos _), ← Nat.pow_add,
          Nat.sub_add_cancel short]
        exact Nat.log2_self_le nonzero
    _ ≤ _ := Nat.mul_le_mul_right _ (nearestWhole_bounds ..).1

/-- Rounding does not go beyond a power of two that a quotient stays below. -/
theorem unitsOf_le_pow (finite : nearestMagnitude a b < infiniteMagnitude) (below : a / b < 2 ^ n) :
    unitsOf (nearestMagnitude a b) ≤ 2 ^ n := by
  have short := stepOf_le below
  have steps : a / (b * 2 ^ stepOf a b) < 2 ^ (n - stepOf a b) := by
    rw [← Nat.div_div_eq_div_mul, Nat.div_lt_iff_lt_mul (Nat.two_pow_pos _), ← Nat.pow_add,
      Nat.sub_add_cancel short]
    exact below
  rw [unitsOf_nearestMagnitude finite]
  calc nearestWhole a (b * 2 ^ stepOf a b) * 2 ^ stepOf a b
      ≤ 2 ^ (n - stepOf a b) * 2 ^ stepOf a b :=
        Nat.mul_le_mul_right _ (Nat.le_trans (nearestWhole_bounds ..).2 steps)
    _ = 2 ^ n := by rw [← Nat.pow_add, Nat.sub_add_cancel short]

theorem nearestMagnitude_tiny (tiny : 2 * a < b) : nearestMagnitude a b = 0 := by
  have quotient : a / b = 0 := Nat.div_eq_of_lt (by omega)
  have remainder : a % b = a := Nat.mod_eq_of_lt (by omega)
  have flat : stepOf a b = 0 := by simp [stepOf, quotient]
  rw [nearestMagnitude_eq, flat, Nat.pow_zero, Nat.mul_one,
    nearestWhole_lt (by rw [remainder]; exact tiny),
    quotient]
  decide

theorem nearestMagnitude_huge (huge : 2 ^ 2099 ≤ a / b) :
    nearestMagnitude a b = infiniteMagnitude := by
  have nonzero : a / b ≠ 0 := by
    have positive := Nat.two_pow_pos 2099
    omega
  have length := (Nat.le_log2 nonzero).mpr huge
  have steps : 2047 * fractionCount ≤ stepOf a b * fractionCount := by
    refine Nat.mul_le_mul_right _ ?_
    unfold stepOf
    omega
  rw [nearestMagnitude_eq]
  exact Nat.min_eq_left (Nat.le_trans steps (Nat.le_add_right ..))

/-! ## Whole numbers of ones -/

/-- A whole number is rounded to one: below 2⁵³ it is kept, and from there on the steps are whole. -/
theorem dvd_unitsOf_whole (finite : nearestMagnitude (n * unitsPerOne) 1 < infiniteMagnitude) :
    unitsPerOne ∣ unitsOf (nearestMagnitude (n * unitsPerOne) 1) := by
  rw [unitsOf_nearestMagnitude finite, Nat.one_mul]
  generalize stepOf (n * unitsPerOne) 1 = s
  rcases Nat.le_total 1074 s with wide | narrow
  · refine Nat.dvd_trans ?_ (Nat.dvd_mul_left ..)
    rw [unitsPerOne_eq]
    exact Nat.pow_dvd_pow 2 wide
  · have whole : n * unitsPerOne = n * 2 ^ (1074 - s) * 2 ^ s := by
      rw [unitsPerOne_eq, Nat.mul_assoc, ← Nat.pow_add, Nat.sub_add_cancel narrow]
    rw [whole, nearestWhole_mul_self (Nat.two_pow_pos s), ← whole]
    exact Nat.dvd_mul_left ..

end LinkedViews.Binary64
