import LinkedViews.Number.Decimal
import LinkedViews.Proofs.Number.Rounding

/-!
The decimals that are written for magnitudes. Each is read as its magnitude again, whether it was
found among the short ones or is the number in full; and its exponent is negative only where the
magnitude has a fractional part.
-/

namespace LinkedViews.Decimal

open Binary64

variable {d : Decimal} {tie : Tie} {m n count units : Nat}

-- Opened, the number of units in one is a numeral of a thousand bits.
attribute [local irreducible] unitsPerOne

/-! ## Reading -/

theorem pow_two_le_pow_ten (n : Nat) : 2 ^ (3 * n) ≤ 10 ^ n := by
  rw [Nat.pow_mul]
  exact Nat.pow_le_pow_left (by decide) n

/-- The shortcuts for exponents far from zero give what the rule gives. -/
theorem magnitude_eq (d : Decimal) : d.magnitude = nearestMagnitude d.ratio.1 d.ratio.2 := by
  unfold magnitude
  split
  · rename_i zero
    have nothing : d.ratio.1 = 0 := by simp [ratio, zero]
    rw [nearestMagnitude_tiny]
    rw [nothing]
    exact Nat.pow_pos (by decide)
  split
  · rename_i nonzero large
    have flat : (-d.exponent).toNat = 0 := by omega
    have whole : d.ratio.2 = 1 := by
      change 10 ^ (-d.exponent).toNat = 1
      rw [flat, Nat.pow_zero]
    rw [nearestMagnitude_huge]
    rw [whole, Nat.div_one]
    change 2 ^ 2099 ≤ d.digits * 10 ^ d.exponent.toNat * unitsPerOne
    rw [unitsPerOne_eq]
    calc 2 ^ 2099 = 2 ^ 1025 * 2 ^ 1074 := by rw [← Nat.pow_add]
      _ ≤ 10 ^ d.exponent.toNat * 2 ^ 1074 := by
          refine Nat.mul_le_mul_right _ (Nat.le_trans ?_ (pow_two_le_pow_ten _))
          exact Nat.pow_le_pow_right (by decide) (by omega)
      _ ≤ d.digits * 10 ^ d.exponent.toNat * 2 ^ 1074 :=
          Nat.mul_le_mul_right _ (Nat.le_mul_of_pos_left _ (Nat.pos_of_ne_zero nonzero))
  split
  · rename_i nonzero _ small
    have flat : d.exponent.toNat = 0 := by omega
    rw [nearestMagnitude_tiny]
    change 2 * (d.digits * 10 ^ d.exponent.toNat * unitsPerOne) < 10 ^ (-d.exponent).toNat
    rw [flat, Nat.pow_zero, Nat.mul_one, unitsPerOne_eq]
    calc 2 * (d.digits * 2 ^ 1074) = d.digits * 2 ^ 1075 := by
          rw [Nat.mul_left_comm, ← Nat.pow_add_one']
      _ < 2 ^ (d.digits.log2 + 1) * 2 ^ 1075 :=
          Nat.mul_lt_mul_of_pos_right Nat.lt_log2_self (Nat.two_pow_pos _)
      _ = 2 ^ (d.digits.log2 + 1076) := by rw [← Nat.pow_add]
      _ ≤ 2 ^ (3 * (-d.exponent).toNat) := Nat.pow_le_pow_right (by decide) (by omega)
      _ ≤ 10 ^ (-d.exponent).toNat := pow_two_le_pow_ten _
  · rfl

theorem magnitude_zero : (⟨0, 0⟩ : Decimal).magnitude = 0 := rfl

/-- A decimal with a point moved to its end is the same whole number. -/
theorem magnitude_of_whole (whole : 0 ≤ d.exponent) :
    d.magnitude = nearestMagnitude (d.digits * 10 ^ d.exponent.toNat * unitsPerOne) 1 := by
  have flat : (-d.exponent).toNat = 0 := by omega
  have denominator : d.ratio.2 = 1 := by
    change 10 ^ (-d.exponent).toNat = 1
    rw [flat, Nat.pow_zero]
  rw [magnitude_eq, denominator]
  rfl

theorem magnitude_shift (n : Nat) (exponent : Int) :
    (⟨n * 10, exponent⟩ : Decimal).magnitude = (⟨n, exponent + 1⟩ : Decimal).magnitude := by
  rw [magnitude_eq, magnitude_eq]
  change nearestMagnitude (n * 10 * 10 ^ exponent.toNat * unitsPerOne) (10 ^ (-exponent).toNat) =
    nearestMagnitude (n * 10 ^ (exponent + 1).toNat * unitsPerOne) (10 ^ (-(exponent + 1)).toNat)
  rcases Int.lt_or_le exponent 0 with negative | nonnegative
  · have front : exponent.toNat = 0 ∧ (exponent + 1).toNat = 0 := by omega
    have back : (-exponent).toNat = (-(exponent + 1)).toNat + 1 := by omega
    rw [front.1, front.2, back, Nat.pow_succ, Nat.pow_zero, Nat.mul_one, Nat.mul_one,
      Nat.mul_right_comm, nearestMagnitude_mul (by decide)]
  · have front : (exponent + 1).toNat = exponent.toNat + 1 := by omega
    have back : (-exponent).toNat = 0 ∧ (-(exponent + 1)).toNat = 0 := by omega
    rw [front, back.1, back.2, Nat.pow_succ, Nat.mul_assoc n, Nat.mul_comm 10]

/-! ## Zeros at the end -/

theorem magnitude_dropZeros (count : Nat) (d : Decimal) :
    (dropZeros count d).magnitude = d.magnitude := by
  induction count generalizing d with
  | zero => rfl
  | succ count ih =>
      rw [dropZeros]
      split
      · rename_i zeros
        have digits : d.digits = d.digits / 10 * 10 := by omega
        rw [ih, ← magnitude_shift, ← digits]
      · rfl

theorem exponent_le_dropZeros (count : Nat) (d : Decimal) :
    d.exponent ≤ (dropZeros count d).exponent := by
  induction count generalizing d with
  | zero => exact Int.le_refl _
  | succ count ih =>
      rw [dropZeros]
      split
      · exact Int.le_trans (Int.le_add_one (Int.le_refl _)) (ih ⟨d.digits / 10, d.exponent + 1⟩)
      · exact Int.le_refl _

/-- As many zeros are dropped as there are, if there are no more than may be. -/
theorem exponent_dropZeros (nonzero : d.digits ≠ 0) (zeros : 10 ^ n ∣ d.digits)
    (enough : n ≤ count) :
    d.exponent + n ≤ (dropZeros count d).exponent := by
  induction count generalizing d n with
  | zero =>
      obtain rfl : n = 0 := by omega
      simp [dropZeros]
  | succ count ih =>
      cases n with
      | zero => simpa using exponent_le_dropZeros (count + 1) d
      | succ n =>
          obtain ⟨front, digits⟩ := zeros
          rw [Nat.pow_succ, Nat.mul_right_comm] at digits
          have last : d.digits % 10 = 0 := by omega
          have rest : d.digits / 10 = 10 ^ n * front := by omega
          have bound := ih (d := ⟨d.digits / 10, d.exponent + 1⟩) (n := n) (by
            change d.digits / 10 ≠ 0
            omega) ⟨front, rest⟩ (by omega)
          rw [dropZeros, if_pos ⟨nonzero, last⟩]
          change d.exponent + 1 + n ≤ _ at bound
          omega

/-! ## The decimal of a magnitude -/

theorem exact_eq (units : Nat) : exact units = ⟨units * 5 ^ 1074, -1074⟩ := by
  rw [exact, Nat.pow_eq]

theorem digits_exact (n : Nat) : (exact (n * unitsPerOne)).digits = n * 10 ^ 1074 := by
  rw [exact_eq, unitsPerOne_eq, Nat.mul_assoc, ← Nat.mul_pow]

theorem magnitude_exact (finite : m < infiniteMagnitude) : (exact (unitsOf m)).magnitude = m := by
  have ratio : (exact (unitsOf m)).ratio = (unitsOf m * 10 ^ 1074, 10 ^ 1074) := by
    have flat : (-1074 : Int).toNat = 0 := by decide
    have places : (- -1074 : Int).toNat = 1074 := by decide
    rw [exact_eq, Decimal.ratio, flat, places, Nat.pow_eq, Nat.pow_eq, Nat.pow_zero, Nat.mul_one,
      unitsPerOne_eq, Nat.mul_assoc, ← Nat.mul_pow]
  rw [magnitude_eq, ratio]
  exact nearestMagnitude_unitsOf finite (Nat.pow_pos (by decide))

theorem exponent_neighbours {place : Int} (member : d ∈ neighbours tie units place) :
    d.exponent = place := by
  have either {first : Bool} {n : Nat}
      (member : d ∈ if first then [⟨n + 1, place⟩, ⟨n, place⟩] else [⟨n, place⟩, ⟨n + 1, place⟩]) :
      d.exponent = place := by
    cases first
    · simp only [Bool.false_eq_true, if_false, List.mem_cons, List.not_mem_nil, or_false] at member
      rcases member with rfl | rfl <;> rfl
    · simp only [if_true, List.mem_cons, List.not_mem_nil, or_false] at member
      rcases member with rfl | rfl <;> rfl
  exact either member

theorem readBackAt_eq_some {place : Int} (found : readBackAt tie m place = some d) :
    d.magnitude = m ∧ d.exponent = place := by
  have same := List.find?_some found
  exact ⟨of_decide_eq_true same, exponent_neighbours (List.mem_of_find?_eq_some found)⟩

/-- The short decimal that is found for a magnitude, if there is one. -/
def found? (tie : Tie) (m : Nat) : Option Decimal :=
  (List.range 17).findSome? fun (count : Nat) =>
    readBackAt tie m (leadingPlace (unitsOf m) - 1 - count)

theorem shortest_eq (nonzero : m ≠ 0) :
    shortest tie m = match found? tie m with
      | some d => dropZeros 17 d
      | none => dropZeros 1100 (exact (unitsOf m)) :=
  if_neg nonzero

/-- What is written for a magnitude is read as that magnitude. -/
theorem magnitude_shortest (tie : Tie) (finite : m < infiniteMagnitude) :
    (shortest tie m).magnitude = m := by
  by_cases zero : m = 0
  · rw [zero]
    exact magnitude_zero
  · rw [shortest_eq zero]
    cases found : found? tie m with
    | none =>
        simp only
        rw [magnitude_dropZeros, magnitude_exact finite]
    | some d =>
        obtain ⟨count, _, own⟩ := List.exists_of_findSome?_eq_some found
        simp only
        rw [magnitude_dropZeros, (readBackAt_eq_some own).1]

/-! ## Whole numbers -/

theorem one_le_leadingPlace (whole : unitsPerOne ≤ units) : 1 ≤ leadingPlace units := by
  have length : 1074 ≤ units.log2 := by
    have nonzero : units ≠ 0 := by
      have positive := unitsPerOne_pos
      omega
    rw [Nat.le_log2 nonzero, ← unitsPerOne_eq]
    exact whole
  have estimate : 0 ≤ Int.fdiv (((units.log2 : Int) - 1074) * 30103) 100000 :=
    Int.fdiv_nonneg (by omega) (by decide)
  have above {place : Int} (below : belowPower units place = true) : 1 ≤ place := by
    rcases Int.lt_or_le place 1 with low | high
    case inr => exact high
    have flat : place.toNat = 0 := by omega
    have less : units * 10 ^ (-place).toNat < unitsPerOne * 10 ^ place.toNat :=
      of_decide_eq_true below
    rw [flat, Nat.pow_zero, Nat.mul_one] at less
    have ten : 0 < 10 ^ (-place).toNat := Nat.pow_pos (by decide)
    have more := Nat.le_mul_of_pos_right units ten
    omega
  unfold leadingPlace
  simp only
  split
  · exact above ‹_›
  · split
    · exact above ‹_›
    · omega

theorem neighbours_of_multiple {place : Int}
    (positive : 0 < unitsPerOne * Nat.pow 10 place.toNat)
    (multiple : units * Nat.pow 10 (-place).toNat = n * (unitsPerOne * Nat.pow 10 place.toNat)) :
    neighbours tie units place = [⟨n, place⟩, ⟨n + 1, place⟩] := by
  unfold neighbours
  generalize units * Nat.pow 10 (-place).toNat = numerator at multiple ⊢
  generalize unitsPerOne * Nat.pow 10 place.toNat = denominator at positive multiple ⊢
  have quotient : numerator / denominator = n := by
    rw [multiple, Nat.mul_div_cancel n positive]
  have remainder : numerator % denominator = 0 := by
    rw [multiple, Nat.mul_mod_left]
  have below : compare 0 denominator = .lt := Nat.compare_eq_lt.mpr positive
  simp [quotient, remainder, below]

/-- A whole number is found at the place of ones at the latest. -/
theorem readBackAt_ones (finite : m < infiniteMagnitude) (whole : unitsPerOne ∣ unitsOf m) :
    (readBackAt tie m 0).isSome = true := by
  obtain ⟨n, units⟩ := whole
  rw [Nat.mul_comm] at units
  have neighbour : neighbours tie (unitsOf m) 0 = [⟨n, 0⟩, ⟨n + 1, 0⟩] := by
    have ones : unitsPerOne * Nat.pow 10 (0 : Int).toNat = unitsPerOne := Nat.mul_one _
    apply neighbours_of_multiple
    · rw [ones]
      exact unitsPerOne_pos
    · rw [ones, ← units]
      exact Nat.mul_one _
  have own : (⟨n, 0⟩ : Decimal).magnitude = m := by
    rw [magnitude_of_whole (Int.le_refl 0)]
    change nearestMagnitude (n * 1 * unitsPerOne) 1 = m
    rw [Nat.mul_one, ← units, ← Nat.mul_one (unitsOf m),
      nearestMagnitude_unitsOf finite (by decide)]
  simp [readBackAt, neighbour, own]

/-- The search goes from the leading place down, and stops no later than where it is known to. -/
theorem le_exponent_found {place : Int} (hit : (readBackAt tie m place).isSome = true)
    (leading : place < leadingPlace (unitsOf m)) (found : found? tie m = some d) :
    place ≤ d.exponent ∨ leadingPlace (unitsOf m) - 17 ≤ d.exponent ∧
      place < leadingPlace (unitsOf m) - 17 := by
  obtain ⟨before, count, after, order, own, misses⟩ := List.findSome?_eq_some_iff.mp found
  have exponent := (readBackAt_eq_some own).2
  have within : count < 17 := by
    have member : count ∈ List.range 17 := by simp [order]
    simpa using member
  by_cases far : place < leadingPlace (unitsOf m) - 17
  · exact .inr ⟨by omega, far⟩
  · refine .inl ?_
    rcases Int.lt_or_le d.exponent place with late | early
    case inr => exact early
    -- The place of the hit would have been tried before.
    obtain ⟨tried, known⟩ : ∃ tried : Nat, leadingPlace (unitsOf m) - 1 - tried = place :=
      ⟨(leadingPlace (unitsOf m) - 1 - place).toNat, by omega⟩
    have ascending : (before ++ count :: after).Pairwise (· < ·) := order ▸ List.pairwise_lt_range
    have member : tried ∈ before ++ count :: after := by
      rw [← order, List.mem_range]
      omega
    rcases List.mem_append.mp member with sooner | later
    · have miss := misses tried sooner
      rw [known] at miss
      simp [miss] at hit
    · have behind := List.pairwise_cons.mp (List.pairwise_append.mp ascending).2.1
      rcases List.mem_cons.mp later with same | later
      · omega
      · have greater := behind.1 tried later
        omega

/-- A whole number is written without a fraction. -/
theorem exponent_shortest_of_whole (tie : Tie) (finite : m < infiniteMagnitude) (nonzero : m ≠ 0)
    (whole : unitsPerOne ∣ unitsOf m) : 0 ≤ (shortest tie m).exponent := by
  have units : unitsOf m ≠ 0 := by
    intro zero
    have own := nearestMagnitude_unitsOf finite (show 0 < 1 by decide)
    rw [zero, Nat.zero_mul] at own
    exact nonzero (own.symm.trans (nearestMagnitude_tiny (by decide)))
  have leading := one_le_leadingPlace (Nat.le_of_dvd (Nat.pos_of_ne_zero units) whole)
  rw [shortest_eq nonzero]
  cases found : found? tie m with
  | none =>
      -- The exact decimal has 1074 places, all of them zeros here, and more than that are dropped.
      obtain ⟨n, own⟩ := whole
      rw [Nat.mul_comm] at own
      have zeros : 10 ^ 1074 ∣ (exact (unitsOf m)).digits := by
        rw [own, digits_exact]
        exact Nat.dvd_mul_left ..
      have digits : (exact (unitsOf m)).digits ≠ 0 := by
        rw [exact_eq]
        exact Nat.mul_ne_zero units (Nat.ne_of_gt (Nat.pow_pos (by decide)))
      have bound := exponent_dropZeros digits zeros (show 1074 ≤ 1100 by decide)
      rw [exact_eq] at bound ⊢
      simpa using bound
  | some d =>
      refine Int.le_trans ?_ (exponent_le_dropZeros 17 d)
      have stop := le_exponent_found (readBackAt_ones finite whole) (by omega) found
      omega

/-- A decimal without a fraction is read as a whole number. -/
theorem dvd_unitsOf_magnitude (finite : d.magnitude < infiniteMagnitude) (whole : 0 ≤ d.exponent) :
    unitsPerOne ∣ unitsOf d.magnitude := by
  rw [magnitude_of_whole whole] at finite ⊢
  exact dvd_unitsOf_whole finite

theorem exponent_shortest_of_not_whole (tie : Tie) (finite : m < infiniteMagnitude)
    (part : ¬ unitsPerOne ∣ unitsOf m) : (shortest tie m).exponent < 0 := by
  rcases Int.lt_or_le (shortest tie m).exponent 0 with fractional | flat
  case inl => exact fractional
  have same := magnitude_shortest tie finite
  have multiple := dvd_unitsOf_magnitude (same.symm ▸ finite) flat
  rw [same] at multiple
  exact absurd multiple part

/-! ## The range of integers -/

/-- The whole number that a decimal without places stands for. -/
def whole (d : Decimal) : Nat := d.digits * 10 ^ d.exponent.toNat

theorem pow_le_of_whole (finite : d.magnitude < infiniteMagnitude) (flat : 0 ≤ d.exponent)
    (reached : 2 ^ n ≤ whole d) : 2 ^ n * unitsPerOne ≤ unitsOf d.magnitude := by
  rw [magnitude_of_whole flat] at finite ⊢
  have units := pow_le_unitsOf (n := n + 1074) finite (by
    rw [Nat.div_one, Nat.pow_add, ← unitsPerOne_eq]
    exact Nat.mul_le_mul_right _ reached)
  rwa [Nat.pow_add, ← unitsPerOne_eq] at units

theorem le_pow_of_whole (finite : d.magnitude < infiniteMagnitude) (flat : 0 ≤ d.exponent)
    (below : whole d < 2 ^ n) : unitsOf d.magnitude ≤ 2 ^ n * unitsPerOne := by
  rw [magnitude_of_whole flat] at finite ⊢
  have units := unitsOf_le_pow (n := n + 1074) finite (by
    rw [Nat.div_one, Nat.pow_add, ← unitsPerOne_eq]
    exact Nat.mul_lt_mul_of_pos_right below unitsPerOne_pos)
  rwa [Nat.pow_add, ← unitsPerOne_eq] at units

/-- The magnitude of 2⁶³, one more than the greatest integer. -/
def beyond : Nat := 1086 * fractionCount

theorem unitsOf_beyond : unitsOf beyond = 2 ^ 63 * unitsPerOne := by
  have steps : beyond = 1085 * fractionCount + fractionCount := by decide
  have half : fractionCount = 2 ^ 52 := by decide
  rw [steps, unitsOf_steps (.inr (Nat.le_refl _)) (by omega), unitsPerOne_eq, half, ← Nat.pow_add,
    ← Nat.pow_add]

theorem eq_beyond (finite : m < infiniteMagnitude) (units : unitsOf m = 2 ^ 63 * unitsPerOne) :
    m = beyond := by
  have own := nearestMagnitude_unitsOf finite (show 0 < 1 by decide)
  have same := nearestMagnitude_unitsOf (m := beyond) (by decide) (show 0 < 1 by decide)
  rw [units, ← unitsOf_beyond] at own
  exact own.symm.trans same

/-- What is written for 2⁶³ is greater than it. -/
theorem shortest_beyond : shortest .upper beyond = ⟨9223372036854776, 3⟩ := by decide +kernel

/-- A whole number is below 2⁶³ if and only if what is written for it is, and then 2⁶³ is not
written either. -/
theorem whole_shortest (finite : m < infiniteMagnitude) (flat : 0 ≤ (shortest .upper m).exponent) :
    (unitsOf m < 2 ^ 63 * unitsPerOne → whole (shortest .upper m) < 2 ^ 63) ∧
      (2 ^ 63 * unitsPerOne ≤ unitsOf m → 2 ^ 63 < whole (shortest .upper m)) := by
  have same := magnitude_shortest .upper finite
  -- Rounding keeps the order, so only 2⁶³ itself could be crossed, and it is written as more.
  constructor
  · intro small
    rcases Nat.lt_or_ge (whole (shortest .upper m)) (2 ^ 63) with below | reached
    case inl => exact below
    have units := pow_le_of_whole (same.symm ▸ finite) flat reached
    rw [same] at units
    omega
  · intro large
    rcases Nat.lt_trichotomy (unitsOf m) (2 ^ 63 * unitsPerOne) with small | exactly | larger
    · omega
    · rw [eq_beyond finite exactly, shortest_beyond]
      decide
    · rcases Nat.lt_trichotomy (whole (shortest .upper m)) (2 ^ 63) with below | tie | above
      case inr.inr => exact above
      · have units := le_pow_of_whole (same.symm ▸ finite) flat below
        rw [same] at units
        omega
      · have magnitude := magnitude_of_whole flat
        change _ = nearestMagnitude (whole (shortest .upper m) * unitsPerOne) 1 at magnitude
        rw [same, tie, ← unitsOf_beyond, ← Nat.mul_one (unitsOf beyond),
          nearestMagnitude_unitsOf (by decide) (by decide)] at magnitude
        rw [magnitude, unitsOf_beyond] at larger
        omega

end LinkedViews.Decimal
