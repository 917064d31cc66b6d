import LinkedViews.Proofs.Number.Sum

/-!
Numbers and what they become when one is added. Rounding keeps the order of units, and below 2⁵³ the
next number is at most one away; so the sum is greater, however it is rounded.
-/

namespace LinkedViews.Binary64

-- Opened, the number of units in one is a numeral of a thousand bits.
attribute [local irreducible] unitsPerOne

variable {a b m : Nat} {x : Binary64}

/-! ## Rounding keeps the order -/

theorem nearestWhole_mono (le : a ≤ b) (k : Nat) : nearestWhole a k ≤ nearestWhole b k := by
  have quotients : a / k ≤ b / k := Nat.div_le_div_right le
  rcases Nat.lt_or_eq_of_le quotients with less | same
  · have upper := (nearestWhole_bounds a k).2
    have lower := (nearestWhole_bounds b k).1
    omega
  · have remainders : a % k ≤ b % k := by
      have front := Nat.div_add_mod a k
      have back := Nat.div_add_mod b k
      rw [same] at front
      omega
    rcases Nat.lt_trichotomy (2 * (a % k)) k with below | tie | above
    · rw [nearestWhole_lt below, same]
      exact (nearestWhole_bounds b k).1
    · rw [nearestWhole_eq tie, same]
      rcases Nat.lt_or_eq_of_le remainders with more | equal
      · rw [nearestWhole_gt (by omega)]
        omega
      · rw [nearestWhole_eq (equal ▸ tie)]
    · rw [nearestWhole_gt above, nearestWhole_gt (by omega), same]

theorem stepOf_mono (le : a ≤ b) : stepOf a 1 ≤ stepOf b 1 := by
  have length : (a / 1).log2 ≤ (b / 1).log2 := by
    rw [Nat.div_one, Nat.div_one, Nat.log2_eq_log_two, Nat.log2_eq_log_two]
    exact Nat.log_mono_right le
  unfold stepOf
  omega

/-- More units are not rounded to a lesser magnitude. -/
theorem nearestMagnitude_mono (le : a ≤ b) : nearestMagnitude a 1 ≤ nearestMagnitude b 1 := by
  have steps := stepOf_mono le
  rw [nearestMagnitude_eq, nearestMagnitude_eq]
  refine Nat.le_min.mpr ⟨Nat.min_le_left .., Nat.le_trans (Nat.min_le_right ..) ?_⟩
  rcases Nat.lt_or_eq_of_le steps with less | same
  · have below := (steps_bounds a 1).1
    have rounded := (nearestWhole_bounds a (1 * 2 ^ stepOf a 1)).2
    have above := (steps_bounds b 1).2.resolve_left (by omega)
    have kept := (nearestWhole_bounds b (1 * 2 ^ stepOf b 1)).1
    have next : (stepOf a 1 + 1) * fractionCount ≤ stepOf b 1 * fractionCount :=
      Nat.mul_le_mul_right _ less
    rw [Nat.succ_mul] at next
    omega
  · rw [same]
    exact Nat.add_le_add_left (nearestWhole_mono le _) _

/-! ## The next number -/

/-- Below 2⁵³ the next magnitude is at most one away. -/
theorem unitsOf_succ_le (small : unitsOf m < 2 ^ 53 * unitsPerOne) :
    unitsOf (m + 1) ≤ unitsOf m + unitsPerOne := by
  obtain ⟨s, n, rfl, above, below⟩ := exists_steps m
  rw [unitsOf_steps above (by omega)] at small ⊢
  rw [Nat.add_assoc, unitsOf_steps (by omega) (by omega), Nat.succ_mul]
  have step : 2 ^ s ≤ unitsPerOne := by
    rcases above with flat | large
    · rw [flat]
      exact unitsPerOne_pos
    · have half : fractionCount = 2 ^ 52 := by decide
      have reached : 2 ^ 52 * 2 ^ s ≤ n * 2 ^ s := half ▸ Nat.mul_le_mul_right _ large
      obtain ⟨e, one⟩ : ∃ e, unitsPerOne = 2 ^ e := ⟨_, unitsPerOne_eq⟩
      rw [one] at small ⊢
      have shorter : 2 ^ (52 + s) < 2 ^ (53 + e) := by
        rw [Nat.pow_add, Nat.pow_add]
        exact Nat.lt_of_le_of_lt reached small
      have exponents := (Nat.pow_lt_pow_iff_right (by decide)).mp shorter
      exact Nat.pow_le_pow_right (by decide) (by omega)
  omega

theorem nearestMagnitude_lt (a : Nat) : nearestMagnitude a 1 < signBit :=
  Nat.lt_of_le_of_lt (Nat.min_le_left ..) (by decide)

theorem parts_ofSignedUnits (units : Int) :
    (ofSignedUnits units).magnitude = nearestMagnitude units.natAbs 1 ∧
      (ofSignedUnits units).isNegative = decide (units < 0) :=
  magnitude_ofParts _ (nearestMagnitude_lt _)

theorem nearestMagnitude_unitsOf_one (finite : m < infiniteMagnitude) :
    nearestMagnitude (unitsOf m) 1 = m := by
  have own := nearestMagnitude_unitsOf finite (k := 1) (by decide)
  rwa [Nat.mul_one] at own

theorem succ_magnitude_lt (small : unitsOf m < 2 ^ 53 * unitsPerOne) :
    m + 1 < infiniteMagnitude := by
  have limit : wholeMagnitude (2 ^ 53) < infiniteMagnitude := wholeMagnitude_lt (by decide)
  rw [← unitsOf_wholeMagnitude (Nat.le_refl _), unitsOf_strictMono.lt_iff_lt] at small
  omega

theorem add_one (finite : x.isFinite = true) :
    x.add one = ofSignedUnits (x.signedUnits + unitsPerOne) := by
  have unit : (1 : Int).natAbs ≤ 2 ^ 53 := by decide
  have some : (ofInt 1).isZero = false := by decide +kernel
  change x.add (ofInt 1) = _
  rw [add_of_isFinite finite (isFinite_ofInt unit), some, Bool.and_false, if_neg (by decide),
    signedUnits_ofInt unit, Int.one_mul]

/-- A number below 2⁵³ is less than what it becomes when one is added. -/
theorem rank_lt_add_one (finite : x.isFinite = true) (small : x.units < 2 ^ 53 * unitsPerOne) :
    x.rank < (x.add one).rank := by
  obtain ⟨magnitude, negative⟩ := parts_ofSignedUnits (x.signedUnits + unitsPerOne)
  rw [add_one finite, rank, rank, magnitude, negative, signedUnits]
  rw [units_eq] at small ⊢
  generalize x.magnitude = m at small
  have next := unitsOf_succ_le small
  cases x.isNegative with
  | false =>
      have above : ¬ (unitsOf m : Int) + unitsPerOne < 0 := by omega
      have rounded : m + 1 ≤ nearestMagnitude (unitsOf m + unitsPerOne) 1 := by
        have own := nearestMagnitude_mono next
        rwa [nearestMagnitude_unitsOf_one (succ_magnitude_lt small)] at own
      simp only [Bool.false_eq_true, if_false, decide_eq_true_eq, if_neg above]
      rw [← Int.natCast_add, Int.natAbs_natCast]
      omega
  | true =>
      simp only [if_true, decide_eq_true_eq]
      split
      · -- The sum is negative, so the number has a magnitude before it.
        obtain ⟨p, rfl⟩ : ∃ p, m = p + 1 := Nat.exists_eq_succ_of_ne_zero (by
          rintro rfl
          have none : unitsOf 0 = 0 := by decide
          omega)
        have before := unitsOf_strictMono (Nat.lt_succ_self p)
        have gap := unitsOf_succ_le (Nat.lt_trans before small)
        have rounded : nearestMagnitude (-(unitsOf (p + 1) : Int) + unitsPerOne).natAbs 1 ≤ p := by
          have finite : p < infiniteMagnitude := by
            have limit := succ_magnitude_lt small
            omega
          have own := nearestMagnitude_mono
            (show (-(unitsOf (p + 1) : Int) + unitsPerOne).natAbs ≤ unitsOf p by omega)
          rwa [nearestMagnitude_unitsOf_one finite] at own
        omega
      · omega

theorem isFinite_add_one (finite : x.isFinite = true) (small : x.units < 2 ^ 53 * unitsPerOne) :
    (x.add one).isFinite = true := by
  have units : (x.signedUnits + unitsPerOne).natAbs ≤ (2 ^ 53 + 1) * unitsPerOne := by
    rw [signedUnits]
    split <;> omega
  have limit : wholeMagnitude (2 ^ 53 + 1) < infiniteMagnitude := wholeMagnitude_lt (by decide)
  have rounded : nearestMagnitude (x.signedUnits + unitsPerOne).natAbs 1 ≤
      wholeMagnitude (2 ^ 53 + 1) := nearestMagnitude_mono units
  rw [add_one finite, isFinite, (parts_ofSignedUnits _).1]
  exact decide_eq_true (Nat.lt_of_le_of_lt rounded limit)

/-- Whole numbers below 2⁵³ are in the order of the integers they are. -/
theorem rank_ofInt_lt {n : Int} (small : n.natAbs < 2 ^ 53) :
    (ofInt n).rank < (ofInt (n + 1)).rank := by
  have unit : (1 : Int).natAbs ≤ 2 ^ 53 := by decide
  have bound : n.natAbs ≤ 2 ^ 53 := Nat.le_of_lt small
  have units : (ofInt n).units < 2 ^ 53 * unitsPerOne := by
    rw [units_eq, (parts_ofInt bound).1, unitsOf_wholeMagnitude bound]
    exact Nat.mul_lt_mul_of_pos_right small unitsPerOne_pos
  have next : (ofInt n).add one = ofInt (n + 1) := by
    have sum := add_ofInt bound (isWhole_ofInt unit)
    rwa [toInt_ofInt unit] at sum
  rw [← next]
  exact rank_lt_add_one (isFinite_ofInt bound) units

end LinkedViews.Binary64
