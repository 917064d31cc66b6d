import LinkedViews.Proofs.Number.Written

/-!
Whole numbers up to 2⁵³. They are numbers of units without rounding, so they keep their order, and
what is written for those below the limit has their own digits.
-/

namespace LinkedViews

-- Opened, the number of units in one is a numeral of a thousand bits.
attribute [local irreducible] Binary64.unitsPerOne

namespace Binary64

variable {n m k : Nat} {a b : Int}

/-! ## Magnitudes -/

theorem exists_steps (m : Nat) :
    ∃ s n, m = s * fractionCount + n ∧ (s = 0 ∨ fractionCount ≤ n) ∧ n < 2 * fractionCount := by
  have positive : 0 < fractionCount := by decide
  have whole := Nat.div_add_mod m fractionCount
  have fraction := Nat.mod_lt m positive
  rw [Nat.mul_comm] at whole
  cases exponent : m / fractionCount with
  | zero =>
      rw [exponent, Nat.zero_mul] at whole
      exact ⟨0, m, by omega, .inl rfl, by omega⟩
  | succ s =>
      rw [exponent, Nat.succ_mul] at whole
      exact ⟨s, fractionCount + m % fractionCount, by omega, .inr (by omega), by omega⟩

theorem unitsOf_strictMono : StrictMono unitsOf := by
  refine strictMono_nat_of_lt_succ fun m => ?_
  obtain ⟨s, n, rfl, above, below⟩ := exists_steps m
  rw [Nat.add_assoc, unitsOf_steps above (by omega), unitsOf_steps (by omega) (by omega)]
  exact Nat.mul_lt_mul_of_pos_right (Nat.lt_succ_self n) (Nat.two_pow_pos s)

/-- The magnitude of a whole number. -/
def wholeMagnitude (n : Nat) : Nat := nearestMagnitude (n * unitsPerOne) 1

theorem stepOf_whole_le (small : n < 2 ^ k) : stepOf (n * unitsPerOne) 1 ≤ k + 1021 := by
  by_cases zero : n * unitsPerOne = 0
  · simp [stepOf, zero]
  · have below : n * unitsPerOne < 2 ^ (k + 1074) :=
      calc n * unitsPerOne < 2 ^ k * unitsPerOne :=
            Nat.mul_lt_mul_of_pos_right small unitsPerOne_pos
        _ = 2 ^ (k + 1074) := by rw [unitsPerOne_eq, Nat.pow_add]
    have length := (Nat.log2_lt zero).mpr below
    rw [stepOf, Nat.div_one]
    omega

theorem wholeMagnitude_lt (small : n < 2 ^ 54) : wholeMagnitude n < infiniteMagnitude := by
  have step : stepOf (n * unitsPerOne) 1 ≤ 54 + 1021 := stepOf_whole_le small
  have steps := (steps_bounds (n * unitsPerOne) 1).1
  have rounded := (nearestWhole_bounds (n * unitsPerOne) (1 * 2 ^ stepOf (n * unitsPerOne) 1)).2
  have limit : infiniteMagnitude = 2047 * fractionCount := rfl
  have product : stepOf (n * unitsPerOne) 1 * fractionCount ≤ 1075 * fractionCount :=
    Nat.mul_le_mul_right _ step
  have positive : 0 < fractionCount := by decide
  rw [wholeMagnitude, nearestMagnitude_eq]
  omega

theorem two_pow_dvd {j : Nat} (step : k ≤ j + 1074) : 2 ^ k ∣ 2 ^ j * unitsPerOne := by
  rw [unitsPerOne_eq, ← Nat.pow_add]
  exact Nat.pow_dvd_pow 2 step

/-- Whole numbers that are small enough are not rounded. -/
theorem unitsOf_wholeMagnitude (small : n ≤ 2 ^ 53) :
    unitsOf (wholeMagnitude n) = n * unitsPerOne := by
  have even : 2 ^ stepOf (n * unitsPerOne) 1 ∣ n * unitsPerOne := by
    rcases Nat.lt_or_eq_of_le small with below | rfl
    · have step := two_pow_dvd (show _ ≤ 0 + 1074 from stepOf_whole_le below)
      rw [Nat.pow_zero, Nat.one_mul] at step
      exact step.trans (Nat.dvd_mul_left unitsPerOne n)
    · -- The limit takes a bit more than all below it, but that bit is zero.
      have step : stepOf (2 ^ 53 * unitsPerOne) 1 ≤ 54 + 1021 := stepOf_whole_le (by decide)
      exact two_pow_dvd (Nat.le_trans step (by decide))
  obtain ⟨q, shape⟩ := exists_eq_mul_left_of_dvd even
  rw [wholeMagnitude, unitsOf_nearestMagnitude (wholeMagnitude_lt (by omega)), Nat.one_mul]
  generalize stepOf (n * unitsPerOne) 1 = s at shape ⊢
  rw [shape, nearestWhole_mul_self (Nat.two_pow_pos s)]

theorem wholeMagnitude_lt_iff (one : n ≤ 2 ^ 53) (two : m ≤ 2 ^ 53) :
    wholeMagnitude n < wholeMagnitude m ↔ n < m := by
  rw [← unitsOf_strictMono.lt_iff_lt, unitsOf_wholeMagnitude one, unitsOf_wholeMagnitude two,
    Nat.mul_lt_mul_right unitsPerOne_pos]

/-! ## Signs -/

theorem magnitude_ofParts (negative : Bool) (small : m < signBit) :
    (ofParts negative m).magnitude = m ∧ (ofParts negative m).isNegative = negative := by
  have half : signBit = 9223372036854775808 := by decide
  unfold magnitude isNegative ofParts
  rw [half] at small ⊢
  cases negative <;> simp <;> omega

theorem parts_ofInt (small : a.natAbs ≤ 2 ^ 53) :
    (ofInt a).magnitude = wholeMagnitude a.natAbs ∧ (ofInt a).isNegative = decide (a < 0) := by
  have below : wholeMagnitude a.natAbs < infiniteMagnitude := wholeMagnitude_lt (by omega)
  have limit : infiniteMagnitude < signBit := by decide
  exact magnitude_ofParts _ (by unfold wholeMagnitude at below; omega)

/-- Ranks order whole numbers as they are. -/
theorem rank_ofInt_lt_iff (one : a.natAbs ≤ 2 ^ 53) (two : b.natAbs ≤ 2 ^ 53) :
    (ofInt a).rank < (ofInt b).rank ↔ a < b := by
  obtain ⟨magnitudeA, negativeA⟩ := parts_ofInt one
  obtain ⟨magnitudeB, negativeB⟩ := parts_ofInt two
  have forward := wholeMagnitude_lt_iff one two
  have backward := wholeMagnitude_lt_iff two one
  unfold rank
  rw [magnitudeA, negativeA, magnitudeB, negativeB]
  simp only [decide_eq_true_eq]
  split <;> split <;> omega

end Binary64

namespace Decimal

open Binary64

variable {n : Nat}

theorem shortest_wholeMagnitude (tie : Tie) (small : n < 2 ^ 53) :
    0 ≤ (shortest tie (wholeMagnitude n)).exponent ∧
      (shortest tie (wholeMagnitude n)).whole = n := by
  have finite : wholeMagnitude n < infiniteMagnitude := wholeMagnitude_lt (by omega)
  have units := unitsOf_wholeMagnitude (Nat.le_of_lt small)
  by_cases zero : wholeMagnitude n = 0
  · have none : n = 0 := by
      rw [zero] at units
      have nothing : unitsOf 0 = 0 := by decide
      exact (Nat.mul_eq_zero.mp (units.symm.trans nothing)).resolve_right
        (Nat.ne_of_gt unitsPerOne_pos)
    have shown : shortest tie 0 = ⟨0, 0⟩ := if_pos rfl
    rw [zero, none, shown]
    decide
  · have flat := exponent_shortest_of_whole tie finite zero (units ▸ Nat.dvd_mul_left ..)
    have same := magnitude_shortest tie finite
    refine ⟨flat, ?_⟩
    rcases Nat.lt_or_ge (shortest tie (wholeMagnitude n)).whole (2 ^ 53) with below | reached
    · have read : wholeMagnitude (shortest tie (wholeMagnitude n)).whole = wholeMagnitude n :=
        (magnitude_of_whole flat).symm.trans same
      have equal := congrArg unitsOf read
      rw [unitsOf_wholeMagnitude (Nat.le_of_lt below), units] at equal
      exact Nat.eq_of_mul_eq_mul_right unitsPerOne_pos equal
    · have above := pow_le_of_whole (same.symm ▸ finite) flat reached
      rw [same, units] at above
      have less : n * unitsPerOne < 2 ^ 53 * unitsPerOne :=
        Nat.mul_lt_mul_of_pos_right small unitsPerOne_pos
      omega

end Decimal

namespace Numeral

variable {n k : Nat} {d : Decimal}

theorem digits_ten_mul (nonzero : n ≠ 0) : digits (n * 10) = digits n ++ ['0'] := by
  rw [digits, if_neg (by omega), Nat.mul_div_cancel n (by decide), Nat.mul_mod_left]
  rfl

theorem digits_mul_pow (nonzero : n ≠ 0) (k : Nat) :
    digits (n * 10 ^ k) = digits n ++ List.replicate k '0' := by
  induction k with
  | zero => simp
  | succ k ih =>
      have positive : 0 < 10 ^ k := Nat.pow_pos (by decide)
      rw [Nat.pow_succ, ← Nat.mul_assoc,
        digits_ten_mul (Nat.mul_ne_zero nonzero (Nat.ne_of_gt positive)), ih, List.append_assoc,
        List.replicate_succ']

theorem filled_eq_digits (d : Decimal) : filled d = digits d.whole := by
  by_cases zero : d.digits = 0
  · simp [filled, Decimal.whole, zero]
  · rw [filled, if_neg zero, Decimal.whole, digits_mul_pow zero]

theorem ofInt_signed (nonzero : n ≠ 0) (negative : Bool) :
    ofInt (if negative then -(n : Int) else n) = signed negative (digits n) := by
  cases negative with
  | false => simp [ofInt, ofNat, signed]
  | true =>
      have below : -(n : Int) < 0 := by omega
      rw [if_pos rfl, ofInt, if_pos below, Int.natAbs_neg, Int.natAbs_natCast]
      apply String.toList_inj.mp
      simp [ofNat, signed]

theorem plain_of_isWhole {x : Binary64} (whole : x.isWhole = true) (nonzero : x.units ≠ 0) :
    ∃ n, n ≠ 0 ∧ plain x = signed x.isNegative (digits n) := by
  simp only [Binary64.isWhole, Bool.and_eq_true, decide_eq_true_eq] at whole
  obtain ⟨finite, multiple⟩ := whole
  have below : x.magnitude < Binary64.infiniteMagnitude := of_decide_eq_true finite
  have magnitude : x.magnitude ≠ 0 := by
    intro zero
    rw [Binary64.units_eq, zero] at nonzero
    exact nonzero rfl
  have flat := Decimal.exponent_shortest_of_whole .upper below magnitude
    (Nat.dvd_of_mod_eq_zero multiple)
  refine ⟨(Decimal.shortest .upper x.magnitude).whole, fun none => ?_, ?_⟩
  · have same := Decimal.magnitude_shortest .upper below
    rw [Decimal.magnitude_of_whole flat] at same
    change Binary64.wholeMagnitude (Decimal.shortest .upper x.magnitude).whole = _ at same
    rw [none] at same
    exact magnitude (same.symm.trans (Binary64.nearestMagnitude_tiny (by simp)))
  · rw [plain_of_isFinite finite, positional_whole flat, filled_eq_digits]

/-- A real whose text is that of an integer is written like that integer. -/
theorem ofInt_of_readInt64?_withPoint {x : Binary64} {value : Int64}
    (read : readInt64? (withPoint x).toList = some value) :
    ofInt value.toInt = withPoint x := by
  have bare : x.isBare = true := by rw [← isSome_readInt64?_withPoint, read]; rfl
  simp only [Binary64.isBare, Bool.and_eq_true, decide_eq_true_eq] at bare
  obtain ⟨⟨whole, large⟩, _⟩ := bare
  have nonzero : x.units ≠ 0 := by
    have positive : 0 < Nat.pow 10 15 * Binary64.unitsPerOne :=
      Nat.mul_pos (by decide) Binary64.unitsPerOne_pos
    omega
  obtain ⟨n, some, shown⟩ := plain_of_isWhole whole nonzero
  have shape : withPoint x = signed x.isNegative (digits n) := by
    rw [withPoint, if_neg fun pointed => Nat.not_lt_of_ge large pointed.2, shown]
  have own := readInt?_of_readInt64? read
  rw [shape, readInt?_signed (digits_ne_nil n) (fun c => isDigit_of_mem_digits), valueOf_digits]
    at own
  rw [← Option.some.inj own, ofInt_signed some, shape]

end Numeral

end LinkedViews
