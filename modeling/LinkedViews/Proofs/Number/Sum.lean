import LinkedViews.Proofs.Number.Whole

/-!
Sums of whole numbers. While the magnitudes stay within 2⁵³ all together, no addition rounds: the
sum is the number of the sum of the integers, in whatever order they are added.
-/

namespace LinkedViews.Binary64

-- Opened, the number of units in one is a numeral of a thousand bits.
attribute [local irreducible] unitsPerOne

variable {x : Binary64} {a : Int} {values other : List Binary64}

/-- The sum of numbers, each added in its turn to what came before it. -/
def total (values : List Binary64) : Binary64 := values.foldl add .zero

/-- The integer that a whole number is. -/
def toInt (x : Binary64) : Int := x.signedUnits / unitsPerOne

/-- The sum of the magnitudes of whole numbers. -/
def spread (values : List Binary64) : Nat := (values.map fun x => x.toInt.natAbs).sum

/-- Numbers that are summed up without rounding. -/
structure Exact (values : List Binary64) : Prop where
  whole : ∀ x ∈ values, x.isWhole = true
  small : spread values ≤ 2 ^ 53

theorem exact_iff : Exact values ↔ values.all isWhole = true ∧ spread values ≤ 2 ^ 53 :=
  ⟨fun exact => ⟨List.all_eq_true.mpr exact.whole, exact.small⟩,
    fun ⟨whole, small⟩ => ⟨List.all_eq_true.mp whole, small⟩⟩

instance : Decidable (Exact values) := decidable_of_iff' _ exact_iff

/-! ## Single numbers -/

theorem unitsOf_eq_zero {m : Nat} : unitsOf m = 0 ↔ m = 0 := by
  have origin : unitsOf 0 = 0 := by decide
  constructor
  · intro none
    exact unitsOf_strictMono.injective (none.trans origin.symm)
  · rintro rfl
    exact origin

theorem signedUnits_eq_zero : x.signedUnits = 0 ↔ x.isZero = true := by
  have units : x.units = 0 ↔ x.magnitude = 0 := unitsOf_eq_zero
  rw [isZero, decide_eq_true_eq, ← units, signedUnits]
  split <;> omega

theorem signedUnits_of_isWhole (whole : x.isWhole = true) :
    x.signedUnits = x.toInt * unitsPerOne := by
  simp only [isWhole, Bool.and_eq_true, decide_eq_true_eq] at whole
  have dvd : (unitsPerOne : Int) ∣ x.units :=
    Int.natCast_dvd_natCast.mpr (Nat.dvd_of_mod_eq_zero whole.2)
  have signed : (unitsPerOne : Int) ∣ x.signedUnits := by
    unfold signedUnits
    split
    · exact Int.dvd_neg.mpr dvd
    · exact dvd
  exact (Int.ediv_mul_cancel signed).symm

theorem signedUnits_ofInt (small : a.natAbs ≤ 2 ^ 53) :
    (ofInt a).signedUnits = a * unitsPerOne := by
  obtain ⟨magnitude, negative⟩ := parts_ofInt small
  rw [signedUnits, units_eq, magnitude, negative, unitsOf_wholeMagnitude small, Int.natCast_mul]
  by_cases below : a < 0
  · rw [if_pos (decide_eq_true below), ← Int.neg_mul]
    congr 1
    omega
  · rw [if_neg (by simpa using below)]
    congr 1
    omega

theorem ofSignedUnits_mul (a : Int) : ofSignedUnits (a * unitsPerOne) = ofInt a := by
  have positive : (0 : Int) < unitsPerOne := Int.natCast_pos.mpr unitsPerOne_pos
  have sign : a * unitsPerOne < 0 * unitsPerOne ↔ a < 0 := Int.mul_lt_mul_right positive
  rw [Int.zero_mul] at sign
  rw [ofSignedUnits, ofInt, Int.natAbs_mul, Int.natAbs_natCast, decide_eq_decide.mpr sign]

theorem isFinite_ofInt (small : a.natAbs ≤ 2 ^ 53) : (ofInt a).isFinite = true := by
  rw [isFinite, (parts_ofInt small).1]
  exact decide_eq_true (wholeMagnitude_lt (by omega))

theorem isWhole_ofInt (small : a.natAbs ≤ 2 ^ 53) : (ofInt a).isWhole = true := by
  rw [isWhole, isFinite_ofInt small, units_eq, (parts_ofInt small).1, unitsOf_wholeMagnitude small,
    Nat.mul_mod_left]
  rfl

theorem toInt_ofInt (small : a.natAbs ≤ 2 ^ 53) : (ofInt a).toInt = a := by
  have positive : (unitsPerOne : Int) ≠ 0 := Int.natCast_ne_zero.mpr (Nat.ne_of_gt unitsPerOne_pos)
  rw [toInt, signedUnits_ofInt small, Int.mul_ediv_cancel _ positive]

theorem ofInt_zero : ofInt 0 = .zero := by
  simp [ofInt, nearest, zero, nearestMagnitude_tiny]

theorem parts_neg (x : Binary64) :
    x.neg.magnitude = x.magnitude ∧ x.neg.isNegative = !x.isNegative :=
  magnitude_ofParts _ (Nat.mod_lt _ (by decide))

theorem signedUnits_neg (x : Binary64) : x.neg.signedUnits = -x.signedUnits := by
  have units : x.neg.units = x.units := by rw [units_eq, units_eq, (parts_neg x).1]
  rw [signedUnits, signedUnits, units, (parts_neg x).2]
  cases x.isNegative with
  | false => rfl
  | true => exact (Int.neg_neg _).symm

theorem isWhole_neg (whole : x.isWhole = true) : x.neg.isWhole = true := by
  rw [isWhole, isFinite, units_eq, (parts_neg x).1, ← units_eq, ← isFinite]
  exact whole

theorem toInt_neg (whole : x.isWhole = true) : x.neg.toInt = -x.toInt := by
  have positive : (unitsPerOne : Int) ≠ 0 := Int.natCast_ne_zero.mpr (Nat.ne_of_gt unitsPerOne_pos)
  rw [toInt, signedUnits_neg, signedUnits_of_isWhole whole, ← Int.neg_mul,
    Int.mul_ediv_cancel _ positive]

/-! ## Additions -/

theorem add_of_isFinite {y : Binary64} (one : x.isFinite = true) (two : y.isFinite = true) :
    x.add y = if x.isZero && y.isZero then ofParts (x.isNegative && y.isNegative) 0
      else ofSignedUnits (x.signedUnits + y.signedUnits) := by
  have below : x.magnitude < infiniteMagnitude := of_decide_eq_true one
  have above : y.magnitude < infiniteMagnitude := of_decide_eq_true two
  have number : x.isNaN = false ∧ y.isNaN = false :=
    ⟨decide_eq_false (by omega), decide_eq_false (by omega)⟩
  have bounded : x.isInfinite = false ∧ y.isInfinite = false :=
    ⟨decide_eq_false (by omega), decide_eq_false (by omega)⟩
  simp [add, number, bounded]

/-- A whole number is added to another without rounding. A negative zero changes nothing. -/
theorem add_ofInt (small : a.natAbs ≤ 2 ^ 53) (whole : x.isWhole = true) :
    (ofInt a).add x = ofInt (a + x.toInt) := by
  have finite : x.isFinite = true := (Bool.and_eq_true_iff.mp whole).1
  rw [add_of_isFinite (isFinite_ofInt small) finite]
  by_cases zeros : ((ofInt a).isZero && x.isZero) = true
  · rw [if_pos zeros]
    obtain ⟨left, right⟩ := Bool.and_eq_true_iff.mp zeros
    have positive : (unitsPerOne : Int) ≠ 0 :=
      Int.natCast_ne_zero.mpr (Nat.ne_of_gt unitsPerOne_pos)
    have first : a = 0 := by
      have none := signedUnits_eq_zero.mpr left
      rw [signedUnits_ofInt small] at none
      exact (Int.mul_eq_zero.mp none).resolve_right positive
    have second : x.toInt = 0 := by
      rw [toInt, signedUnits_eq_zero.mpr right, Int.zero_ediv]
    rw [(parts_ofInt small).2, first, second, Int.add_zero, ofInt_zero]
    rfl
  · rw [if_neg zeros, signedUnits_ofInt small, signedUnits_of_isWhole whole, ← Int.add_mul,
      ofSignedUnits_mul]

/-- A whole number is taken from another without rounding. -/
theorem sub_ofInt (small : a.natAbs ≤ 2 ^ 53) (whole : x.isWhole = true) :
    (ofInt a).sub x = ofInt (a - x.toInt) := by
  rw [sub, add_ofInt small (isWhole_neg whole), toInt_neg whole, Int.sub_eq_add_neg]

theorem foldl_add_ofInt (whole : ∀ x ∈ values, x.isWhole = true)
    (small : a.natAbs + spread values ≤ 2 ^ 53) :
    values.foldl add (ofInt a) = ofInt (a + (values.map toInt).sum) := by
  induction values generalizing a with
  | nil => simp
  | cons x rest ih =>
      rw [spread, List.map_cons, List.sum_cons] at small
      change a.natAbs + (x.toInt.natAbs + spread rest) ≤ 2 ^ 53 at small
      have bound := Int.natAbs_add_le a x.toInt
      rw [List.foldl_cons, add_ofInt (by omega) (whole x List.mem_cons_self),
        ih (fun y member => whole y (List.mem_cons_of_mem x member)) (by omega), List.map_cons,
        List.sum_cons, Int.add_assoc]

theorem total_of_exact (exact : Exact values) : total values = ofInt (values.map toInt).sum := by
  have start : (0 : Int).natAbs + spread values ≤ 2 ^ 53 := by simpa using exact.small
  have sum := foldl_add_ofInt exact.whole start
  rwa [ofInt_zero, Int.zero_add] at sum

theorem Exact.perm (exact : Exact values) (same : values.Perm other) : Exact other where
  whole x member := exact.whole x (same.mem_iff.mpr member)
  small := by
    have sum : spread values = spread other := (same.map _).sum_nat
    exact sum ▸ exact.small

theorem Exact.sublist (exact : Exact values) (inside : other.Sublist values) : Exact other where
  whole x member := exact.whole x (inside.subset member)
  small := by
    have sum : spread other ≤ spread values := (inside.map _).sum_le_sum fun _ _ => Nat.zero_le _
    exact Nat.le_trans sum exact.small

/-- Whole numbers have the same sum in every order. -/
theorem Exact.total_perm (exact : Exact values) (same : values.Perm other) :
    total values = total other := by
  rw [total_of_exact exact, total_of_exact (exact.perm same), (same.map _).sum_eq]

theorem map_toInt_ofInt {sums : List Int} (small : ∀ a ∈ sums, a.natAbs ≤ 2 ^ 53) :
    (sums.map ofInt).map toInt = sums := by
  rw [List.map_map]
  refine (List.map_congr_left fun a member => ?_).trans (List.map_id sums)
  rw [Function.comp_apply, toInt_ofInt (small a member), id]

theorem spread_eq (values : List Binary64) :
    spread values = ((values.map toInt).map Int.natAbs).sum := by
  rw [spread, List.map_map]
  rfl

/-- Integers are added up to the number of their sum. -/
theorem total_map_ofInt {sums : List Int} (small : (sums.map Int.natAbs).sum ≤ 2 ^ 53) :
    total (sums.map ofInt) = ofInt sums.sum := by
  have each : ∀ a ∈ sums, a.natAbs ≤ 2 ^ 53 := fun a member =>
    Nat.le_trans (List.le_sum_of_mem (List.mem_map_of_mem member)) small
  have back := map_toInt_ofInt each
  have exact : Exact (sums.map ofInt) := by
    refine ⟨fun x member => ?_, ?_⟩
    · obtain ⟨a, inside, rfl⟩ := List.mem_map.mp member
      exact isWhole_ofInt (each a inside)
    · rw [spread_eq, back]
      exact small
  rw [total_of_exact exact, back]

/-- Counts are added up to the number of their sum. -/
theorem total_ofInt {counts : List Nat} (small : counts.sum ≤ 2 ^ 53) :
    total (counts.map fun n : Nat => ofInt n) = ofInt counts.sum := by
  have sizes : (counts.map Nat.cast).map Int.natAbs = counts := by simp [Function.comp_def]
  have sum : total ((counts.map Nat.cast).map ofInt) = ofInt (counts.map Nat.cast).sum :=
    total_map_ofInt (by rw [sizes]; exact small)
  rw [← Nat.cast_list_sum, List.map_map] at sum
  exact sum

end LinkedViews.Binary64
