import LinkedViews.Proofs.Number.Numeral
import LinkedViews.Proofs.Number.Shortest

/-!
Numbers as the texts of cells. The text of a number is read as that number; it is the text of an
integer as well where a whole number is written without its point, which is the case from 10¹⁵ on,
and still fits an integer.
-/

namespace LinkedViews

-- Opened, the number of units in one is a numeral of a thousand bits.
attribute [local irreducible] Binary64.unitsPerOne

namespace Numeral

variable {c : Char} {whole fraction text rest : List Char} {d : Decimal} {negative : Bool}

/-! ## Decimals -/

theorem readDecimal?_whole (nonempty : whole ≠ []) (digits : ∀ c ∈ whole, c.isDigit = true) :
    readDecimal? whole = some ⟨valueOf whole, 0⟩ := by
  have run : whole.takeWhile Char.isDigit = whole := List.takeWhile_eq_self_iff.mpr digits
  have behind : whole.dropWhile Char.isDigit = [] := List.dropWhile_eq_nil_iff.mpr digits
  simp [readDecimal?, run, behind, nonempty, readExponent?]

theorem readDecimal?_point (nonempty : whole ≠ []) (digits : ∀ c ∈ whole, c.isDigit = true)
    (digits' : ∀ c ∈ fraction, c.isDigit = true) :
    readDecimal? (whole ++ '.' :: fraction) =
      some ⟨valueOf (whole ++ fraction), -(fraction.length : Int)⟩ := by
  have point : '.'.isDigit = false := by decide
  have run : (whole ++ '.' :: fraction).takeWhile Char.isDigit = whole := by
    rw [List.takeWhile_append_of_pos digits]
    simp [point]
  have behind : (whole ++ '.' :: fraction).dropWhile Char.isDigit = '.' :: fraction := by
    rw [List.dropWhile_append_of_pos digits]
    simp [point]
  have run' : fraction.takeWhile Char.isDigit = fraction :=
    List.takeWhile_eq_self_iff.mpr digits'
  have behind' : fraction.dropWhile Char.isDigit = [] := List.dropWhile_eq_nil_iff.mpr digits'
  simp [readDecimal?, run, behind, run', behind', nonempty, readExponent?]

/-- The digits of a decimal without places, with all its zeros. -/
def filled (d : Decimal) : List Char :=
  digits d.digits ++ if d.digits = 0 then [] else List.replicate d.exponent.toNat '0'

theorem isDigit_of_mem_filled (member : c ∈ filled d) : c.isDigit = true := by
  unfold filled at member
  rcases List.mem_append.mp member with own | zero
  · exact isDigit_of_mem_digits own
  · split at zero
    · simp at zero
    · rw [List.eq_of_mem_replicate zero]
      rfl

theorem valueOf_filled (d : Decimal) : valueOf (filled d) = d.whole := by
  unfold filled Decimal.whole
  split
  · rename_i zero
    simp [zero]
  · rw [valueOf_append_zeros, valueOf_digits]

theorem filled_ne_nil (d : Decimal) : filled d ≠ [] := by
  simp [filled, digits_ne_nil]

theorem positional_whole (whole : 0 ≤ d.exponent) : positional false d = filled d := by
  have places : (-d.exponent).toNat = 0 := by omega
  simp [positional, places, filled]

theorem digits_zero : digits 0 = ['0'] := by
  rw [digits]
  rfl

/-- Only zero has a zero in front of its digits. -/
theorem eq_zero_of_head_digits {n : Nat} (padded : (digits n).head? = some '0') : n = 0 := by
  induction n using digits.induct with
  | case1 n small =>
      have all : ∀ n < 10, digitChar n = '0' → n = 0 := by decide
      rw [digits, if_pos small] at padded
      exact all n small (Option.some.inj padded)
  | case2 n large ih =>
      rw [digits, if_neg large, List.head?_append_of_ne_nil _ (digits_ne_nil _)] at padded
      have lead := ih padded
      omega

/-- A decimal with places is written with a point, which has all of them behind it. -/
theorem positional_point (fractional : d.exponent < 0) :
    ∃ whole fraction, positional false d = whole ++ '.' :: fraction ∧ whole ≠ [] ∧
      (whole.head? = some '0' → whole = ['0']) ∧ (∀ c ∈ whole ++ fraction, c.isDigit = true) ∧
      valueOf (whole ++ fraction) = d.digits ∧ -(fraction.length : Int) = d.exponent := by
  have some : (-d.exponent).toNat ≠ 0 := by omega
  unfold positional
  simp only [if_neg some]
  by_cases inside : (-d.exponent).toNat < (digits d.digits).length
  · rw [if_pos inside]
    refine ⟨_, _, rfl, ?_, ?_, ?_, ?_, ?_⟩
    · intro empty
      have length := congrArg List.length empty
      simp at length
      omega
    · intro padded
      have front : (digits d.digits).length - (-d.exponent).toNat ≠ 0 := by omega
      rw [List.head?_take, if_neg front] at padded
      have single : (digits d.digits).length = 1 := by
        rw [eq_zero_of_head_digits padded, digits_zero]
        rfl
      omega
    · rw [List.take_append_drop]
      exact fun c => isDigit_of_mem_digits
    · rw [List.take_append_drop, valueOf_digits]
    · rw [List.length_drop]
      omega
  · rw [if_neg inside]
    refine ⟨['0'], List.replicate ((-d.exponent).toNat - (digits d.digits).length) '0' ++
      digits d.digits, rfl, by simp, fun _ => rfl, ?_, ?_, ?_⟩
    · intro c member
      simp only [List.mem_append, List.mem_singleton] at member
      rcases member with rfl | zero | own
      · rfl
      · rw [List.eq_of_mem_replicate zero]
        rfl
      · exact isDigit_of_mem_digits own
    · have zero : valueOf ['0'] = 0 := rfl
      rw [valueOf_append, zero, Nat.zero_mul, Nat.zero_add, valueOf_zeros_append, valueOf_digits]
    · rw [List.length_append, List.length_replicate]
      omega

/-- The positional text of a decimal is read with the value of the decimal. -/
theorem magnitude_positional (d : Decimal) :
    ∃ own, readDecimal? (positional false d) = some own ∧ own.magnitude = d.magnitude := by
  rcases Int.lt_or_le d.exponent 0 with fractional | whole
  · obtain ⟨whole, fraction, shape, nonempty, _, digits, value, places⟩ := positional_point fractional
    refine ⟨d, ?_, rfl⟩
    rw [shape, readDecimal?_point nonempty (fun c member => digits c (by simp [member]))
      (fun c member => digits c (by simp [member])), value, places]
  · refine ⟨⟨d.whole, 0⟩, ?_, ?_⟩
    · rw [positional_whole whole, readDecimal?_whole (filled_ne_nil d)
        (fun c => isDigit_of_mem_filled), valueOf_filled]
    · rw [Decimal.magnitude_of_whole whole, Decimal.magnitude_of_whole (Int.le_refl 0)]
      change Binary64.nearestMagnitude (_ * 1 * _) 1 = _
      rw [Nat.mul_one]
      rfl

theorem head_positional (d : Decimal) :
    ∃ c rest, positional false d = c :: rest ∧ c.isDigit = true := by
  rcases Int.lt_or_le d.exponent 0 with fractional | whole
  · obtain ⟨whole, fraction, shape, nonempty, _, digits, _⟩ := positional_point fractional
    obtain ⟨c, rest, own⟩ := List.exists_cons_of_ne_nil nonempty
    exact ⟨c, rest ++ '.' :: fraction, by rw [shape, own]; rfl, digits c (by simp [own])⟩
  · obtain ⟨c, rest, own⟩ := List.exists_cons_of_ne_nil (filled_ne_nil d)
    have member : c ∈ filled d := by simp [own]
    exact ⟨c, rest, (positional_whole whole).trans own, isDigit_of_mem_filled member⟩

/-! ## Signs -/

theorem toLower_of_isDigit (digit : c.isDigit = true) : c.toLower = c := by
  apply Char.toLower_eq_of_not_isUpper
  simp only [Char.isDigit, Char.isUpper, Bool.and_eq_true, decide_eq_true_eq,
    UInt32.le_iff_toNat_le] at digit ⊢
  have bounds : 'A'.val.toNat = 65 ∧ '9'.val.toNat = 57 := by decide
  omega

/-- A text that begins with a digit is no word, and the sign before it is the sign of the number. -/
theorem readBinary64?_signed (digit : c.isDigit = true) :
    readBinary64? (signed negative (c :: rest)).toList =
      (readDecimal? (c :: rest)).map (Decimal.toBinary negative) := by
  have split : splitSign (signed negative (c :: rest)).toList = (negative, c :: rest) := by
    cases negative
    · simp [signed, splitSign_of_digit digit]
    · simp [signed, splitSign]
  have notI : c ≠ 'i' := by rintro rfl; exact absurd digit (by decide)
  have notN : c ≠ 'n' := by rintro rfl; exact absurd digit (by decide)
  unfold readBinary64?
  rw [split]
  simp [toLower_of_isDigit digit, notI, notN]

theorem readInt?_signed (nonempty : text ≠ []) (digits : ∀ c ∈ text, c.isDigit = true) :
    readInt? (signed negative text).toList =
      some (if negative then -(valueOf text : Int) else valueOf text) := by
  have split : splitSign (signed negative text).toList = (negative, text) := by
    obtain ⟨c, rest, rfl⟩ := List.exists_cons_of_ne_nil nonempty
    cases negative
    · simp [signed, splitSign_of_digit (digits c (by simp))]
    · simp [signed, splitSign]
  simp [readInt?, split, readNat?_eq_some nonempty digits]

end Numeral

namespace Binary64

variable {x : Binary64}

theorem ofParts_self (x : Binary64) : ofParts x.isNegative x.magnitude = x := by
  have word : x.magnitude + (if x.isNegative then signBit else 0) = x.bits.toNat := by
    have size := x.bits.toNat_lt
    have half : signBit = 9223372036854775808 := by decide
    unfold magnitude isNegative
    rw [half]
    by_cases negative : 9223372036854775808 ≤ x.bits.toNat
    · simp only [negative, decide_true, if_true]
      omega
    · simp only [negative, decide_false, Bool.false_eq_true, if_false]
      omega
  rw [ofParts, word]
  simp

theorem units_eq (x : Binary64) : x.units = unitsOf x.magnitude := rfl

theorem nearestMagnitude_units (finite : x.isFinite = true) :
    nearestMagnitude x.units 1 = x.magnitude := by
  have own := nearestMagnitude_unitsOf (of_decide_eq_true finite) (show 0 < 1 by decide)
  rwa [Nat.mul_one, ← units_eq] at own

/-- Whether a number is written like an integer and in the range of one: a whole number from 10¹⁵
up to below 2⁶³, of either sign. -/
def isBare (x : Binary64) : Bool :=
  x.isWhole && Nat.pow 10 15 * unitsPerOne ≤ x.units && x.units < Nat.pow 2 63 * unitsPerOne

end Binary64

namespace Numeral

open Binary64

variable {x : Binary64}

theorem plain_of_isFinite (finite : x.isFinite = true) :
    plain x = signed x.isNegative (positional false (Decimal.shortest .upper x.magnitude)) := by
  have below : x.magnitude < infiniteMagnitude := of_decide_eq_true finite
  have number : x.isNaN = false ∧ x.isInfinite = false :=
    ⟨decide_eq_false (by omega), decide_eq_false (by omega)⟩
  simp [plain, number]

theorem readBinary64?_plain_of_isFinite (finite : x.isFinite = true) :
    readBinary64? (plain x).toList = some x := by
  obtain ⟨own, read, same⟩ := magnitude_positional (Decimal.shortest .upper x.magnitude)
  obtain ⟨c, rest, shape, digit⟩ := head_positional (Decimal.shortest .upper x.magnitude)
  rw [shape] at read
  rw [plain_of_isFinite finite, shape, readBinary64?_signed digit, read, Option.map_some, Decimal.toBinary, same,
    Decimal.magnitude_shortest .upper (of_decide_eq_true finite), ofParts_self]

theorem readBinary64?_pointed (whole : x.isWhole = true) :
    readBinary64? (signed x.isNegative (digits (x.units / unitsPerOne) ++ ['.', '0'])).toList =
      some x := by
  simp only [isWhole, Bool.and_eq_true, decide_eq_true_eq] at whole
  obtain ⟨finite, multiple⟩ := whole
  have units : x.units / unitsPerOne * unitsPerOne = x.units :=
    Nat.div_mul_cancel (Nat.dvd_of_mod_eq_zero multiple)
  generalize x.units / unitsPerOne = n at units ⊢
  have value : (⟨n * 10, -1⟩ : Decimal).magnitude = x.magnitude := by
    rw [Decimal.magnitude_shift,
      Decimal.magnitude_of_whole (show (0 : Int) ≤ -1 + 1 by decide)]
    change nearestMagnitude (n * 1 * unitsPerOne) 1 = _
    rw [Nat.mul_one, units, nearestMagnitude_units finite]
  have read : readDecimal? (digits n ++ ['.', '0']) = some ⟨n * 10, -1⟩ := by
    have zero : ∀ c ∈ ['0'], c.isDigit = true := by simp
    rw [readDecimal?_point (digits_ne_nil n) (fun c => isDigit_of_mem_digits) zero,
      valueOf_append, valueOf_digits]
    rfl
  obtain ⟨c, rest, shape⟩ := List.exists_cons_of_ne_nil (digits_ne_nil n)
  have digit : c.isDigit = true := isDigit_of_mem_digits (n := n) (by simp [shape])
  rw [shape, List.cons_append] at read ⊢
  rw [readBinary64?_signed digit, read, Option.map_some, Decimal.toBinary, value, ofParts_self]

theorem readBinary64?_infinity (negative : Bool) :
    readBinary64? (signed negative ['i', 'n', 'f']).toList = some (infinity negative) := by
  cases negative <;> rfl

/-- The plain text of a number is read as that number; all that is no number has one text. -/
theorem readBinary64?_plain (x : Binary64) :
    readBinary64? (plain x).toList = some (if x.isNaN then nan else x) := by
  by_cases number : x.isNaN = true
  · rw [plain, if_pos number, if_pos number]
    decide
  · by_cases infinite : x.isInfinite = true
    · have magnitude : x.magnitude = infiniteMagnitude := of_decide_eq_true infinite
      have own : infinity x.isNegative = x := by
        rw [infinity, ← magnitude, ofParts_self]
      rw [plain, if_neg number, if_neg number, if_pos infinite, readBinary64?_infinity, own]
    · have finite : x.isFinite = true := by
        simp only [isNaN, isInfinite, decide_eq_true_eq] at number infinite
        exact decide_eq_true (by omega)
      rw [if_neg number, readBinary64?_plain_of_isFinite finite]

/-- The text of a cell's number is read as that number. -/
theorem readBinary64?_withPoint (x : Binary64) :
    readBinary64? (withPoint x).toList = some (if x.isNaN then nan else x) := by
  by_cases pointed : x.isWhole = true ∧ x.units < Nat.pow 10 15 * unitsPerOne
  · have number : x.isNaN = false := by
      have finite : x.isFinite = true := by
        have whole := pointed.1
        rw [isWhole, Bool.and_eq_true] at whole
        exact whole.1
      have below : x.magnitude < infiniteMagnitude := of_decide_eq_true finite
      exact decide_eq_false (by omega)
    rw [withPoint, if_pos pointed, readBinary64?_pointed pointed.1, number]
    rfl
  · rw [withPoint, if_neg pointed, readBinary64?_plain]

/-! ## Integers -/

theorem readInt64?_point (member : '.' ∈ text) :
    readInt64? (signed negative text).toList = none := by
  have shown : '.' ∈ (signed negative text).toList := by
    cases negative <;> simp [signed, member]
  exact readInt64?_eq_none shown (by decide) (by decide) (by decide)

/-- A whole number is the text of an integer unless it is beyond the range of both signs, or is
2⁶³ itself. -/
theorem isSome_readInt64?_filled (d : Decimal) (notLimit : d.whole ≠ 2 ^ 63) :
    (readInt64? (signed negative (filled d)).toList).isSome = decide (d.whole < 2 ^ 63) := by
  have limits : Int64.minValue.toInt = -9223372036854775808 ∧
      Int64.maxValue.toInt = 9223372036854775807 := by decide
  rw [readInt64?, readInt?_signed (filled_ne_nil d) (fun c => isDigit_of_mem_filled),
    valueOf_filled, limits.1, limits.2, Option.bind_some]
  generalize d.whole = n at notLimit ⊢
  by_cases small : n < 2 ^ 63
  · have range : -9223372036854775808 ≤ (if negative then -(n : Int) else n) ∧
        (if negative then -(n : Int) else n) ≤ 9223372036854775807 := by
      split <;> omega
    rw [if_pos range, Option.isSome_some, decide_eq_true small]
  · have range : ¬ (-9223372036854775808 ≤ (if negative then -(n : Int) else n) ∧
        (if negative then -(n : Int) else n) ≤ 9223372036854775807) := by
      split <;> omega
    rw [if_neg range, Option.isSome_none, decide_eq_false small]

/-- A finite number other than zero has the text of an integer if it has no fraction and is below
2⁶³. -/
theorem isSome_readInt64?_plain (finite : x.isFinite = true) (nonzero : x.magnitude ≠ 0) :
    (readInt64? (plain x).toList).isSome =
      (x.isWhole && x.units < Nat.pow 2 63 * unitsPerOne) := by
  have magnitude : x.magnitude < infiniteMagnitude := of_decide_eq_true finite
  rw [plain_of_isFinite finite]
  by_cases whole : x.units % unitsPerOne = 0
  · have flat := Decimal.exponent_shortest_of_whole .upper magnitude nonzero
      (Nat.dvd_of_mod_eq_zero whole)
    obtain ⟨small, large⟩ := Decimal.whole_shortest magnitude flat
    change (x.units < 2 ^ 63 * unitsPerOne → _) at small
    change (2 ^ 63 * unitsPerOne ≤ x.units → _) at large
    have notLimit : (Decimal.shortest .upper x.magnitude).whole ≠ 2 ^ 63 := by
      rcases Nat.lt_or_ge x.units (2 ^ 63 * unitsPerOne) with below | reached
      · exact Nat.ne_of_lt (small below)
      · exact Nat.ne_of_gt (large reached)
    have range : (Decimal.shortest .upper x.magnitude).whole < 2 ^ 63 ↔
        x.units < Nat.pow 2 63 * unitsPerOne := by
      constructor
      · intro below
        rcases Nat.lt_or_ge x.units (2 ^ 63 * unitsPerOne) with own | reached
        · exact own
        · exact absurd (large reached) (Nat.not_lt_of_gt below)
      · exact small
    rw [positional_whole flat, isSome_readInt64?_filled _ notLimit, isWhole, finite, whole]
    simp only [decide_true, Bool.and_self, Bool.true_and, decide_eq_decide]
    exact range
  · have fractional := Decimal.exponent_shortest_of_not_whole .upper magnitude
      fun multiple => whole (Nat.mod_eq_zero_of_dvd multiple)
    obtain ⟨front, fraction, shape, _⟩ := positional_point fractional
    rw [shape, readInt64?_point (by simp)]
    simp [isWhole, whole]

/-- The text of a cell's number is that of an integer where it is bare. -/
theorem isSome_readInt64?_withPoint (x : Binary64) :
    (readInt64? (withPoint x).toList).isSome = x.isBare := by
  by_cases pointed : x.isWhole = true ∧ x.units < Nat.pow 10 15 * unitsPerOne
  · rw [withPoint, if_pos pointed, readInt64?_point (by simp)]
    simp [isBare, Nat.not_le.mpr pointed.2]
  · rw [withPoint, if_neg pointed]
    by_cases finite : x.isFinite = true
    · have nonzero : x.magnitude ≠ 0 := by
        intro zero
        have none : x.units = 0 := by
          rw [units_eq, zero]
          rfl
        refine pointed ⟨by simp [isWhole, finite, none], ?_⟩
        rw [none]
        exact Nat.mul_pos (by decide) unitsPerOne_pos
      rw [isSome_readInt64?_plain finite nonzero, isBare]
      cases whole : x.isWhole with
      | false => rfl
      | true =>
          have large : Nat.pow 10 15 * unitsPerOne ≤ x.units :=
            Nat.le_of_not_lt fun small => pointed ⟨whole, small⟩
          simp [large]
    · have notBare : x.isBare = false := by simp [isBare, isWhole, finite]
      rw [notBare, plain]
      split
      · rfl
      · have infinite : x.isInfinite = true := by
          rename_i number
          simp only [isFinite, isNaN, decide_eq_true_eq] at finite number
          exact decide_eq_true (by omega)
        rw [if_pos infinite]
        cases x.isNegative <;> rfl

end Numeral

end LinkedViews
