import LinkedViews.Proofs.Number.Written

/-!
Numbers as they stand in records. The text of a finite number has a digit before anything but its
sign, and is read as a decimal that rounds to the number.
-/

namespace LinkedViews

-- Opened, the number of units in one is a numeral of a thousand bits.
attribute [local irreducible] Binary64.unitsPerOne

namespace Numeral

variable {c : Char} {d : Decimal}

/-! ## Shapes -/

theorem filled_of_head {d : Decimal} (padded : (filled d).head? = some '0') : filled d = ['0'] := by
  rw [filled, List.head?_append_of_ne_nil _ (digits_ne_nil _)] at padded
  rw [filled, eq_zero_of_head_digits padded, digits_zero]
  rfl

/-- With a point in any case, a decimal has digits on both sides of it, and before it a zero only
alone. -/
theorem positional_pointed (d : Decimal) :
    ∃ whole fraction, positional true d = whole ++ '.' :: fraction ∧ whole ≠ [] ∧
      fraction ≠ [] ∧ (whole.head? = some '0' → whole = ['0']) ∧
      (∀ c ∈ whole ++ fraction, c.isDigit = true) ∧
      (⟨valueOf (whole ++ fraction), -(fraction.length : Int)⟩ : Decimal).magnitude =
        d.magnitude := by
  rcases Int.lt_or_le d.exponent 0 with fractional | flat
  · obtain ⟨whole, fraction, shape, nonempty, unpadded, digits, value, places⟩ :=
      positional_point fractional
    have same : positional true d = positional false d := by
      have places : (-d.exponent).toNat ≠ 0 := by omega
      simp [positional, places]
    have behind : fraction ≠ [] := by
      rintro rfl
      rw [List.length_nil] at places
      omega
    exact ⟨whole, fraction, same.trans shape, nonempty, behind, unpadded, digits,
      by rw [value, places]⟩
  · have shape : positional true d = filled d ++ '.' :: ['0'] := by
      have places : (-d.exponent).toNat = 0 := by omega
      simp [positional, filled, places]
    refine ⟨filled d, ['0'], shape, filled_ne_nil d, by simp, filled_of_head, ?_, ?_⟩
    · intro c member
      rcases List.mem_append.mp member with own | zero
      · exact isDigit_of_mem_filled own
      · rw [List.mem_singleton.mp zero]
        rfl
    · have zero : valueOf ['0'] = 0 := rfl
      rw [valueOf_append, valueOf_filled, zero, List.length_singleton, Nat.add_zero, Nat.pow_one,
        Decimal.magnitude_shift, Decimal.magnitude_of_whole (show (0 : Int) ≤ -1 + 1 by decide),
        Decimal.magnitude_of_whole flat]
      change Binary64.nearestMagnitude (_ * 1 * _) 1 = _
      rw [Nat.mul_one]
      rfl

def exponentMark (power : Int) : List Char :=
  'e' :: (if power < 0 then '-' else '+') :: digits power.natAbs

theorem readExponent?_mark (power : Int) : readExponent? (exponentMark power) = some power := by
  rw [exponentMark, readExponent?]
  split
  · rename_i negative
    rw [readInt?_minus_digits]
    exact congrArg some (by omega)
  · have plus : readInt? ('+' :: digits power.natAbs) = some (power.natAbs : Int) := by
      simp [readInt?, splitSign, readNat?_digits]
    rw [plus]
    exact congrArg some (by omega)

/-- One digit, the others behind a point if there are others, and the exponent. -/
theorem scientific_shape (d : Decimal) :
    ∃ c rest, digits d.digits = c :: rest ∧
      scientific d = c :: ((if rest = [] then [] else '.' :: rest) ++
        exponentMark (d.exponent + rest.length)) := by
  cases shown : digits d.digits with
  | nil => exact absurd shown (digits_ne_nil _)
  | cons c rest =>
      refine ⟨c, rest, rfl, ?_⟩
      cases rest <;> simp [scientific, shown, exponentMark]

theorem readDecimal?_exponent {whole fraction : List Char} (nonempty : whole ≠ [])
    (own : ∀ c ∈ whole, c.isDigit = true) (behind : ∀ c ∈ fraction, c.isDigit = true)
    (power : Int) :
    readDecimal?
        (whole ++ ((if fraction = [] then [] else '.' :: fraction) ++ exponentMark power)) =
      some ⟨valueOf (whole ++ fraction), power - fraction.length⟩ := by
  have mark : readExponent? (exponentMark power) = some power := readExponent?_mark power
  have letter : 'e'.isDigit = false := by decide
  have point : '.'.isDigit = false := by decide
  by_cases flat : fraction = []
  · subst flat
    rw [if_pos rfl, List.nil_append, readDecimal?, List.takeWhile_append_of_pos own,
      List.dropWhile_append_of_pos own]
    simpa [exponentMark, letter, nonempty] using mark
  · have run : (fraction ++ exponentMark power).takeWhile Char.isDigit = fraction := by
      rw [List.takeWhile_append_of_pos behind]
      simp [exponentMark, letter]
    have rest : (fraction ++ exponentMark power).dropWhile Char.isDigit = exponentMark power := by
      rw [List.dropWhile_append_of_pos behind]
      simp [exponentMark, letter]
    rw [if_neg flat, readDecimal?, List.takeWhile_append_of_pos own,
      List.dropWhile_append_of_pos own]
    simp [point, nonempty, run, rest, mark]

theorem readDecimal?_scientific (d : Decimal) : readDecimal? (scientific d) = some d := by
  obtain ⟨c, rest, own, shape⟩ := scientific_shape d
  have value : valueOf (c :: rest) = d.digits := by rw [← own, valueOf_digits]
  have head : ∀ e ∈ [c], e.isDigit = true := by
    intro e member
    rw [List.mem_singleton.mp member]
    exact isDigit_of_mem_digits (own ▸ List.mem_cons_self)
  have tail : ∀ e ∈ rest, e.isDigit = true := fun e member =>
    isDigit_of_mem_digits (own ▸ List.mem_cons_of_mem c member)
  have read := readDecimal?_exponent (by simp) head tail (d.exponent + rest.length)
  rw [List.singleton_append, List.singleton_append, value] at read
  rw [shape, read, Int.add_sub_cancel]

/-! ## Numbers in records -/

/-- The characters of numbers in records. -/
def isFigure (c : Char) : Bool := c.isDigit || c ∈ ['-', '+', '.', 'e']

theorem isFigure_of_isDigit (digit : c.isDigit = true) : isFigure c = true := by
  simp [isFigure, digit]

theorem isFigure_of_mem_mark {power : Int} (member : c ∈ exponentMark power) :
    isFigure c = true := by
  rw [exponentMark, List.mem_cons, List.mem_cons] at member
  obtain rfl | rfl | own := member
  · rfl
  · split <;> rfl
  · exact isFigure_of_isDigit (isDigit_of_mem_digits own)

/-- What is written of a number behind its sign. -/
structure IsFigures (d : Decimal) (text : List Char) : Prop where
  head : text.head?.any Char.isDigit = true
  figures : ∀ c ∈ text, isFigure c = true
  read : ∃ own, readDecimal? text = some own ∧ own.magnitude = d.magnitude

theorem isFigures_positional (d : Decimal) : IsFigures d (positional true d) := by
  obtain ⟨whole, fraction, shape, nonempty, _, _, own, value⟩ := positional_pointed d
  have before : ∀ c ∈ whole, c.isDigit = true := fun c member => own c (by simp [member])
  have behind : ∀ c ∈ fraction, c.isDigit = true := fun c member => own c (by simp [member])
  rw [shape]
  refine ⟨?_, ?_, _, readDecimal?_point nonempty before behind, value⟩
  · obtain ⟨c, rest, rfl⟩ := List.exists_cons_of_ne_nil nonempty
    simp [before c List.mem_cons_self]
  · intro c member
    simp only [List.mem_append, List.mem_cons] at member
    obtain here | rfl | there := member
    · exact isFigure_of_isDigit (before c here)
    · rfl
    · exact isFigure_of_isDigit (behind c there)

theorem isFigures_scientific (d : Decimal) : IsFigures d (scientific d) := by
  refine ⟨?_, ?_, d, readDecimal?_scientific d, rfl⟩
  · obtain ⟨c, rest, own, shape⟩ := scientific_shape d
    have digit : c.isDigit = true := isDigit_of_mem_digits (own ▸ List.mem_cons_self)
    simp [shape, digit]
  · obtain ⟨first, rest, own, shape⟩ := scientific_shape d
    have tail : ∀ c ∈ rest, isFigure c = true := fun c member =>
      isFigure_of_isDigit (isDigit_of_mem_digits (own ▸ List.mem_cons_of_mem first member))
    intro c member
    rw [shape, List.mem_cons, List.mem_append] at member
    obtain rfl | point | mark := member
    · exact isFigure_of_isDigit (isDigit_of_mem_digits (own ▸ List.mem_cons_self))
    · split at point
      · contradiction
      · obtain rfl | behind := List.mem_cons.mp point
        · rfl
        · exact tail c behind
    · exact isFigure_of_mem_mark mark

theorem exists_json (x : Binary64) :
    ∃ text, json x = signed x.isNegative text ∧
      IsFigures (Decimal.shortest .even x.magnitude) text := by
  unfold json
  dsimp only
  split
  · exact ⟨_, rfl, isFigures_positional _⟩
  · exact ⟨_, rfl, isFigures_scientific _⟩

theorem isFigure_of_mem_signed {negative : Prop} [Decidable negative] {text : List Char}
    (figures : ∀ c ∈ text, isFigure c = true)
    (member : c ∈ if negative then '-' :: text else text) : isFigure c = true := by
  split at member
  · obtain rfl | own := List.mem_cons.mp member
    · rfl
    · exact figures c own
  · exact figures c member

theorem isFigure_of_mem_json {x : Binary64} (member : c ∈ (json x).toList) :
    isFigure c = true := by
  obtain ⟨text, shape, own⟩ := exists_json x
  rw [shape, signed, String.toList_ofList] at member
  exact isFigure_of_mem_signed own.figures member

theorem toList_ofInt (value : Int) :
    (ofInt value).toList =
      if value < 0 then '-' :: digits value.natAbs else digits value.natAbs := by
  unfold ofInt
  split <;> simp [ofNat]

theorem ofInt_eq_signed (value : Int) :
    ofInt value = signed (decide (value < 0)) (digits value.natAbs) := by
  rw [← String.ofList_toList (s := ofInt value), toList_ofInt, signed]
  simp only [decide_eq_true_eq]

theorem isFigures_digits (n : Nat) : IsFigures ⟨n, 0⟩ (digits n) := by
  refine ⟨?_, fun c member => isFigure_of_isDigit (isDigit_of_mem_digits member), ⟨n, 0⟩, ?_, rfl⟩
  · cases shown : digits n with
    | nil => exact absurd shown (digits_ne_nil n)
    | cons c rest => exact isDigit_of_mem_digits (shown ▸ List.mem_cons_self)
  · rw [readDecimal?_whole (digits_ne_nil n) fun c => isDigit_of_mem_digits, valueOf_digits]

theorem isFigure_of_mem_ofInt {value : Int} (member : c ∈ (ofInt value).toList) :
    isFigure c = true := by
  rw [toList_ofInt] at member
  exact isFigure_of_mem_signed (isFigures_digits _).figures member

end Numeral

end LinkedViews
