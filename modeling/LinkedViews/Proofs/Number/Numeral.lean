import Mathlib
import LinkedViews.Number.Numeral

/-!
Written numbers and their reading: digits give back the number they were made of, whatever zeros
stand in front of them, and a text with a character that belongs to no number is read as none.
-/

namespace LinkedViews.Numeral

variable {n k : Nat} {text shown rest : List Char} {c : Char}

theorem isDigit_digitChar {digit : Nat} (bound : digit < 10) :
    (digitChar digit).isDigit = true := by
  have all : ∀ digit < 10, (digitChar digit).isDigit = true := by decide
  exact all digit bound

theorem digitValue_digitChar {digit : Nat} (bound : digit < 10) :
    digitValue (digitChar digit) = digit := by
  have all : ∀ digit < 10, digitValue (digitChar digit) = digit := by decide
  exact all digit bound

theorem digits_ne_nil (n : Nat) : digits n ≠ [] := by
  rw [digits]
  split <;> simp

theorem isDigit_of_mem_digits (member : c ∈ digits n) : c.isDigit = true := by
  induction n using digits.induct with
  | case1 n small =>
      rw [digits, if_pos small, List.mem_singleton] at member
      exact member ▸ isDigit_digitChar small
  | case2 n large ih =>
      rw [digits, if_neg large, List.mem_append, List.mem_singleton] at member
      rcases member with front | rfl
      · exact ih front
      · exact isDigit_digitChar (Nat.mod_lt _ (by decide))

theorem foldl_digitValue (start : Nat) (text : List Char) :
    text.foldl (fun value c => 10 * value + digitValue c) start =
      start * 10 ^ text.length + valueOf text := by
  induction text generalizing start with
  | nil => simp [valueOf]
  | cons c rest ih =>
      have tail : valueOf (c :: rest) = digitValue c * 10 ^ rest.length + valueOf rest := by
        rw [valueOf, List.foldl_cons, ih]
        simp
      rw [List.foldl_cons, ih, tail, List.length_cons, Nat.pow_succ]
      rw [Nat.add_mul, Nat.mul_comm 10 start, Nat.mul_assoc start, Nat.mul_comm 10, Nat.add_assoc]

theorem valueOf_append (front back : List Char) :
    valueOf (front ++ back) = valueOf front * 10 ^ back.length + valueOf back := by
  rw [valueOf, List.foldl_append, foldl_digitValue]
  rfl

@[simp] theorem valueOf_digits (n : Nat) : valueOf (digits n) = n := by
  induction n using digits.induct with
  | case1 n small =>
      rw [digits, if_pos small]
      simp [valueOf, digitValue_digitChar small]
  | case2 n large ih =>
      rw [digits, if_neg large, valueOf_append, ih]
      have last : valueOf [digitChar (n % 10)] = n % 10 := by
        simp [valueOf, digitValue_digitChar (Nat.mod_lt n (show 10 > 0 by decide))]
      rw [last, List.length_singleton]
      omega

@[simp] theorem valueOf_replicate (k : Nat) : valueOf (List.replicate k '0') = 0 := by
  induction k with
  | zero => rfl
  | succ k ih =>
      have zero : valueOf ['0'] = 0 := rfl
      rw [List.replicate_succ, ← List.singleton_append, valueOf_append, ih, zero, Nat.zero_mul]

theorem valueOf_zeros_append (k : Nat) (text : List Char) :
    valueOf (List.replicate k '0' ++ text) = valueOf text := by
  simp [valueOf_append]

theorem valueOf_append_zeros (k : Nat) (text : List Char) :
    valueOf (text ++ List.replicate k '0') = valueOf text * 10 ^ k := by
  simp [valueOf_append]

theorem digitValue_lt (digit : c.isDigit = true) : digitValue c < 10 := by
  simp only [Char.isDigit, Bool.and_eq_true, decide_eq_true_eq, UInt32.le_iff_toNat_le] at digit
  have bounds : 48 ≤ c.toNat ∧ c.toNat ≤ 57 := digit
  have zero : '0'.toNat = 48 := rfl
  rw [digitValue, zero]
  omega

theorem valueOf_lt (allDigits : ∀ c ∈ text, c.isDigit = true) :
    valueOf text < 10 ^ text.length := by
  induction text with
  | nil => decide
  | cons c rest ih =>
      have first := digitValue_lt (allDigits c List.mem_cons_self)
      have later := ih fun d member => allDigits d (List.mem_cons_of_mem c member)
      have own : valueOf [c] = digitValue c := by simp [valueOf]
      rw [← List.singleton_append, valueOf_append, own, List.length_append, List.length_singleton,
        Nat.pow_add]
      calc digitValue c * 10 ^ rest.length + valueOf rest
        _ < digitValue c * 10 ^ rest.length + 10 ^ rest.length := Nat.add_lt_add_left later _
        _ = (digitValue c + 1) * 10 ^ rest.length := (Nat.succ_mul ..).symm
        _ ≤ 10 ^ 1 * 10 ^ rest.length := Nat.mul_le_mul_right _ first

/-- Leaving out the last digits divides by their power of ten. -/
theorem valueOf_take (allDigits : ∀ c ∈ text, c.isDigit = true) (k : Nat) :
    valueOf (text.take k) = valueOf text / 10 ^ (text.length - k) := by
  have back : valueOf (text.drop k) < 10 ^ (text.drop k).length :=
    valueOf_lt fun c member => allDigits c (List.mem_of_mem_drop member)
  have whole : valueOf text =
      valueOf (text.take k) * 10 ^ (text.drop k).length + valueOf (text.drop k) := by
    rw [← valueOf_append, List.take_append_drop]
  rw [whole, ← List.length_drop, Nat.add_comm, Nat.add_mul_div_right _ _ (Nat.pow_pos (by decide)),
    Nat.div_eq_of_lt back, Nat.zero_add]

theorem length_digits_le (small : n < 10 ^ k) (positive : 0 < k) : (digits n).length ≤ k := by
  induction n using digits.induct generalizing k with
  | case1 n below => simpa [digits, below] using Nat.succ_le_of_lt positive
  | case2 n large ih =>
      rw [digits, if_neg large, List.length_append, List.length_singleton]
      match k with
      | 1 => omega
      | k + 2 =>
          have shorter : n / 10 < 10 ^ (k + 1) := by
            rw [Nat.div_lt_iff_lt_mul (by decide), ← Nat.pow_succ]
            exact small
          exact Nat.succ_le_succ (ih shorter (Nat.succ_pos k))

theorem length_padLeft {width : Nat} (fits : shown.length ≤ width) :
    (padLeft width shown).length = width := by
  simp only [padLeft, List.length_append, List.length_replicate]
  omega

theorem valueOf_padLeft (width : Nat) : valueOf (padLeft width shown) = valueOf shown :=
  valueOf_zeros_append ..

theorem isDigit_of_mem_padLeft {width : Nat} (member : c ∈ padLeft width (digits n)) :
    c.isDigit = true := by
  rcases List.mem_append.mp member with zero | own
  · rw [List.eq_of_mem_replicate zero]
    rfl
  · exact isDigit_of_mem_digits own

/-! ## Whole numbers -/

theorem readNat?_eq_some (nonempty : text ≠ []) (allDigits : ∀ c ∈ text, c.isDigit = true) :
    readNat? text = some (valueOf text) :=
  if_pos ⟨nonempty, List.all_eq_true.mpr allDigits⟩

theorem readNat?_digits (n : Nat) : readNat? (digits n) = some n := by
  rw [readNat?_eq_some (digits_ne_nil n) fun c => isDigit_of_mem_digits, valueOf_digits]

/-- Nothing but a sign is split from the front. -/
theorem splitSign_of_digit (head : c.isDigit = true) :
    splitSign (c :: rest) = (false, c :: rest) := by
  have noMinus : c ≠ '-' := by rintro rfl; exact absurd head (by decide)
  have noPlus : c ≠ '+' := by rintro rfl; exact absurd head (by decide)
  simp [splitSign, noMinus, noPlus]

theorem splitSign_digits_append (n : Nat) (rest : List Char) :
    splitSign (digits n ++ rest) = (false, digits n ++ rest) := by
  cases shown : digits n with
  | nil => exact absurd shown (digits_ne_nil n)
  | cons c more => exact splitSign_of_digit (isDigit_of_mem_digits (n := n) (by simp [shown]))

theorem readInt?_digits (n : Nat) : readInt? (digits n) = some (n : Int) := by
  have signless := splitSign_digits_append n []
  rw [List.append_nil] at signless
  simp [readInt?, signless, readNat?_digits]

theorem readInt?_minus_digits (n : Nat) : readInt? ('-' :: digits n) = some (-(n : Int)) := by
  simp [readInt?, splitSign, readNat?_digits]

theorem readInt?_ofInt (value : Int) : readInt? (ofInt value).toList = some value := by
  unfold ofInt
  split
  · rename_i negative
    have letters : ("-" ++ ofNat value.natAbs).toList = '-' :: digits value.natAbs := by
      simp [ofNat]
    rw [letters, readInt?_minus_digits]
    exact congrArg some (by omega)
  · rename_i nonnegative
    rw [ofNat, String.toList_ofList, readInt?_digits]
    exact congrArg some (by omega)

theorem readInt64?_ofInt (value : Int64) : readInt64? (ofInt value.toInt).toList = some value := by
  have range : Int64.minValue.toInt ≤ value.toInt ∧ value.toInt ≤ Int64.maxValue.toInt :=
    ⟨value.minValue_le_toInt, value.toInt_le⟩
  rw [readInt64?, readInt?_ofInt]
  simp only [Option.bind_some, if_pos range, Int64.ofInt_toInt]

theorem readInt?_of_readInt64? {value : Int64} (read : readInt64? text = some value) :
    readInt? text = some value.toInt := by
  obtain ⟨whole, own, inRange⟩ := Option.bind_eq_some_iff.mp read
  split at inRange
  · rename_i range
    have below : whole < 2 ^ 63 := Int.lt_of_le_of_lt range.2 (by decide)
    rw [own, ← Option.some.inj inRange, Int64.toInt_ofInt_of_le range.1 below]
  · contradiction

/-! ## Texts that are no number -/

theorem mem_of_splitSign (member : c ∈ text) (noMinus : c ≠ '-') (noPlus : c ≠ '+') :
    c ∈ (splitSign text).2 := by
  unfold splitSign
  split
  · simpa [noMinus] using member
  · simpa [noPlus] using member
  · exact member

theorem readNat?_eq_none (member : c ∈ text) (strange : c.isDigit = false) :
    readNat? text = none := by
  refine if_neg fun ⟨_, allDigits⟩ => ?_
  rw [List.all_eq_true.mp allDigits c member] at strange
  contradiction

theorem readInt?_eq_none (member : c ∈ text) (strange : c.isDigit = false) (noMinus : c ≠ '-')
    (noPlus : c ≠ '+') : readInt? text = none := by
  simp [readInt?, readNat?_eq_none (mem_of_splitSign member noMinus noPlus) strange]

theorem readInt64?_eq_none (member : c ∈ text) (strange : c.isDigit = false) (noMinus : c ≠ '-')
    (noPlus : c ≠ '+') : readInt64? text = none := by
  simp [readInt64?, readInt?_eq_none member strange noMinus noPlus]

theorem mem_dropWhile_isDigit (member : c ∈ text) (strange : c.isDigit = false) :
    c ∈ text.dropWhile Char.isDigit := by
  rw [← List.takeWhile_append_dropWhile (p := Char.isDigit) (l := text), List.mem_append] at member
  rcases member with front | back
  · rw [List.all_eq_true.mp List.all_takeWhile c front] at strange
    contradiction
  · exact back

theorem readExponent?_eq_none (member : c ∈ text) (strange : c.isDigit = false) (noMinus : c ≠ '-')
    (noPlus : c ≠ '+') (noExponent : c ≠ 'e' ∧ c ≠ 'E') : readExponent? text = none := by
  unfold readExponent?
  split
  · simp at member
  · exact readInt?_eq_none (by simpa [noExponent] using member) strange noMinus noPlus
  · exact readInt?_eq_none (by simpa [noExponent] using member) strange noMinus noPlus
  · rfl

/-- Wherever it stands, a character that is part of no number leaves none. -/
theorem readDecimal?_eq_none (member : c ∈ text) (strange : c.isDigit = false) (noPoint : c ≠ '.')
    (noMinus : c ≠ '-') (noPlus : c ≠ '+') (noExponent : c ≠ 'e' ∧ c ≠ 'E') :
    readDecimal? text = none := by
  have behindWhole := mem_dropWhile_isDigit member strange
  have unread {rest : List Char} (member : c ∈ rest) : readExponent? rest = none :=
    readExponent?_eq_none member strange noMinus noPlus noExponent
  unfold readDecimal?
  cases after : text.dropWhile Char.isDigit with
  | nil => simp [after] at behindWhole
  | cons point tail =>
      rw [after] at behindWhole
      by_cases dotted : point = '.'
      · subst dotted
        have behindFraction : c ∈ tail.dropWhile Char.isDigit :=
          mem_dropWhile_isDigit (by simpa [noPoint] using behindWhole) strange
        simp [unread behindFraction]
      · simp [dotted, unread behindWhole]

theorem readBinary64?_eq_none (member : ':' ∈ text) : readBinary64? text = none := by
  have behindSign := mem_of_splitSign member (by decide) (by decide)
  have lower : ':' ∈ (splitSign text).2.map Char.toLower :=
    List.mem_map.mpr ⟨':', behindSign, by decide⟩
  unfold readBinary64?
  simp only
  split
  · rename_i word
    rw [word] at lower
    exact absurd lower (by decide)
  · rename_i word
    rw [word] at lower
    exact absurd lower (by decide)
  · rename_i word
    rw [word] at lower
    exact absurd lower (by decide)
  · rw [readDecimal?_eq_none behindSign (by decide) (by decide) (by decide) (by decide) (by decide)]
    rfl

end LinkedViews.Numeral
