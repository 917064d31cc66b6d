import LinkedViews.Json.Lexeme
import LinkedViews.Proofs.Number.Json
import LinkedViews.Table.Cell

/-!
The number that a script makes of a text. White space around it does not count, blank text is zero;
besides decimals a script reads whole numbers in three other bases and a word for infinity, and
whatever else a text holds is no number. The texts of numbers in records are read as the numbers.
-/

namespace LinkedViews

namespace Browser

def isSpace (c : Char) : Bool := (Text.isBlank c && c.toNat ≠ 0x85) || c.toNat = 0xFEFF

def trim (text : List Char) : List Char :=
  (((text.dropWhile isSpace).reverse).dropWhile isSpace).reverse

def radix? : Char → Option Nat
  | 'x' => some 16
  | 'X' => some 16
  | 'o' => some 8
  | 'O' => some 8
  | 'b' => some 2
  | 'B' => some 2
  | _ => none

/-- The value of digits in a base; at least one is needed. -/
def readDigits? (radix : Nat) : List Char → Option Nat
  | [] => none
  | text => (text.mapM fun c => (Json.Reader.hexValue? c).filter (· < radix)).map fun digits =>
      digits.foldl (fun value digit => radix * value + digit) 0

/-- A whole number in another base than ten; it has no sign. -/
def readPrefixed? : List Char → Option Nat
  | '0' :: letter :: digits => (radix? letter).bind fun radix => readDigits? radix digits
  | _ => none

def infinityWord : List Char := ['I', 'n', 'f', 'i', 'n', 'i', 't', 'y']

/-- The number of a text without white space around it. -/
def readNumber? (text : List Char) : Option Binary64 :=
  match readPrefixed? text with
  | some value => some (.ofInt value)
  | none =>
    let (negative, rest) := Numeral.splitSign text
    if rest = infinityWord then some (.infinity negative)
    else (Numeral.readDecimal? rest).map (Decimal.toBinary negative)

def numberOfText (text : String) : Binary64 :=
  let trimmed := trim text.toList
  if trimmed = [] then .zero else (readNumber? trimmed).getD .nan

end Browser

namespace Browser

variable {c : Char} {text : List Char} {d : Decimal} {negative : Bool}

theorem trim_eq_self (solid : ∀ c ∈ text, isSpace c = false) : trim text = text := by
  have front : text.dropWhile isSpace = text := by
    cases text with
    | nil => rfl
    | cons c rest => simp [solid c List.mem_cons_self]
  have back : text.reverse.dropWhile isSpace = text.reverse := by
    cases shown : text.reverse with
    | nil => rfl
    | cons c rest =>
        have member : c ∈ text := List.mem_reverse.mp (shown ▸ List.mem_cons_self)
        simp [solid c member]
  rw [trim, front, back, List.reverse_reverse]

theorem isSpace_of_isFigure (figure : Numeral.isFigure c = true) : isSpace c = false := by
  rw [Numeral.isFigure, Bool.or_eq_true, decide_eq_true_eq] at figure
  obtain digit | sign := figure
  · have range : 48 ≤ c.toNat ∧ c.toNat ≤ 57 := (Char.isDigit_iff_toNat).mp digit
    simp only [isSpace, Text.isBlank, Bool.or_eq_false_iff, Bool.and_eq_false_iff,
      decide_eq_false_iff_not]
    omega
  · simp only [List.mem_cons, List.not_mem_nil, or_false] at sign
    obtain rfl | rfl | rfl | rfl := sign <;> decide

/-- The characters of numbers in records name no other base. -/
theorem readPrefixed?_figures (figures : ∀ c ∈ text, Numeral.isFigure c = true) :
    readPrefixed? text = none := by
  unfold readPrefixed?
  split
  · rename_i letter digits
    have figure := figures letter (by simp)
    have none : radix? letter = none := by
      unfold radix?
      split <;> first | rfl | exact absurd figure (by decide)
    rw [none]
    rfl
  · rfl

/-- A signed decimal is read as the number that it rounds to. -/
theorem numberOfText_signed (own : Numeral.IsFigures d text) :
    numberOfText (String.ofList (if negative then '-' :: text else text)) =
      .ofParts negative d.magnitude := by
  obtain ⟨decimal, read, same⟩ := own.read
  have figures : ∀ c ∈ if negative then '-' :: text else text, Numeral.isFigure c = true :=
    fun c => Numeral.isFigure_of_mem_signed own.figures
  have trimmed : trim (if negative then '-' :: text else text) =
      if negative then '-' :: text else text :=
    trim_eq_self fun c member => isSpace_of_isFigure (figures c member)
  cases text with
  | nil => exact absurd own.head (by simp)
  | cons c rest =>
      have digit : c.isDigit = true := own.head
      have split : Numeral.splitSign (if negative then '-' :: c :: rest else c :: rest) =
          (negative, c :: rest) := by
        cases negative
        · exact Numeral.splitSign_of_digit digit
        · rfl
      have noWord : c :: rest ≠ infinityWord := by
        intro same
        rw [(List.cons.inj same).1] at digit
        contradiction
      have nonempty : (if negative then '-' :: c :: rest else c :: rest) ≠ [] := by
        split <;> simp
      rw [numberOfText, String.toList_ofList, trimmed, if_neg nonempty, readNumber?,
        readPrefixed?_figures figures, split]
      simp only [if_neg noWord, read, Option.map_some, Decimal.toBinary, same, Option.getD_some]

theorem numberOfText_ofInt (value : Int) : numberOfText (Numeral.ofInt value) = .ofInt value := by
  rw [Numeral.ofInt_eq_signed, Numeral.signed,
    numberOfText_signed (Numeral.isFigures_digits value.natAbs),
    Decimal.magnitude_of_whole (Int.le_refl 0), Int.toNat_zero, Nat.pow_zero, Nat.mul_one]
  rfl

theorem numberOfText_json {x : Binary64} (finite : x.isFinite = true) :
    numberOfText (Numeral.json x) = x := by
  obtain ⟨text, shape, own⟩ := Numeral.exists_json x
  rw [shape, Numeral.signed, numberOfText_signed own,
    Decimal.magnitude_shortest .even (of_decide_eq_true finite), Binary64.ofParts_self]

/-! ## Texts that only scripts read -/

/-- Whether a text has a prefix of another base, or white space around it that counts as such only
for scripts, or only outside of them. -/
def IsForeign (text : String) : Prop :=
  trim text.toList ≠ Text.trim text.toList ∨ (readPrefixed? (trim text.toList)).isSome = true

instance (text : String) : Decidable (IsForeign text) :=
  inferInstanceAs (Decidable (_ ∨ _))

theorem head_of_readDecimal? {rest : List Char} (read : Numeral.readDecimal? (c :: rest) = some d) :
    c.isDigit = true ∨ c = '.' := by
  by_contra other
  obtain ⟨letter, point⟩ := not_or.mp other
  unfold Numeral.readDecimal? at read
  simp [letter, point] at read

theorem readBinary64?_of_readDecimal? {rest : List Char}
    (split : Numeral.splitSign text = (negative, rest))
    (read : Numeral.readDecimal? rest = some d) :
    Numeral.readBinary64? text = some (d.toBinary negative) := by
  cases rest with
  | nil => contradiction
  | cons c more =>
      have low : c.toLower ≠ 'i' ∧ c.toLower ≠ 'n' := by
        obtain digit | rfl := head_of_readDecimal? read
        · rw [Numeral.toLower_of_isDigit digit]
          constructor <;> rintro rfl <;> contradiction
        · decide
      unfold Numeral.readBinary64?
      rw [split]
      simp [low, read]

/-- What both read they read as the same number. -/
theorem numberOfText_eq {text : String} (common : ¬ IsForeign text)
    (number : (numberOfText text).isNaN = false) : Cell.numberOfText text = numberOfText text := by
  obtain ⟨trimmed, plain⟩ := not_or.mp common
  have same : Text.trim text.toList = trim text.toList := (not_not.mp trimmed).symm
  have decimal : readPrefixed? (trim text.toList) = none := by simpa using plain
  unfold numberOfText at number ⊢
  unfold Cell.numberOfText
  rw [same]
  by_cases blank : trim text.toList = []
  · rw [if_pos blank, if_pos blank]
  · rw [if_neg blank] at number
    rw [if_neg blank, if_neg blank]
    rw [readNumber?, decimal] at number ⊢
    dsimp only at number ⊢
    obtain ⟨negative, rest, sign⟩ : ∃ negative rest,
        Numeral.splitSign (trim text.toList) = (negative, rest) := ⟨_, _, rfl⟩
    rw [sign] at number ⊢
    dsimp only at number ⊢
    by_cases word : rest = infinityWord
    · have read : Numeral.readBinary64? (trim text.toList) = some (.infinity negative) := by
        unfold Numeral.readBinary64?
        rw [sign, word]
        rfl
      rw [if_pos word, read]
    · rw [if_neg word] at number ⊢
      cases read : Numeral.readDecimal? rest with
      | none =>
          rw [read] at number
          contradiction
      | some d =>
          rw [readBinary64?_of_readDecimal? sign read]
          rfl

end Browser

end LinkedViews
