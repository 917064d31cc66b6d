import LinkedViews.Proofs.Browser.Accessor
import LinkedViews.Proofs.Table.RecordsText

/-!
Which texts a table and a script read as the same number. Both trim a text, and take what is left
for a decimal or for a word; but they differ in two characters of white space, in the spellings of
infinity, and in numbers with another base than ten.
-/

namespace LinkedViews

/-! ## White space at the ends -/

namespace Text

variable {p q : Char → Bool} {front text back : List Char}

def trimBy (p : Char → Bool) (text : List Char) : List Char :=
  (((text.dropWhile p).reverse).dropWhile p).reverse

/-- Whether a text neither begins nor ends with a character of a kind. -/
structure IsTrimmed (p : Char → Bool) (text : List Char) : Prop where
  first : ∀ c ∈ text.head?, p c = false
  last : ∀ c ∈ text.getLast?, p c = false

theorem dropWhile_append (before : ∀ c ∈ front, p c = true) (first : ∀ c ∈ text.head?, p c = false) :
    (front ++ text).dropWhile p = text := by
  rw [List.dropWhile_append_of_pos before]
  cases text with
  | nil => rfl
  | cons c rest => rw [List.dropWhile_cons_of_neg (by simp [first c rfl])]

theorem trimBy_append (before : ∀ c ∈ front, p c = true) (behind : ∀ c ∈ back, p c = true)
    (trimmed : IsTrimmed p text) : trimBy p (front ++ text ++ back) = text := by
  by_cases empty : text = []
  · have all : ∀ c ∈ front ++ back, p c = true := fun c member =>
      (List.mem_append.mp member).elim (before c) (behind c)
    rw [empty, List.append_nil, trimBy, List.dropWhile_eq_nil_iff.mpr all]
    rfl
  · obtain ⟨c, rest, rfl⟩ := List.exists_cons_of_ne_nil empty
    have start : (front ++ (c :: rest) ++ back).dropWhile p = c :: rest ++ back := by
      rw [List.append_assoc]
      exact dropWhile_append before trimmed.first
    have finish : (back.reverse ++ (c :: rest).reverse).dropWhile p = (c :: rest).reverse := by
      apply dropWhile_append
      · exact fun d member => behind d (List.mem_reverse.mp member)
      · rw [List.head?_reverse]
        exact trimmed.last
    rw [trimBy, start, List.reverse_append, finish, List.reverse_reverse]

theorem head_dropWhile (p : Char → Bool) (text : List Char) :
    ∀ c ∈ (text.dropWhile p).head?, p c = false := by
  intro c first
  have stops := List.head?_dropWhile_not p text
  rw [Option.mem_def.mp first] at stops
  simpa using stops

/-- What is trimmed off is white space, and what remains has none at its ends. -/
theorem exists_trimBy (p : Char → Bool) (text : List Char) :
    ∃ front back, text = front ++ trimBy p text ++ back ∧ (∀ c ∈ front, p c = true) ∧
      (∀ c ∈ back, p c = true) ∧ IsTrimmed p (trimBy p text) := by
  have all (rest : List Char) : ∀ c ∈ rest.takeWhile p, p c = true :=
    List.all_eq_true.mp List.all_takeWhile
  obtain ⟨core, start⟩ : ∃ core, core = text.dropWhile p := ⟨_, rfl⟩
  have split : core = trimBy p text ++ (core.reverse.takeWhile p).reverse := by
    rw [trimBy, ← start, ← List.reverse_append, List.takeWhile_append_dropWhile,
      List.reverse_reverse]
  have last : ∀ c ∈ (trimBy p text).getLast?, p c = false := by
    rw [trimBy, List.getLast?_reverse]
    exact head_dropWhile p _
  have first : ∀ c ∈ (trimBy p text).head?, p c = false := by
    intro c here
    apply head_dropWhile p text c
    rw [← start, split, List.head?_append, Option.mem_def.mp here]
    rfl
  refine ⟨text.takeWhile p, (core.reverse.takeWhile p).reverse, ?_, all text, ?_, first, last⟩
  · rw [List.append_assoc, ← split, start, List.takeWhile_append_dropWhile]
  · exact fun c member => all _ c (List.mem_reverse.mp member)

/-- Two kinds of white space trim a text alike unless one of them leaves a character that the other
one takes. -/
theorem trimBy_congr (kept : ∀ c ∈ trimBy p text, q c = true → p c = true)
    (left : ∀ c ∈ trimBy q text, p c = true → q c = true) : trimBy p text = trimBy q text := by
  -- Both are what remains when the characters of either kind are trimmed off.
  have own {p q : Char → Bool} (kept : ∀ c ∈ trimBy p text, q c = true → p c = true) :
      trimBy (fun c => p c || q c) text = trimBy p text := by
    obtain ⟨front, back, shape, before, behind, trimmed⟩ := exists_trimBy p text
    have solid {c : Char} (inside : c ∈ trimBy p text) (other : p c = false) :
        (p c || q c) = false := by
      rw [other, Bool.false_or]
      by_contra space
      rw [kept c inside (by simpa using space)] at other
      contradiction
    have both : IsTrimmed (fun c => p c || q c) (trimBy p text) :=
      ⟨fun c first => solid (List.mem_of_mem_head? first) (trimmed.first c first),
        fun c last => solid (List.mem_of_mem_getLast? last) (trimmed.last c last)⟩
    have joined := trimBy_append (p := fun c => p c || q c)
      (fun c member => by rw [before c member, Bool.true_or])
      (fun c member => by rw [behind c member, Bool.true_or]) both
    rwa [← shape] at joined
  have other := own left
  simp only [Bool.or_comm] at other
  rw [← own kept, ← other]

end Text

namespace Binary64

theorem isNaN_ofParts (negative : Bool) {m : Nat} (most : m ≤ infiniteMagnitude) :
    (ofParts negative m).isNaN = false := by
  have limit : infiniteMagnitude < signBit := by decide
  have own := (magnitude_ofParts negative (Nat.lt_of_le_of_lt most limit)).1
  rw [isNaN, own]
  exact decide_eq_false (Nat.not_lt.mpr most)

theorem isNaN_ofInt (value : Int) : (ofInt value).isNaN = false :=
  isNaN_ofParts _ (Nat.min_le_left ..)

end Binary64

theorem Decimal.isNaN_toBinary (negative : Bool) (d : Decimal) :
    (d.toBinary negative).isNaN = false := by
  apply Binary64.isNaN_ofParts
  unfold magnitude
  split
  · exact Nat.zero_le _
  · split
    · exact Nat.le_refl _
    · split
      · exact Nat.zero_le _
      · exact Nat.min_le_left ..

/-! ## Numbers of trimmed texts -/

namespace Browser

variable {c : Char} {text : List Char}

/-- Whether two numbers are the same to a script, to which all that are none are one. -/
def SameNumber (x y : Binary64) : Prop := x = y ∨ (x.isNaN = true ∧ y.isNaN = true)

instance (x y : Binary64) : Decidable (SameNumber x y) :=
  inferInstanceAs (Decidable (_ ∨ _))

/-- The number that a table makes of a text without white space around it. -/
def ownNumber (text : List Char) : Binary64 :=
  if text = [] then .zero else (Numeral.readBinary64? text).getD .nan

/-- The number that a script makes of a text without white space around it. -/
def scriptNumber (text : List Char) : Binary64 :=
  if text = [] then .zero else (readNumber? text).getD .nan

/-- Whether a text is blank, a decimal or the word for infinity, either of them with a sign or
without one. -/
def IsPlain (text : List Char) : Prop :=
  text = [] ∨ (Numeral.splitSign text).2 = infinityWord ∨
    (Numeral.readDecimal? (Numeral.splitSign text).2).isSome = true

/-- Whether a text is a word for infinity that is none in scripts: they know a single spelling. -/
def IsOwnWord (text : List Char) : Prop :=
  (Numeral.splitSign text).2.map Char.toLower ∈ [['i', 'n', 'f'], infinityWord.map Char.toLower] ∧
    (Numeral.splitSign text).2 ≠ infinityWord

instance (text : List Char) : Decidable (IsPlain text) :=
  inferInstanceAs (Decidable (_ ∨ _))

instance (text : List Char) : Decidable (IsOwnWord text) :=
  inferInstanceAs (Decidable (_ ∧ _))

theorem isNaN_nan : Binary64.nan.isNaN = true := by decide

theorem exists_prefixed (foreign : (readPrefixed? text).isSome = true) :
    ∃ letter digits, text = '0' :: letter :: digits ∧
      letter ∈ ['x', 'X', 'o', 'O', 'b', 'B'] := by
  unfold readPrefixed? at foreign
  split at foreign
  · rename_i letter digits
    refine ⟨letter, digits, rfl, ?_⟩
    cases base : radix? letter with
    | none =>
        rw [base] at foreign
        contradiction
    | some _ =>
        unfold radix? at base
        split at base <;> simp_all
  · contradiction

theorem not_isPlain_of_prefixed (foreign : (readPrefixed? text).isSome = true) :
    ¬ IsPlain text ∧ ¬ IsOwnWord text := by
  obtain ⟨letter, digits, rfl, base⟩ := exists_prefixed foreign
  have unsigned : Numeral.splitSign ('0' :: letter :: digits) = (false, '0' :: letter :: digits) :=
    rfl
  have strange : ∀ c ∈ ['x', 'X', 'o', 'O', 'b', 'B'], c.isDigit = false ∧ c ≠ '.' ∧ c ≠ '-' ∧
      c ≠ '+' ∧ c ≠ 'e' ∧ c ≠ 'E' := by
    simp
  obtain ⟨noDigit, noPoint, noMinus, noPlus, noExponent⟩ := strange letter base
  have unread : Numeral.readDecimal? ('0' :: letter :: digits) = none :=
    Numeral.readDecimal?_eq_none (by simp) noDigit noPoint noMinus noPlus noExponent
  refine ⟨?_, ?_⟩
  · rintro (blank | word | decimal)
    · exact List.cons_ne_nil _ _ blank
    · rw [unsigned] at word
      exact absurd (List.cons.inj word).1 (by decide)
    · rw [unsigned, unread] at decimal
      exact Bool.false_ne_true decimal
  · rintro ⟨word, _⟩
    rw [unsigned] at word
    simp [infinityWord] at word

theorem not_isPlain_of_isOwnWord (own : IsOwnWord text) : ¬ IsPlain text := by
  obtain ⟨word, other⟩ := own
  obtain ⟨rest, behind⟩ : ∃ rest, rest = (Numeral.splitSign text).2 := ⟨_, rfl⟩
  rw [← behind] at word other
  rintro (blank | same | decimal)
  · rw [behind, blank] at word
    simp [Numeral.splitSign, infinityWord] at word
  · exact other (behind.trans same)
  · rw [← behind] at decimal
    cases rest with
    | nil => simp [infinityWord] at word
    | cons c more =>
        obtain ⟨d, read⟩ := Option.isSome_iff_exists.mp decimal
        have low : c.toLower = 'i' := by
          simp only [infinityWord, List.map_cons, List.map_nil, List.mem_cons, List.not_mem_nil,
            or_false, List.cons.injEq] at word
          exact word.elim (·.1) (fun long => long.1.trans (by decide))
        obtain digit | rfl := head_of_readDecimal? read
        · rw [Numeral.toLower_of_isDigit digit] at low
          rw [low] at digit
          contradiction
        · contradiction

/-- What is plain is read alike. -/
theorem ownNumber_of_isPlain (plain : IsPlain text) :
    ownNumber text = scriptNumber text ∧ (scriptNumber text).isNaN = false := by
  have decimalOnly : readPrefixed? text = none := by
    by_contra foreign
    exact (not_isPlain_of_prefixed (Option.isSome_iff_ne_none.mpr foreign)).1 plain
  by_cases blank : text = []
  · rw [ownNumber, scriptNumber, if_pos blank, if_pos blank]
    exact ⟨rfl, by decide⟩
  · obtain ⟨negative, rest, sign⟩ : ∃ negative rest, Numeral.splitSign text = (negative, rest) :=
      ⟨_, _, rfl⟩
    rw [IsPlain, sign] at plain
    rw [ownNumber, scriptNumber, if_neg blank, if_neg blank, readNumber?, decimalOnly, sign]
    by_cases word : rest = infinityWord
    · have read : Numeral.readBinary64? text = some (.infinity negative) := by
        unfold Numeral.readBinary64?
        rw [sign, word]
        rfl
      simp only [read, if_pos word, Option.getD_some, true_and]
      exact Binary64.isNaN_ofParts negative (Nat.le_refl _)
    · obtain ⟨d, read⟩ : ∃ d, Numeral.readDecimal? rest = some d :=
        Option.isSome_iff_exists.mp ((plain.resolve_left blank).resolve_left word)
      simp only [readBinary64?_of_readDecimal? sign read, if_neg word, read, Option.map_some,
        Option.getD_some, true_and]
      exact d.isNaN_toBinary negative

theorem isNaN_ownNumber_of_isOwnWord (own : IsOwnWord text) : (ownNumber text).isNaN = false := by
  have nonempty : text ≠ [] := by
    rintro rfl
    exact absurd own.1 (by decide)
  have read : Numeral.readBinary64? text = some (.infinity (Numeral.splitSign text).1) := by
    obtain short | long := List.mem_pair.mp own.1
    · unfold Numeral.readBinary64?
      simp only [short]
    · unfold Numeral.readBinary64?
      simp only [long, infinityWord]
      rfl
  rw [ownNumber, if_neg nonempty, read]
  exact Binary64.isNaN_ofParts _ (Nat.le_refl _)

theorem isNaN_ownNumber (strange : ¬ IsPlain text) (noWord : ¬ IsOwnWord text) :
    (ownNumber text).isNaN = true := by
  obtain ⟨blank, word, decimal⟩ := not_or.mp strange |>.imp_right not_or.mp
  have unread : Numeral.readDecimal? (Numeral.splitSign text).2 = none := by simpa using decimal
  have noInfinity : ¬ (Numeral.splitSign text).2.map Char.toLower ∈
      [['i', 'n', 'f'], infinityWord.map Char.toLower] := fun member => noWord ⟨member, word⟩
  rw [ownNumber, if_neg blank]
  unfold Numeral.readBinary64?
  dsimp only
  split
  · rename_i short
    exact absurd (List.mem_pair.mpr (.inl short)) noInfinity
  · rename_i long
    exact absurd (List.mem_pair.mpr (.inr long)) noInfinity
  · cases (Numeral.splitSign text).1 <;> decide
  · rw [unread]
    exact isNaN_nan

theorem isNaN_scriptNumber_of_prefixed (foreign : (readPrefixed? text).isSome = true) :
    (scriptNumber text).isNaN = false := by
  obtain ⟨value, read⟩ := Option.isSome_iff_exists.mp foreign
  have nonempty : text ≠ [] := by
    rintro rfl
    contradiction
  rw [scriptNumber, if_neg nonempty, readNumber?, read]
  exact Binary64.isNaN_ofInt value

theorem isNaN_scriptNumber (strange : ¬ IsPlain text) (base : (readPrefixed? text).isSome = false) :
    (scriptNumber text).isNaN = true := by
  obtain ⟨blank, word, decimal⟩ := not_or.mp strange |>.imp_right not_or.mp
  have unread : Numeral.readDecimal? (Numeral.splitSign text).2 = none := by simpa using decimal
  have unprefixed : readPrefixed? text = none := by simpa using base
  rw [scriptNumber, if_neg blank, readNumber?, unprefixed]
  simp only [if_neg word, unread]
  exact isNaN_nan

/-! ## Texts that are read differently -/

/-- Whether only one side takes a character for white space. -/
def IsDisputed (c : Char) : Prop := Text.isBlank c ≠ isSpace c

theorem mem_of_isDisputed (disputed : IsDisputed c) : c ∈ ['\u0085', '\uFEFF'] := by
  by_contra other
  obtain ⟨line, mark⟩ : c.toNat ≠ 0x85 ∧ c.toNat ≠ 0xFEFF := by
    constructor <;> intro code <;> rw [← Char.ofNat_toNat c, code] at other <;> simp at other
  exact disputed (by simp [isSpace, line, mark])

theorem readDigits?_eq_none {radix : Nat} (member : c ∈ text)
    (unknown : Json.Reader.hexValue? c = none) : readDigits? radix text = none := by
  have none : text.mapM (fun c => (Json.Reader.hexValue? c).filter (· < radix)) = none := by
    induction text with
    | nil => simp at member
    | cons d rest ih =>
        rw [List.mapM_cons]
        obtain rfl | later := List.mem_cons.mp member
        · rw [unknown]
          rfl
        · rw [ih later]
          cases (Json.Reader.hexValue? d).filter (· < radix) <;> rfl
  unfold readDigits?
  split
  · rfl
  · rw [none]
    rfl

/-- A text that holds such a character is no number on either side. -/
theorem strange_of_isDisputed (member : c ∈ text) (disputed : IsDisputed c) :
    ¬ IsPlain text ∧ ¬ IsOwnWord text ∧ (readPrefixed? text).isSome = false := by
  have place := mem_of_isDisputed disputed
  have figures : ∀ c ∈ ['\u0085', '\uFEFF'], c.isDigit = false ∧ c ≠ '.' ∧ c ≠ '-' ∧ c ≠ '+' ∧
      c ≠ 'e' ∧ c ≠ 'E' := by
    simp
  have letters : ∀ c ∈ ['\u0085', '\uFEFF'], c.toLower = c ∧ c ∉ infinityWord ∧
      c ∉ infinityWord.map Char.toLower ∧ c ∉ ['i', 'n', 'f'] := by
    simp [infinityWord]
  have digits : ∀ c ∈ ['\u0085', '\uFEFF'], Json.Reader.hexValue? c = none ∧ c ≠ '0' ∧
      c ∉ ['x', 'X', 'o', 'O', 'b', 'B'] := by
    simp [Json.Reader.hexValue?]
  obtain ⟨noDigit, noPoint, noMinus, noPlus, noExponent⟩ := figures c place
  obtain ⟨same, noWord, noLower, noShort⟩ := letters c place
  obtain ⟨noHex, noZero, noBase⟩ := digits c place
  have behind : c ∈ (Numeral.splitSign text).2 := Numeral.mem_of_splitSign member noMinus noPlus
  refine ⟨?_, ?_, ?_⟩
  · rintro (blank | word | decimal)
    · rw [blank] at member
      exact List.not_mem_nil member
    · exact noWord (word ▸ behind)
    · rw [Numeral.readDecimal?_eq_none behind noDigit noPoint noMinus noPlus noExponent] at decimal
      exact Bool.false_ne_true decimal
  · rintro ⟨word, _⟩
    have lower : c ∈ (Numeral.splitSign text).2.map Char.toLower :=
      List.mem_map.mpr ⟨c, behind, same⟩
    obtain short | long := List.mem_pair.mp word
    · exact noShort (short ▸ lower)
    · exact noLower (long ▸ lower)
  · by_contra foreign
    obtain ⟨letter, rest, rfl, base⟩ := exists_prefixed (Bool.eq_true_of_not_eq_false foreign)
    have inside : c ∈ rest := by
      obtain zero | letterOr := List.mem_cons.mp member
      · exact absurd zero noZero
      · obtain rfl | later := List.mem_cons.mp letterOr
        · exact absurd base noBase
        · exact later
    apply foreign
    rw [readPrefixed?]
    cases radix? letter with
    | none => rfl
    | some radix => rw [Option.bind_some, readDigits?_eq_none inside noHex]; rfl

/-- Where the two sides trim a text differently, one of them is left without a number. -/
theorem exists_isDisputed (other : Text.trim text ≠ trim text) :
    (∃ c ∈ Text.trim text, IsDisputed c) ∨ ∃ c ∈ trim text, IsDisputed c := by
  by_contra agreed
  obtain ⟨own, script⟩ := not_or.mp agreed
  have same (trimmed : List Char) (none : ¬ ∃ c ∈ trimmed, IsDisputed c) :
      ∀ c ∈ trimmed, Text.isBlank c = isSpace c := by
    intro c member
    by_contra disputed
    exact none ⟨c, member, disputed⟩
  apply other
  apply Text.trimBy_congr (p := Text.isBlank) (q := isSpace)
  · intro c member space
    rw [same _ own c member, space]
  · intro c member blank
    rw [← same _ script c member, blank]

/-- Whether a table and a script read a text as different numbers: as a number of another base, as
a word that only the table knows, or as a number with white space that only one of them trims. -/
def IsMisread (text : List Char) : Prop :=
  (readPrefixed? (trim text)).isSome = true ∨ IsOwnWord (Text.trim text) ∨
    (Text.trim text ≠ trim text ∧ (IsPlain (Text.trim text) ∨ IsPlain (trim text)))

instance (text : List Char) : Decidable (IsMisread text) :=
  inferInstanceAs (Decidable (_ ∨ _))

theorem sameNumber_iff {x y : Binary64} (mixed : x.isNaN = true ∨ y.isNaN = true) :
    SameNumber x y ↔ x.isNaN = true ∧ y.isNaN = true := by
  refine ⟨?_, .inr⟩
  rintro (rfl | both)
  · exact ⟨mixed.elim id id, mixed.elim id id⟩
  · exact both

theorem isNaN_ownNumber_iff :
    (ownNumber text).isNaN = true ↔ ¬ (IsPlain text ∨ IsOwnWord text) := by
  constructor
  · rintro number (plain | word)
    · rw [(ownNumber_of_isPlain plain).1, (ownNumber_of_isPlain plain).2] at number
      contradiction
    · rw [isNaN_ownNumber_of_isOwnWord word] at number
      contradiction
  · intro neither
    exact isNaN_ownNumber (fun plain => neither (.inl plain)) fun word => neither (.inr word)

theorem isNaN_scriptNumber_iff :
    (scriptNumber text).isNaN = true ↔
      ¬ (IsPlain text ∨ (readPrefixed? text).isSome = true) := by
  constructor
  · rintro number (plain | foreign)
    · rw [(ownNumber_of_isPlain plain).2] at number
      contradiction
    · rw [isNaN_scriptNumber_of_prefixed foreign] at number
      contradiction
  · intro neither
    exact isNaN_scriptNumber (fun plain => neither (.inl plain))
      (Bool.eq_false_of_not_eq_true fun foreign => neither (.inr foreign))

theorem sameNumber_trimmed (text : List Char) :
    SameNumber (ownNumber text) (scriptNumber text) ↔
      ¬ ((readPrefixed? text).isSome = true ∨ IsOwnWord text) := by
  by_cases plain : IsPlain text
  · refine iff_of_true (.inl (ownNumber_of_isPlain plain).1) ?_
    rintro (foreign | own)
    · exact (not_isPlain_of_prefixed foreign).1 plain
    · exact not_isPlain_of_isOwnWord own plain
  · have mixed : (ownNumber text).isNaN = true ∨ (scriptNumber text).isNaN = true := by
      rw [isNaN_ownNumber_iff, isNaN_scriptNumber_iff]
      by_cases foreign : (readPrefixed? text).isSome = true
      · exact .inl fun other => other.elim plain (not_isPlain_of_prefixed foreign).2
      · exact .inr fun other => other.elim plain foreign
    rw [sameNumber_iff mixed, isNaN_ownNumber_iff, isNaN_scriptNumber_iff]
    simp only [plain, false_or]
    rw [and_comm, not_or]

/-- A table reads a text as another number than a script in exactly the ways that are listed. -/
theorem sameNumber_numberOfText (text : String) :
    SameNumber (Cell.numberOfText text) (numberOfText text) ↔ ¬ IsMisread text.toList := by
  change SameNumber (ownNumber (Text.trim text.toList)) (scriptNumber (trim text.toList)) ↔ _
  by_cases same : Text.trim text.toList = trim text.toList
  · rw [IsMisread, same, sameNumber_trimmed]
    simp
  · cases exists_isDisputed same with
    | inl own =>
        obtain ⟨c, member, disputed⟩ := own
        obtain ⟨noPlain, noWord, _⟩ := strange_of_isDisputed member disputed
        have number : (ownNumber (Text.trim text.toList)).isNaN = true :=
          isNaN_ownNumber noPlain noWord
        rw [sameNumber_iff (.inl number), isNaN_scriptNumber_iff, IsMisread]
        simp only [number, noPlain, noWord, same, ne_eq, not_false_eq_true, true_and, false_or]
        rw [or_comm]
    | inr script =>
        obtain ⟨c, member, disputed⟩ := script
        obtain ⟨noPlain, _, noBase⟩ := strange_of_isDisputed member disputed
        have number : (scriptNumber (trim text.toList)).isNaN = true :=
          isNaN_scriptNumber noPlain noBase
        rw [sameNumber_iff (.inr number), isNaN_ownNumber_iff, IsMisread]
        simp only [number, noPlain, noBase, same, ne_eq, not_false_eq_true, true_and, and_true,
          or_false, Bool.false_eq_true, false_or]
        rw [or_comm]

end Browser

namespace Cell

open Browser

/-- The number of a cell is the one that a script makes of the cell's JSON text, unless the cell
holds a text that the two sides read differently. -/
theorem sameNumber_toNumber (cell : Cell) :
    ∃ value, (Json.Grammar.parse? cell.toJson.compact.toList).bind Value.ofJson? = some value ∧
      (SameNumber cell.toNumber value.toNumber ↔
        ∀ text, cell = .text text → ¬ IsMisread text.toList) := by
  have read : (Json.Grammar.parse? cell.toJson.compact.toList).bind Value.ofJson? =
      some cell.value := by
    rw [Json.Grammar.parse?_compact, written_toJson]
    exact ofJson?_toJson cell
  refine ⟨cell.value, read, ?_⟩
  cases cell with
  | text text =>
      have same := sameNumber_numberOfText text
      exact ⟨fun number other own => by rw [← Cell.text.inj own]; exact same.mp number,
        fun common => same.mpr (common text rfl)⟩
  | real x =>
      refine iff_of_true (.inl ?_) fun text own => Cell.noConfusion own
      by_cases finite : x.isFinite = true <;> simp [toNumber, value, Value.toNumber, finite]
  | _ => exact iff_of_true (.inl rfl) fun text own => Cell.noConfusion own

/-- A script reads the digits behind `0x` in the base sixteen, and a table reads no number. -/
theorem not_sameNumber_hexadecimal :
    ∃ value, (Json.Grammar.parse? (Cell.text "0x10").toJson.compact.toList).bind Value.ofJson? =
        some value ∧
      value.toNumber = .ofInt 16 ∧ (Cell.text "0x10").toNumber.isNaN = true ∧
      ¬ SameNumber (Cell.text "0x10").toNumber value.toNumber := by
  refine ⟨.text "0x10", ?_, ?_, ?_, ?_⟩
  · rw [Json.Grammar.parse?_compact]
    rfl
  · decide +kernel
  · decide +kernel
  · decide +kernel

end Cell

end LinkedViews
