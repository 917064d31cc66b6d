import LinkedViews.Json.Lexeme
import LinkedViews.Proofs.Json.Literal
import LinkedViews.Text.Quoted

/-!
Quoted texts as a reader of a listing takes them apart. The characters between the quotes are read
one after the other up to the closing quote, so a quoted text ends where it was ended, whatever
stands behind it.
-/

namespace LinkedViews.Text

variable {c : Char} {front back head tail : List Char}

/-- Two texts are split in the same place where a run of characters of one kind ends in both. -/
theorem append_inj_of_run {own : Char → Bool} (run : ∀ c ∈ front, own c = true)
    (other : ∀ c ∈ head, own c = true) (stop : ∀ c ∈ back.head?, own c = false)
    (ending : ∀ c ∈ tail.head?, own c = false) (same : front ++ back = head ++ tail) :
    front = head ∧ back = tail := by
  have taken {front back : List Char} (run : ∀ c ∈ front, own c = true)
      (stop : ∀ c ∈ back.head?, own c = false) : (front ++ back).takeWhile own = front := by
    rw [List.takeWhile_append_of_pos run]
    cases back with
    | nil => simp
    | cons c rest => simp [stop c rfl]
  obtain rfl : front = head := by rw [← taken run stop, same, taken other ending]
  exact ⟨rfl, List.append_cancel_left same⟩

namespace Quoted

/-- The character that a letter behind a backslash stands for. -/
def unletter? : Char → Option Char
  | '"' => some '"'
  | '\\' => some '\\'
  | 'n' => some '\n'
  | 'r' => some '\r'
  | 't' => some '\t'
  | '0' => some '\x00'
  | _ => none

def hexValue (digits : List Char) : Nat :=
  digits.foldl (fun value c => 16 * value + (Json.Reader.hexValue? c).getD 0) 0

/-- The character that is written at the front of a text, and what is behind it. A quote that stands
for itself ends the text. -/
def character? : List Char → Option (Char × List Char)
  | '\\' :: 'u' :: '\x7b' :: rest =>
    some (Char.ofNat (hexValue (rest.takeWhile Char.isAlphanum)),
      (rest.dropWhile Char.isAlphanum).tail)
  | '\\' :: letter :: rest => (unletter? letter).map fun c => (c, rest)
  | '"' :: _ => none
  | c :: rest => some (c, rest)
  | [] => none

theorem unletter?_of_letter? {letter : Char} (lettered : letter? c = some letter) :
    unletter? letter = some c := by
  unfold letter? at lettered
  split at lettered <;> first | contradiction | (obtain rfl := Option.some.inj lettered; rfl)

/-! ## Codes -/

theorem hexValue_hexDigits (n : Nat) : hexValue (Numeral.hexDigits n) = n := by
  induction n using Numeral.hexDigits.induct with
  | case1 n small =>
      rw [Numeral.hexDigits, if_pos small, hexValue, List.foldl_cons, List.foldl_nil,
        Json.hexValue?_hexDigitChar n small]
      exact Nat.zero_add n
  | case2 n large ih =>
      rw [Numeral.hexDigits, if_neg large, hexValue, List.foldl_append, ← hexValue, ih,
        List.foldl_cons, List.foldl_nil, Json.hexValue?_hexDigitChar _ (Nat.mod_lt n (by decide))]
      exact Nat.div_add_mod n 16

theorem exists_of_mem_hexDigits {n : Nat} (member : c ∈ Numeral.hexDigits n) :
    ∃ digit < 16, c = Numeral.hexDigitChar digit := by
  induction n using Numeral.hexDigits.induct with
  | case1 n small =>
      rw [Numeral.hexDigits, if_pos small] at member
      exact ⟨n, small, List.mem_singleton.mp member⟩
  | case2 n large ih =>
      rw [Numeral.hexDigits, if_neg large, List.mem_append] at member
      obtain higher | last := member
      · exact ih higher
      · exact ⟨n % 16, Nat.mod_lt n (by decide), List.mem_singleton.mp last⟩

theorem isAlphanum_of_mem_hexDigits {n : Nat} (member : c ∈ Numeral.hexDigits n) :
    c.isAlphanum = true := by
  obtain ⟨digit, small, rfl⟩ := exists_of_mem_hexDigits member
  exact Json.isAlphanum_hexDigitChar digit small

/-! ## Characters -/

theorem character?_letter {letter : Char} (stands : unletter? letter = some c)
    (rest : List Char) : character? ('\\' :: letter :: rest) = some (c, rest) := by
  rw [character?]
  · rw [stands]
    rfl
  · rintro more rfl
    contradiction

theorem character?_code (n : Nat) (rest : List Char) :
    character? ('\\' :: 'u' :: '\x7b' :: (Numeral.hexDigits n ++ '\x7d' :: rest)) =
      some (Char.ofNat n, rest) := by
  have digits : ∀ c ∈ Numeral.hexDigits n, c.isAlphanum = true :=
    fun c => isAlphanum_of_mem_hexDigits
  have mark : Char.isAlphanum '\x7d' = false := by decide
  rw [character?, List.takeWhile_append_of_pos digits, List.dropWhile_append_of_pos digits]
  simp [mark, hexValue_hexDigits]

theorem character?_plain (unlettered : letter? c = none) (rest : List Char) :
    character? (c :: rest) = some (c, rest) := by
  have backslash : c ≠ '\\' := by
    rintro rfl
    contradiction
  have quote : c ≠ '"' := by
    rintro rfl
    contradiction
  rw [character?]
  all_goals simp [backslash, quote]

/-- A character is read back from its written form, in front of any text. -/
theorem character?_encodeChar (c : Char) (rest : List Char) :
    character? (encodeChar c ++ rest) = some (c, rest) := by
  unfold encodeChar
  split
  · rename_i letter lettered
    exact character?_letter (unletter?_of_letter? lettered) rest
  · rename_i unlettered
    split
    · exact character?_plain unlettered rest
    · have read := character?_code c.toNat rest
      rw [Char.ofNat_toNat] at read
      simpa using read

theorem isPrintable_of_mem_encodeChar {d : Char} (member : d ∈ encodeChar c) :
    isPrintable d = true := by
  unfold encodeChar at member
  split at member
  · rename_i letter lettered
    have shown : isPrintable letter = true := by
      have stands := unletter?_of_letter? lettered
      unfold unletter? at stands
      split at stands <;> first | contradiction | decide
    obtain rfl | rfl := List.mem_pair.mp member
    · decide
    · exact shown
  · split at member
    · rename_i printable
      rwa [List.mem_singleton.mp member]
    · have digits : ∀ digit < 16, isPrintable (Numeral.hexDigitChar digit) = true := by decide
      simp only [List.mem_append, List.mem_cons, List.not_mem_nil, or_false] at member
      obtain (rfl | rfl | rfl | digit) | rfl := member
      any_goals decide
      obtain ⟨value, small, rfl⟩ := exists_of_mem_hexDigits digit
      exact digits value small

/-! ## Texts -/

/-- In front of whatever stands behind their closing quotes, quoted texts are the same only if they
are those of the same text. -/
theorem encode_append_inj {text other : List Char}
    (same : encode text ++ '"' :: back = encode other ++ '"' :: tail) :
    text = other ∧ back = tail := by
  have ends (rest : List Char) : character? ('"' :: rest) = none := rfl
  have reads (c : Char) (text rest : List Char) :
      character? (encode (c :: text) ++ '"' :: rest) = some (c, encode text ++ '"' :: rest) := by
    rw [encode, List.flatMap_cons, List.append_assoc]
    exact character?_encodeChar c _
  have first := congrArg character? same
  -- A text that is over gives no character, so both texts end together.
  induction text generalizing other with
  | nil =>
      cases other with
      | nil => exact ⟨rfl, (List.cons.inj same).2⟩
      | cons d more =>
          rw [reads] at first
          contradiction
  | cons c text ih =>
      cases other with
      | nil =>
          rw [reads] at first
          contradiction
      | cons d more =>
          rw [reads, reads] at first
          obtain ⟨rfl, later⟩ := Prod.mk.inj (Option.some.inj first)
          obtain ⟨rfl, behind⟩ := ih later (congrArg character? later)
          exact ⟨rfl, behind⟩

theorem render_append_inj {text other : String}
    (same : (render text).toList ++ back = (render other).toList ++ tail) :
    text = other ∧ back = tail := by
  have shape (text : String) (rest : List Char) :
      (render text).toList ++ rest = '"' :: (encode text.toList ++ '"' :: rest) := by
    simp [render]
  rw [shape, shape] at same
  obtain ⟨chars, behind⟩ := encode_append_inj (List.cons.inj same).2
  exact ⟨String.toList_inj.mp chars, behind⟩

theorem isPrintable_of_mem_render {text : String} (member : c ∈ (render text).toList) :
    isPrintable c = true := by
  rw [render, String.toList_ofList] at member
  simp only [List.cons_append, List.mem_cons, List.mem_append, List.not_mem_nil, or_false] at member
  obtain rfl | inside | rfl := member
  · decide
  · obtain ⟨d, _, own⟩ := List.mem_flatMap.mp inside
    exact isPrintable_of_mem_encodeChar own
  · decide

end Quoted

end LinkedViews.Text
