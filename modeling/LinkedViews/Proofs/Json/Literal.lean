import LinkedViews.Json.Script
import LinkedViews.Json.Value
import LinkedViews.Proofs.Number.Numeral

/-!
Literals stand for their texts. What lies between the quotes of a literal is given here as one
recursion over the text, and the reader of JSON strings finds the text in it again.
-/

namespace LinkedViews.Json

variable {c : Char} {front back text rest shown : List Char} {place : Place}

/-! ## Characters -/

/-- The three ways in which a character is written. -/
inductive Escaped (c : Char) : List Char → Prop where
  | plain (quote : c ≠ '"') (backslash : c ≠ '\\') (printable : 0x20 ≤ c.toNat) : Escaped c [c]
  | lettered (letter : Char) (stands : Reader.unletter? letter = some c) : Escaped c ['\\', letter]
  | control (below : c.toNat < 0x20) :
      Escaped c ('\\' :: 'u' :: Numeral.padLeft 4 (Numeral.hexDigits c.toNat))

theorem unletter?_of_letter? {letter : Char} (lettered : letter? c = some letter) :
    Reader.unletter? letter = some c := by
  unfold letter? at lettered
  split at lettered <;> first | contradiction | (obtain rfl := Option.some.inj lettered; rfl)

theorem escaped_escapeChar (c : Char) : Escaped c (escapeChar c) := by
  unfold escapeChar
  split
  · rename_i letter lettered
    exact .lettered letter (unletter?_of_letter? lettered)
  · rename_i unlettered
    split
    · rename_i below
      exact .control below
    · rename_i printable
      refine .plain ?_ ?_ (Nat.le_of_not_lt printable)
      · rintro rfl
        contradiction
      · rintro rfl
        contradiction

theorem padLeft_hexDigits : ∀ code < 0x20,
    Numeral.padLeft 4 (Numeral.hexDigits code) =
      ['0', '0', Numeral.hexDigitChar (code / 16), Numeral.hexDigitChar (code % 16)] := by
  decide +kernel

theorem hexValue?_hexDigitChar : ∀ digit < 16,
    Reader.hexValue? (Numeral.hexDigitChar digit) = some digit := by
  decide

theorem hexDigitChar_plain : ∀ digit < 16, Numeral.hexDigitChar digit ≠ '"' ∧
    Numeral.hexDigitChar digit ≠ '\\' ∧ 0x20 ≤ (Numeral.hexDigitChar digit).toNat := by
  decide

theorem isAlphanum_hexDigitChar : ∀ digit < 16, (Numeral.hexDigitChar digit).isAlphanum = true := by
  decide

/-- An opening bracket is never escaped, and nothing else is written with one. -/
theorem Escaped.eq_of_mem (way : Escaped c shown) (member : '<' ∈ shown) :
    c = '<' ∧ shown = ['<'] := by
  cases way with
  | plain =>
      obtain rfl := List.mem_singleton.mp member
      exact ⟨rfl, rfl⟩
  | lettered letter stands =>
      obtain mark | same := List.mem_pair.mp member
      · exact absurd mark (by decide)
      · rw [← same] at stands
        contradiction
  | control below =>
      have high := isAlphanum_hexDigitChar (c.toNat / 16) (by omega)
      have low := isAlphanum_hexDigitChar (c.toNat % 16) (by omega)
      simp only [padLeft_hexDigits _ below, List.mem_cons, List.not_mem_nil, or_false] at member
      obtain mark | mark | mark | mark | digit | digit := member
      any_goals exact absurd mark (by decide)
      · rw [← digit] at high
        contradiction
      · rw [← digit] at low
        contradiction

theorem eq_of_mem_escapeChar (member : '<' ∈ escapeChar c) : c = '<' :=
  ((escaped_escapeChar c).eq_of_mem member).1

theorem eq_of_head_escapeChar (head : (escapeChar c).head? = some '/') : c = '/' := by
  have way := escaped_escapeChar c
  generalize escapeChar c = shown at head way
  cases way with
  | plain => exact Option.some.inj head
  | lettered => exact absurd (Option.some.inj head) (by decide)
  | control => exact absurd (Option.some.inj head) (by decide)

/-! ## Bodies -/

/-- What lies between the quotes of a literal. -/
def literalBody : List Char → List Char
  | '<' :: '/' :: rest => '<' :: '\\' :: '/' :: literalBody rest
  | c :: rest => escapeChar c ++ literalBody rest
  | [] => []

attribute [local grind =] guardTags literalBody

theorem guardTags_append (absent : '<' ∉ front) :
    guardTags (front ++ back) = front ++ guardTags back := by
  induction front with
  | nil => rfl
  | cons d rest ih =>
      have other : d ≠ '<' := fun same => absent (by simp [same])
      have later := ih fun inside => absent (List.mem_cons_of_mem d inside)
      rw [List.cons_append, guardTags, later]
      · rfl
      · intro _ tag
        exact absurd tag other

/-- An opening bracket that no slash follows is left alone. -/
theorem guardTags_cons (head : text.head? ≠ some '/') : guardTags (c :: text) = c :: guardTags text := by
  rw [guardTags]
  rintro more rfl rfl
  exact head rfl

theorem guardTags_append_cons (front back : List Char) (opening : c ≠ '<') (slash : c ≠ '/') :
    guardTags (front ++ c :: back) = guardTags front ++ c :: guardTags back := by
  induction front using guardTags.induct with
  | case1 rest ih => exact congrArg (fun text => '<' :: '\\' :: '/' :: text) ih
  | case2 d rest apart ih =>
      have later : ∀ more, d = '<' → rest ++ c :: back = '/' :: more → False := by
        intro more tag same
        cases rest with
        | nil => exact slash (List.cons.inj same).1
        | cons e others => exact apart others tag (by rw [(List.cons.inj same).1])
      rw [List.cons_append, guardTags, ih, guardTags]
      · rfl
      · exact apart
      · exact later
  | case3 =>
      rw [List.nil_append, guardTags]
      · rfl
      · exact fun _ tag => absurd tag opening

theorem guardTags_of_notMem (absent : '<' ∉ text) : guardTags text = text := by
  have whole : guardTags (text ++ []) = text ++ [] := guardTags_append absent
  rw [List.append_nil] at whole
  exact whole

theorem guardTags_enclosed (text : List Char) {opening closing : Char} (first : opening ≠ '<')
    (mark : closing ≠ '<') (slash : closing ≠ '/') :
    guardTags (opening :: text ++ [closing]) = opening :: guardTags text ++ [closing] := by
  rw [guardTags_append_cons _ _ mark slash, guardTags]
  · rfl
  · exact fun _ tag => absurd tag first

theorem guardTags_escapeChar_append (head : c = '<' → back.head? ≠ some '/') :
    guardTags (escapeChar c ++ back) = escapeChar c ++ guardTags back := by
  by_cases opens : c = '<'
  · subst opens
    exact guardTags_cons (head rfl)
  · exact guardTags_append fun member => opens (eq_of_mem_escapeChar member)

theorem guardTags_flatMap_escapeChar (text : List Char) :
    guardTags (text.flatMap escapeChar ++ ['"']) = literalBody text ++ ['"'] := by
  induction text using literalBody.induct with
  | case1 rest ih =>
      change '<' :: '\\' :: '/' :: guardTags (rest.flatMap escapeChar ++ ['"']) = _
      rw [ih, literalBody]
      rfl
  | case2 c rest apart ih =>
      have head : c = '<' → (rest.flatMap escapeChar ++ ['"']).head? ≠ some '/' := by
        rintro opens slash
        cases rest with
        | nil => contradiction
        | cons d more =>
            have way := escaped_escapeChar d
            have first : (escapeChar d).head? = some '/' := by
              rw [List.flatMap_cons, List.append_assoc] at slash
              generalize escapeChar d = shown at slash way
              cases way <;> exact slash
            exact apart more opens (by rw [eq_of_head_escapeChar first])
      rw [List.flatMap_cons, List.append_assoc, guardTags_escapeChar_append head, ih,
        literalBody, List.append_assoc]
      exact apart
  | case3 => rfl

theorem guardTags_quoteChars (text : List Char) :
    guardTags (quoteChars text) = '"' :: literalBody text ++ ['"'] := by
  change '"' :: guardTags (text.flatMap escapeChar ++ ['"']) = _
  rw [guardTags_flatMap_escapeChar]
  rfl

/-- Whether a body stands for a text, one character after the other. -/
inductive Spells : List Char → List Char → Prop where
  | nil : Spells [] []
  | cons {c : Char} {shown text body : List Char} (way : Escaped c shown)
      (later : Spells text body) : Spells (c :: text) (shown ++ body)

theorem spells_flatMap_escapeChar (text : List Char) : Spells text (text.flatMap escapeChar) := by
  induction text with
  | nil => exact .nil
  | cons c rest ih =>
      rw [List.flatMap_cons]
      exact .cons (escaped_escapeChar c) ih

/-- The backslash that keeps a tag from closing is one of the ways to write a slash. -/
theorem spells_literalBody (text : List Char) : Spells text (literalBody text) := by
  induction text using literalBody.induct with
  | case1 rest ih =>
      have opening : Escaped '<' ['<'] := .plain (by decide) (by decide) (by decide)
      have slash : Escaped '/' ['\\', '/'] := .lettered '/' rfl
      exact .cons opening (.cons slash ih)
  | case2 c rest apart ih =>
      rw [literalBody]
      · exact .cons (escaped_escapeChar c) ih
      · exact apart
  | case3 => exact .nil

theorem Spells.length_le {body : List Char} (spells : Spells text body) :
    text.length ≤ body.length := by
  induction spells with
  | nil => exact Nat.le_refl 0
  | cons way later ih =>
      rename_i shown _ _
      have positive : 0 < shown.length := by cases way <;> simp
      rw [List.length_cons, List.length_append]
      omega

theorem toList_literal (text : String) :
    (literal text).toList = '"' :: literalBody text.toList ++ ['"'] := by
  rw [literal, scriptText, String.toList_ofList]
  exact guardTags_quoteChars text.toList

/-! ## Reading -/

namespace Reader

theorem hexUnit_control (rest : List Char) (place : Place) {code : Nat} (below : code < 0x20) :
    ∃ behind, hexUnit ⟨Numeral.padLeft 4 (Numeral.hexDigits code) ++ rest, place⟩ =
      .done code ⟨rest, behind⟩ := by
  have high := hexValue?_hexDigitChar (code / 16) (by omega)
  have low := hexValue?_hexDigitChar (code % 16) (by omega)
  have zero : hexValue? '0' = some 0 := by decide
  have enough : ¬ byteLength (Numeral.padLeft 4 (Numeral.hexDigits code) ++ rest) < 4 := by
    have one (c : Char) : 1 ≤ c.utf8Size := Char.utf8Size_pos c
    have first := one (Numeral.hexDigitChar (code / 16))
    have second := one (Numeral.hexDigitChar (code % 16))
    have zeros := one '0'
    simp only [padLeft_hexDigits code below, List.cons_append, List.nil_append, byteLength]
    omega
  have sum : 16 * (code / 16) + code % 16 = code := Nat.div_add_mod code 16
  rw [hexUnit, if_neg enough]
  simp [padLeft_hexDigits code below, zero, high, low, sum]

@[simp] theorem bind_done {α β : Type} {reader : Reader α} {next : α → Reader β}
    {cursor behind : Cursor} {value : α} (read : reader cursor = .done value behind) :
    (reader >>= next) cursor = next value behind := by
  change reader.andThen next cursor = _
  rw [andThen, read]

theorem escape_letter (rest : List Char) (place : Place) {letter : Char}
    (stands : unletter? letter = some c) :
    escape ⟨letter :: rest, place⟩ = .done c ⟨rest, place.advance letter⟩ := by
  have seen : peek ⟨letter :: rest, place⟩ = .done (some letter) ⟨letter :: rest, place⟩ := rfl
  rw [escape, bind_done seen]
  simp only [stands]
  rfl

theorem unitEscape_basic {code : Nat} {cursor behind : Cursor}
    (unit : hexUnit cursor = .done code behind) (basic : code < 0xD800) :
    unitEscape cursor = .done (Char.ofNat code) behind := by
  have low : ¬ (0xDC00 ≤ code ∧ code ≤ 0xDFFF) := by omega
  have single : code < 0xD800 ∨ 0xDBFF < code := .inl basic
  rw [unitEscape, bind_done unit, if_neg low, if_pos single]
  rfl

theorem escape_control (rest : List Char) (place : Place) (below : c.toNat < 0x20) :
    ∃ behind, escape ⟨'u' :: Numeral.padLeft 4 (Numeral.hexDigits c.toNat) ++ rest, place⟩ =
      .done c ⟨rest, behind⟩ := by
  obtain ⟨behind, unit⟩ := hexUnit_control rest (place.advance 'u') below
  have read := unitEscape_basic unit (by omega)
  rw [Char.ofNat_toNat] at read
  exact ⟨behind, read⟩

theorem textBody_quote {fuel : Nat} (taken : List Char) :
    textBody (fuel + 1) taken ⟨'"' :: rest, place⟩ =
      .done (String.ofList taken.reverse) ⟨rest, place.advance '"'⟩ := rfl

/-- One character in its written form is one step of the reader. -/
theorem textBody_escaped (fuel : Nat) (taken rest : List Char) (place : Place)
    (way : Escaped c shown) :
    ∃ behind, textBody (fuel + 1) taken ⟨shown ++ rest, place⟩ =
      textBody fuel (c :: taken) ⟨rest, behind⟩ := by
  cases way with
  | plain quote backslash printable =>
      refine ⟨place.advance c, ?_⟩
      have seen : peek ⟨[c] ++ rest, place⟩ = .done (some c) ⟨[c] ++ rest, place⟩ := rfl
      rw [textBody, bind_done seen]
      simp only [if_neg quote, if_neg backslash, if_neg (Nat.not_lt.mpr printable)]
      rfl
  | lettered letter stands =>
      refine ⟨(place.advance '\\').advance letter, ?_⟩
      have read := escape_letter rest (place.advance '\\') stands
      change (escape >>= fun plain => textBody fuel (plain :: taken)) _ = _
      exact bind_done read
  | control below =>
      obtain ⟨behind, read⟩ := escape_control rest (place.advance '\\') below
      refine ⟨behind, ?_⟩
      change (escape >>= fun plain => textBody fuel (plain :: taken)) _ = _
      exact bind_done read

/-- A body is read up to the quote behind it, one character of the text after the other. -/
theorem textBody_spells {body : List Char} (spells : Spells text body) (taken rest : List Char)
    (place : Place) {fuel : Nat} (enough : text.length < fuel) :
    ∃ behind, textBody fuel taken ⟨body ++ '"' :: rest, place⟩ =
      .done (String.ofList (taken.reverse ++ text)) ⟨rest, behind⟩ := by
  induction spells generalizing taken place fuel with
  | nil =>
      obtain ⟨fuel, rfl⟩ : ∃ less, fuel = less + 1 := ⟨fuel - 1, by omega⟩
      refine ⟨place.advance '"', ?_⟩
      rw [List.append_nil]
      exact textBody_quote taken
  | cons way later ih =>
      rename_i c shown text body
      obtain ⟨fuel, rfl⟩ : ∃ less, fuel = less + 1 := ⟨fuel - 1, by omega⟩
      have fewer : text.length < fuel := Nat.lt_of_succ_lt_succ enough
      obtain ⟨first, read⟩ := textBody_escaped fuel taken (body ++ '"' :: rest) place way
      obtain ⟨behind, others⟩ := ih (c :: taken) first fewer
      refine ⟨behind, ?_⟩
      rw [List.append_assoc, read, others, List.reverse_cons, List.append_assoc,
        List.singleton_append]

end Reader

/-- A literal is read as the text that it stands for. -/
theorem ofText_literalBody (text : String) :
    ofText Reader.text (String.ofList ('"' :: literalBody text.toList ++ ['"'])) = .ok text := by
  have spells := spells_literalBody text.toList
  have enough : text.toList.length < (literalBody text.toList ++ ['"']).length + 1 := by
    have least := spells.length_le
    rw [List.length_append]
    omega
  obtain ⟨behind, read⟩ := Reader.textBody_spells spells [] [] (Place.advance ⟨1, 0⟩ '"') enough
  have whole : Reader.text (Cursor.start (String.ofList ('"' :: literalBody text.toList ++ ['"']))) =
      .done text ⟨[], behind⟩ := by
    rw [Cursor.start, String.toList_ofList]
    refine Eq.trans read ?_
    simp
  rw [ofText, Reader.andThen, whole]
  rfl

theorem ofText_literal (text : String) : ofText Reader.text (literal text) = .ok text := by
  rw [← ofText_literalBody text, ← toList_literal, String.ofList_toList]

end LinkedViews.Json
