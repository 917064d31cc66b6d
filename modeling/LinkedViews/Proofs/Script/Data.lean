import LinkedViews.Proofs.Number.Json
import LinkedViews.Proofs.Script.Scope
import LinkedViews.Table.Records

/-!
Values in a script. The text of a JSON value, with closing tags guarded, is read as values and
brackets that close each other: no name of it is bound or read, whatever texts the value holds.
-/

namespace LinkedViews

variable {c : Char} {text front back : List Char}

/-! ## Separators -/

namespace Lexeme

theorem closes_append_mark (closed : closes front = true) (plain : stepCode c = (.code, [.mark c]))
    (text : List Char) :
    read .code (front ++ c :: text) = read .code front ++ .mark c :: read .code text := by
  have one : step .code c = (.code, [.mark c]) := plain
  rw [read_append closed]
  simp [read, complete, after, one]

end Lexeme

namespace Token

/-- Whether a character stands outside words, literals and comments. -/
def isApart (c : Char) : Bool :=
  Lexeme.stepCode c = (.code, [.mark c]) && !IndexName.isPart c

theorem read_append_cons (closed : Lexeme.closes front = true) (apart : isApart c = true)
    (back : List Char) :
    read (front ++ c :: back) = read front ++ ofMold (.fixed (.mark c)) ++ read back := by
  simp only [isApart, Bool.and_eq_true, decide_eq_true_eq, Bool.not_eq_true'] at apart
  obtain ⟨plain, strange⟩ := apart
  have own : wordChar? (.fixed (.mark c)) = none := by simp [wordChar?, strange]
  rw [read, readFrom, Lexeme.closes_append_mark closed plain, List.map_append, List.map_cons,
    words_append_cons own]
  rfl

theorem closes_append_cons (closed : Lexeme.closes front = true) (apart : isApart c = true)
    (behind : Lexeme.closes back = true) : Lexeme.closes (front ++ c :: back) = true := by
  simp only [isApart, Bool.and_eq_true, decide_eq_true_eq] at apart
  have one : Lexeme.closes (c :: back) = true := by
    rw [Lexeme.closes, Lexeme.after, Lexeme.step, apart.1]
    exact behind
  exact Lexeme.closes_append closed one

end Token

/-! ## Values -/

namespace Stand

/-- Whether tokens leave a reader where it stands, apart from what stands last, and nothing
happens in them. The body of a function must not be about to begin. -/
def Neutral (tokens : List Token) : Prop := ∀ stand : Stand, stand.header = false →
  (stand.after tokens).brackets = stand.brackets ∧ (stand.after tokens).header = false ∧
    stand.events tokens = []

theorem Neutral.nil : Neutral [] := fun _ closed => ⟨rfl, closed, rfl⟩

theorem Neutral.append {front back : List Token} (first : Neutral front) (second : Neutral back) :
    Neutral (front ++ back) := by
  intro stand closed
  obtain ⟨open', header, silent⟩ := first stand closed
  obtain ⟨open'', header', silent'⟩ := second _ header
  rw [after_append, events_append, silent, silent']
  exact ⟨open''.trans open', header', rfl⟩

theorem Neutral.value : Neutral [.value] := fun _ closed => ⟨rfl, closed, rfl⟩

/-- A character that neither opens nor closes anything. -/
def isLevel (c : Char) : Bool := c ∉ ['(', '[', '\x7b', ')', ']', '\x7d']

theorem step_mark (stand : Stand) (level : isLevel c = true) :
    stand.step (.mark c) = ({ stand with previous := .mark c }, []) := by
  unfold step
  split
  case h_1 => contradiction
  case h_8 => rfl
  all_goals
    rename_i same
    obtain rfl := Token.mark.inj same
    exact absurd level (by decide)

theorem Neutral.mark (level : isLevel c = true) : Neutral [.mark c] := by
  intro stand closed
  simp [after, events, step_mark stand level, closed]

theorem Neutral.array {tokens : List Token} (inner : Neutral tokens) :
    Neutral (.mark '[' :: tokens ++ [.mark ']']) := by
  intro stand closed
  obtain ⟨within, header, silent⟩ := inner ⟨.mark '[', .square :: stand.brackets, stand.header⟩ closed
  rw [List.cons_append, after, events, step, after_append, events_append, silent]
  refine ⟨?_, header, rfl⟩
  exact congrArg List.tail within

theorem Neutral.object {tokens : List Token} (inner : Neutral tokens) :
    Neutral (.mark '\x7b' :: tokens ++ [.mark '\x7d']) := by
  intro stand closed
  have opened : ∃ bracket, bracket ≠ .body ∧ stand.step (.mark '\x7b') =
      (⟨.mark '\x7b', bracket :: stand.brackets, false⟩, []) := by
    refine ⟨if stand.opensBlock then .block else .object, ?_, ?_⟩
    · split <;> exact fun same => nomatch same
    · simp [step, closed]
  obtain ⟨bracket, plain, opened⟩ := opened
  obtain ⟨within, header, silent⟩ := inner ⟨.mark '\x7b', bracket :: stand.brackets, false⟩ rfl
  have other : ¬ (bracket :: stand.brackets).head? = some .body := fun same =>
    plain (Option.some.inj same)
  rw [List.cons_append, after, events, opened, after_append, events_append, silent]
  refine ⟨congrArg List.tail within, header, ?_⟩
  simp [events, step, within, plain]

end Stand

/-- What the text of a value is to the reader of a script. -/
structure IsData (text : List Char) : Prop where
  closed : Lexeme.closes text = true
  neutral : Stand.Neutral (Token.read text)

namespace IsData

def isSeparator (c : Char) : Bool :=
  Token.isApart c && !Token.isSpace c && Stand.isLevel c

theorem nil : IsData [] := ⟨rfl, .nil⟩

theorem append_cons (first : IsData front) (between : isSeparator c = true)
    (second : IsData back) : IsData (front ++ c :: back) := by
  simp only [isSeparator, Bool.and_eq_true, Bool.not_eq_true'] at between
  obtain ⟨⟨apart, solid⟩, level⟩ := between
  have own : Token.ofMold (.fixed (.mark c)) = [.mark c] := by simp [Token.ofMold, solid]
  refine ⟨Token.closes_append_cons first.closed apart second.closed, ?_⟩
  rw [Token.read_append_cons first.closed apart, own]
  exact (first.neutral.append (.mark level)).append second.neutral

theorem read_enclosed (opening closing : Char) (opens : Token.isApart opening = true)
    (closes : Token.isApart closing = true) (first : Token.isSpace opening = false)
    (last : Token.isSpace closing = false) (closed : Lexeme.closes text = true) :
    Lexeme.closes (opening :: text ++ [closing]) = true ∧
      Token.read (opening :: text ++ [closing]) =
        .mark opening :: Token.read text ++ [.mark closing] := by
  have begun : Lexeme.closes [] = true := rfl
  have inner : Lexeme.closes (opening :: text) = true := Token.closes_append_cons begun opens closed
  have start := Token.read_append_cons begun opens text
  have own (c : Char) (solid : Token.isSpace c = false) :
      Token.ofMold (.fixed (.mark c)) = [.mark c] := by
    simp [Token.ofMold, solid]
  refine ⟨Token.closes_append_cons inner closes rfl, ?_⟩
  rw [List.nil_append] at start
  rw [Token.read_append_cons inner closes, start, own _ first, own _ last]
  exact List.append_nil _

theorem array (inner : IsData text) : IsData ('[' :: text ++ [']']) := by
  obtain ⟨closed, read⟩ := read_enclosed '[' ']' (by decide) (by decide) (by decide)
    (by decide) inner.closed
  exact ⟨closed, read ▸ inner.neutral.array⟩

theorem object (inner : IsData text) : IsData ('\x7b' :: text ++ ['\x7d']) := by
  obtain ⟨closed, read⟩ := read_enclosed '\x7b' '\x7d' (by decide) (by decide) (by decide)
    (by decide) inner.closed
  exact ⟨closed, read ▸ inner.neutral.object⟩

theorem body (inside : Lexeme.IsBody text) : IsData ('"' :: text ++ ['"']) := by
  obtain ⟨closed, read⟩ := Lexeme.read_body inside
  refine ⟨closed, ?_⟩
  rw [Token.read, Token.readFrom, read]
  exact .value

theorem literal (text : String) : IsData (Json.literal text).toList := by
  rw [Json.toList_literal]
  exact body (Lexeme.isBody_literalBody text.toList)

theorem quote (text : String) : IsData (Json.quote text).toList := by
  rw [Json.quote, String.toList_ofList]
  exact body (Lexeme.isBody_flatMap_escapeChar text.toList)

/-! ### Numbers -/

/-- A word that begins with a digit is a value, and is not bound or read. -/
theorem word {more : List Char} (head : c.isDigit = true) (parts : more.all IndexName.isPart = true) :
    IsData (c :: more) := by
  have whole : (c :: more).all IndexName.isPart = true := by
    simp [IndexName.isPart, Char.isAlphanum, head, parts]
  obtain ⟨closed, marks⟩ := Lexeme.read_word whole
  have read : Token.read (c :: more) = [.value] := by
    rw [Token.read, Token.readFrom, marks, ← List.append_nil (((c :: more).map Lexeme.mark).map _),
      Token.words_word _ whole]
    simp [Token.words, Token.complete, Token.after, Token.flush, Token.ofWord, head]
  exact ⟨closed, read ▸ .value⟩

theorem digits (own : ∀ c ∈ text, c.isDigit = true) : IsData text := by
  cases text with
  | nil => exact nil
  | cons c rest =>
      refine word (own c List.mem_cons_self) (List.all_eq_true.mpr fun d member => ?_)
      simp [IndexName.isPart, Char.isAlphanum, own d (List.mem_cons_of_mem c member)]

theorem ofNat (n : Nat) : IsData (Numeral.digits n) :=
  digits fun _ => Numeral.isDigit_of_mem_digits

theorem positional (d : Decimal) : IsData (Numeral.positional true d) := by
  obtain ⟨whole, fraction, shape, _, _, _, own, _⟩ := Numeral.positional_pointed d
  have before : IsData whole := digits fun c member => own c (by simp [member])
  have behind : IsData fraction := digits fun c member => own c (by simp [member])
  rw [shape]
  exact before.append_cons (by decide) behind

theorem scientific (d : Decimal) : IsData (Numeral.scientific d) := by
  obtain ⟨c, rest, own, shape⟩ := Numeral.scientific_shape d
  have digit (e : Char) (member : e ∈ c :: rest) : e.isDigit = true :=
    Numeral.isDigit_of_mem_digits (own ▸ member)
  have marked (front : List Char) (power : Int) (first : IsData (front ++ ['e'])) :
      IsData (front ++ Numeral.exponentMark power) := by
    have behind := ofNat power.natAbs
    rw [Numeral.exponentMark, List.append_cons]
    split
    · exact first.append_cons (by decide) behind
    · exact first.append_cons (by decide) behind
  have head := digit c List.mem_cons_self
  rw [shape]
  cases rest with
  | nil => exact marked [c] _ (word head rfl)
  | cons e more =>
      have parts : (more ++ ['e']).all IndexName.isPart = true := by
        have others : ∀ x ∈ more, IndexName.isPart x = true := fun x member => by
          simp [IndexName.isPart, Char.isAlphanum, digit x (by simp [member])]
        rw [List.all_append, List.all_eq_true.mpr others]
        rfl
      have fraction : IsData (e :: more ++ ['e']) := word (digit e (by simp)) parts
      have first : IsData ([c] ++ '.' :: (e :: more ++ ['e'])) :=
        (word head rfl).append_cons (by decide) fraction
      have whole := marked ([c] ++ '.' :: e :: more) (d.exponent + (e :: more).length) first
      rw [if_neg (List.cons_ne_nil e more)]
      simpa using whole

theorem signed (negative : Prop) [Decidable negative] (own : IsData text) :
    IsData (if negative then '-' :: text else text) := by
  split
  · exact nil.append_cons (by decide) own
  · exact own

theorem ofInt (value : Int) : IsData (Numeral.ofInt value).toList := by
  rw [Numeral.toList_ofInt]
  exact signed (value < 0) (ofNat value.natAbs)

theorem json (x : Binary64) : IsData (Numeral.json x).toList := by
  unfold Numeral.json
  dsimp only
  split
  · exact String.toList_ofList ▸ signed _ (positional _)
  · exact String.toList_ofList ▸ signed _ (scientific _)

end IsData

/-! ## Values of JSON -/

namespace IsData

theorem of_figures (own : IsData text) (figures : ∀ c ∈ text, Numeral.isFigure c = true) :
    IsData (Json.guardTags text) := by
  rw [Json.guardTags_of_notMem fun member => absurd (figures _ member) (by decide)]
  exact own

theorem separated (items : List (List Char))
    (each : ∀ item ∈ items, IsData (Json.guardTags item)) :
    IsData (Json.guardTags (Json.separated [','] items)) := by
  induction items using Json.separated.induct with
  | case1 => exact nil
  | case2 item => exact each item List.mem_cons_self
  | case3 item rest nonempty ih =>
      rw [Json.separated, List.append_assoc, List.singleton_append,
        Json.guardTags_append_cons _ _ (by decide) (by decide)]
      · exact (each item List.mem_cons_self).append_cons (by decide)
          (ih fun other member => each other (List.mem_cons_of_mem item member))
      · exact nonempty

theorem quoteChars (text : List Char) : IsData (Json.guardTags (Json.quoteChars text)) := by
  have own := literal (String.ofList text)
  rw [Json.literal, Json.scriptText, String.toList_ofList, Json.compactChars, Json.scalarChars,
    String.toList_ofList] at own
  exact own

mutual

theorem compactChars : (value : Json) → IsData (Json.guardTags (Json.compactChars value))
  | .array items => by
      have inner := separated _ (compactItems items)
      rw [Json.compactChars, Json.guardTags_enclosed _ (by decide) (by decide) (by decide)]
      exact inner.array
  | .object members => by
      have inner := separated _ (compactMembers members)
      rw [Json.compactChars, Json.guardTags_enclosed _ (by decide) (by decide) (by decide)]
      exact inner.object
  | .null => ⟨by decide, .value⟩
  | .boolean true => ⟨by decide, .value⟩
  | .boolean false => ⟨by decide, .value⟩
  | .integer value => of_figures (ofInt value) fun _ => Numeral.isFigure_of_mem_ofInt
  | .real value => by
      rw [Json.compactChars, Json.scalarChars]
      split
      · exact of_figures (json value) fun _ => Numeral.isFigure_of_mem_json
      · exact ⟨by decide, .value⟩
  | .text value => quoteChars value.toList

theorem compactItems : (items : List Json) →
    ∀ item ∈ Json.compactItems items, IsData (Json.guardTags item)
  | [] => by simp [Json.compactItems]
  | item :: rest => by
      have first := compactChars item
      have others := compactItems rest
      rw [Json.compactItems]
      exact List.forall_mem_cons.mpr ⟨first, others⟩

theorem compactMembers : (members : List (String × Json)) →
    ∀ member ∈ Json.compactMembers members, IsData (Json.guardTags member)
  | [] => by simp [Json.compactMembers]
  | member :: rest => by
      have first := compactMember member
      have others := compactMembers rest
      rw [Json.compactMembers]
      exact List.forall_mem_cons.mpr ⟨first, others⟩

theorem compactMember : (member : String × Json) →
    IsData (Json.guardTags (Json.compactMember member))
  | (name, value) => by
      have own := compactChars value
      rw [Json.compactMember, Json.guardTags_append_cons _ _ (by decide) (by decide)]
      exact (quoteChars name.toList).append_cons (by decide) own

end

/-- The records of a table bind and read no names. -/
theorem recordsText (table : Table) : IsData table.recordsText.toList := by
  rw [Table.recordsText, Json.scriptText, String.toList_ofList]
  exact compactChars _

end IsData

end LinkedViews
