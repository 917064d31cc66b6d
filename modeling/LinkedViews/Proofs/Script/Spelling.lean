import LinkedViews.Chart.Basic
import LinkedViews.Proofs.Script.Lexeme
import LinkedViews.Script.IndexName
import LinkedViews.Script.Piece
import LinkedViews.Text.Html

/-!
The templates of the generated script. A family of texts, one for each choice of what is filled in,
is spelled out as the characters that all of them share and the gaps between them: runs of word
characters, and literals. What holds of a template can be computed, and holds of all its texts.
-/

namespace LinkedViews

/-- A gap that is filled with word characters. -/
inductive WordGap where
  | index
  | width
  | height
deriving DecidableEq, Repr

/-- A gap that is filled with the literal of a text. A chart over one field has it for `x`. -/
inductive TextGap where
  | elementKey
  | label
  | x
  | y
  | color
  | reduced
deriving DecidableEq, Repr

/-- What is filled in. -/
structure Details where
  index : IndexName
  size : ChartSize
  elementKey : String
  label : String
  x : String
  y : String
  color : String
  reduced : String

inductive Part where
  | code (chars : List Char) (closed : Lexeme.closes chars = true)
  | word (gap : WordGap)
  | text (gap : TextGap)
deriving DecidableEq, Repr

/-- The words of a script: the name of the index, and the numbers of a size. -/
def WordGap.word (index : IndexName) (size : ChartSize) : WordGap → List Char
  | .index => index.text.toList
  | .width => Numeral.digits size.width.toNat
  | .height => Numeral.digits size.height.toNat

namespace Details

def word (details : Details) : WordGap → List Char := WordGap.word details.index details.size

def text (details : Details) : TextGap → String
  | .elementKey => details.elementKey
  | .label => Text.Html.escape details.label
  | .x => details.x
  | .y => details.y
  | .color => details.color
  | .reduced => details.reduced

end Details

theorem Details.word_index (details : Details) :
    details.index.text.toList = details.word .index := rfl

/-! What several templates share. -/

theorem Lexeme.closes_lineEnd : closes ['\n'] = true := rfl

theorem Lexeme.closes_bracket : closes [']'] = true := rfl

theorem Lexeme.closes_callEnd : closes [')', ';'] = true := rfl

theorem IndexName.all_isPart (index : IndexName) : index.text.toList.all isPart = true := by
  have valid := index.valid
  simp only [isValid, Bool.and_eq_true] at valid
  have identifier := valid.1.1
  cases shown : index.text.toList with
  | nil => rfl
  | cons c rest =>
      rw [shown] at identifier
      obtain ⟨start, others⟩ := (Bool.and_eq_true _ _).mp identifier
      have part : isPart c = true := by
        simp only [isStart, isPart, Char.isAlphanum, Bool.or_eq_true] at start ⊢
        tauto
      rw [List.all_cons, part, others]
      rfl

theorem Numeral.all_isPart_digits (n : Nat) : (digits n).all IndexName.isPart = true := by
  rw [List.all_eq_true]
  intro c member
  simp [IndexName.isPart, Char.isAlphanum, isDigit_of_mem_digits member]

theorem Details.all_isPart_word (details : Details) (gap : WordGap) :
    (details.word gap).all IndexName.isPart = true := by
  cases gap with
  | index => exact details.index.all_isPart
  | width => exact Numeral.all_isPart_digits _
  | height => exact Numeral.all_isPart_digits _

def Part.chars (details : Details) : Part → List Char
  | code chars _ => chars
  | word gap => details.word gap
  | text gap => (Json.literal (details.text gap)).toList

/-- The template of a family of texts. -/
structure Spelled (text : Details → String) where
  parts : List Part
  toList_text (details : Details) : (text details).toList = parts.flatMap (Part.chars details)

/-- The templates of a family of lists of texts. -/
structure SpelledList (texts : Details → List String) where
  parts : List (List Part)
  toList_texts (details : Details) :
    (texts details).map String.toList = parts.map (List.flatMap (Part.chars details))

namespace Spelled

variable {front back text : Details → String} {texts : Details → List String} {separator : String}

/-- A fixed text is spelled out by unification, without decoding its bytes. -/
def ofList {chars : List Char} (closed : Lexeme.closes chars = true) :
    Spelled fun _ => String.ofList chars where
  parts := [.code chars closed]
  toList_text details := by rw [String.toList_ofList, List.flatMap_singleton, Part.chars]

def word (gap : WordGap) (filled : ∀ details, (text details).toList = details.word gap) :
    Spelled text where
  parts := [.word gap]
  toList_text details := by rw [filled, List.flatMap_singleton, Part.chars]

def append (first : Spelled front) (second : Spelled back) :
    Spelled fun details => front details ++ back details where
  parts := first.parts ++ second.parts
  toList_text details := by
    rw [String.toList_append, first.toList_text, second.toList_text, List.flatMap_append]

/-- Two fixed texts that end outside a literal together. -/
def joined {first second : List Char} (closed : Lexeme.closes (first ++ second) = true) :
    Spelled fun _ => String.ofList first ++ String.ofList second where
  parts := [.code (first ++ second) closed]
  toList_text details := by
    rw [← String.ofList_append, String.toList_ofList, List.flatMap_singleton, Part.chars]

end Spelled

namespace SpelledList

variable {text : Details → String} {texts front back : Details → List String} {separator : String}

def nil : SpelledList fun _ => [] where
  parts := []
  toList_texts _ := rfl

def cons (first : Spelled text) (others : SpelledList texts) :
    SpelledList fun details => text details :: texts details where
  parts := first.parts :: others.parts
  toList_texts details := by
    rw [List.map_cons, List.map_cons, first.toList_text, others.toList_texts]

/-- A fixed text before others. -/
def line {chars : List Char} (closed : Lexeme.closes chars = true)
    (others : SpelledList texts) :
    SpelledList fun details => String.ofList chars :: texts details :=
  cons (.ofList closed) others

def append (first : SpelledList front) (second : SpelledList back) :
    SpelledList fun details => front details ++ back details where
  parts := first.parts ++ second.parts
  toList_texts details := by
    rw [List.map_append, List.map_append, first.toList_texts, second.toList_texts]

theorem flatMap_intercalate {β γ : Type} (f : β → List γ) (between : List β)
    (lists : List (List β)) :
    (between.intercalate lists).flatMap f =
      (between.flatMap f).intercalate (lists.map (List.flatMap f)) := by
  induction lists with
  | nil => rfl
  | cons first rest ih =>
      cases rest with
      | nil => simp
      | cons second more =>
          rw [List.intercalate_cons_cons, List.flatMap_append, List.flatMap_append, ih]
          simp

end SpelledList

def Spelled.intercalate {texts : Details → List String} {separator : String}
    (between : Spelled fun _ => separator) (lines : SpelledList texts) :
    Spelled fun details => String.intercalate separator (texts details) where
  parts := between.parts.intercalate lines.parts
  toList_text details := by
    rw [String.toList_intercalate, lines.toList_texts, between.toList_text details,
      SpelledList.flatMap_intercalate]

/-! ## Scripts -/

namespace Script

theorem text_append (front back : Script) : (front ++ back).text = front.text ++ back.text := by
  rw [text, List.map_append, String.join_append]
  rfl

theorem text_separated (separator : String) (scripts : List Script) :
    (separated separator scripts).text = String.intercalate separator (scripts.map text) := by
  induction scripts with
  | nil => rfl
  | cons script rest ih =>
      cases rest with
      | nil => rw [separated, List.map_singleton, String.intercalate_singleton]
      | cons next more =>
          have between : (code separator).text = separator := by simp [text, code, Piece.text]
          rw [separated, text_append, text_append, ih, between, List.map_cons, List.map_cons,
            List.map_cons, String.intercalate_cons_cons]
          exact List.cons_ne_nil next more

end Script

/-- The template of a family of scripts. -/
abbrev Spelling (script : Details → Script) : Type :=
  Spelled fun details => (script details).text

abbrev SpellingList (scripts : Details → List Script) : Type :=
  SpelledList fun details => (scripts details).map Script.text

namespace SpellingList

variable {script : Details → Script} {scripts front back : Details → List Script}

def nil : SpellingList fun _ => [] := SpelledList.nil

def cons (first : Spelling script) (others : SpellingList scripts) :
    SpellingList fun details => script details :: scripts details :=
  SpelledList.cons first others

def append (first : SpellingList front) (second : SpellingList back) :
    SpellingList fun details => front details ++ back details where
  parts := first.parts ++ second.parts
  toList_texts details := by
    rw [List.map_append]
    exact (SpelledList.append first second).toList_texts details

end SpellingList

namespace Spelling

variable {front back script : Details → Script} {scripts : Details → List Script}
  {text record field argument : Details → String} {texts : Details → List String} {separator : String}

def nil : Spelling fun _ => [] where
  parts := []
  toList_text _ := rfl

def codeCons (spelled : Spelled text) (others : Spelling script) :
    Spelling fun details => .code (text details) :: script details where
  parts := spelled.parts ++ others.parts
  toList_text details := by
    rw [Script.text, List.map_cons, String.join_cons, Piece.text]
    exact (Spelled.append spelled others).toList_text details

def literalCons (gap : TextGap) (filled : ∀ details, text details = details.text gap)
    (others : Spelling script) : Spelling fun details => .literal (text details) :: script details where
  parts := .text gap :: others.parts
  toList_text details := by
    rw [Script.text, List.map_cons, String.join_cons, Piece.text, filled, String.toList_append,
      List.flatMap_cons, Part.chars]
    exact congrArg _ (others.toList_text details)

def code (spelled : Spelled text) : Spelling fun details => Script.code (text details) :=
  codeCons spelled nil

def fixed {chars : List Char} (closed : Lexeme.closes chars = true) :
    Spelling fun _ => Script.code (String.ofList chars) :=
  code (.ofList closed)

def append (first : Spelling front) (second : Spelling back) :
    Spelling fun details => front details ++ back details where
  parts := first.parts ++ second.parts
  toList_text details := by
    rw [Script.text_append]
    exact (Spelled.append first second).toList_text details

def codeLines (lines : SpelledList texts) :
    Spelling fun details => Script.codeLines (texts details) :=
  code (.intercalate (.ofList Lexeme.closes_lineEnd) lines)

def separated (between : Spelled fun _ => separator) (all : SpellingList scripts) :
    Spelling fun details => Script.separated separator (scripts details) where
  parts := (Spelled.intercalate between all).parts
  toList_text details := by
    rw [Script.text_separated]
    exact (Spelled.intercalate between all).toList_text details

def access (recorded : Spelled record) (gap : TextGap)
    (filled : ∀ details, field details = details.text gap) :
    Spelling fun details => Script.access (record details) (field details) :=
  .codeCons recorded <| .codeCons (.ofList rfl) <| .literalCons gap filled <|
    .codeCons (.ofList Lexeme.closes_bracket) .nil

def function (named : Spelled argument) (value : Spelling script) :
    Spelling fun details => Script.function (argument details) (script details) :=
  .append (.append (.code (.append (.append (.ofList rfl) named) (.ofList rfl))) value) (.fixed rfl)

end Spelling

end LinkedViews
