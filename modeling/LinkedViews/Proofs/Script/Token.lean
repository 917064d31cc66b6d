import LinkedViews.Proofs.Script.Mold
import LinkedViews.Proofs.Text.ClosingTag
import LinkedViews.Script.Fragment

/-!
Words of a script. Lexemes are put together to words and values, white space and comments fall
away. How a text is broken into lines and indented makes no difference, and the words of a filled
template are those of the template with the name of the index in its gaps.
-/

namespace LinkedViews

variable {c : Char} {text front back taken : List Char} {index : IndexName}

inductive Token where
  /-- A name or a word of the language; none is a name that a template leaves open. -/
  | word (name : Option (List Char))
  /-- A number, a string, or the word for a truth value or for nothing. -/
  | value
  | mark (c : Char)
  | broken
deriving DecidableEq, Repr

namespace Token

def isSpace (c : Char) : Bool := c = ' ' || c = '\t' || Lexeme.isLineEnd c

def valueWords : List (List Char) :=
  [['t', 'r', 'u', 'e'], ['f', 'a', 'l', 's', 'e'], ['n', 'u', 'l', 'l']]

def ofWord (word : List Char) : Token :=
  if word.head?.any Char.isDigit ∨ word ∈ valueWords then .value else .word (some word)

/-- The word that ends where no further word character follows. -/
def flush (taken : List Char) : List Token := if taken = [] then [] else [ofWord taken]

/-- The name of the index is left open; the words in the other gaps are numbers. -/
def ofGap : WordGap → Token
  | .index => .word none
  | .width => .value
  | .height => .value

def wordChar? : Mold → Option Char
  | .fixed (.mark c) => if IndexName.isPart c then some c else none
  | _ => none

/-- What stands outside words. -/
def ofMold : Mold → List Token
  | .fixed (.mark c) => if isSpace c then [] else [.mark c]
  | .fixed (.literal _ _) => [.value]
  | .fixed (.comment _) => []
  | .fixed .broken => [.broken]
  | .word gap => [ofGap gap]
  | .text _ => [.value]

/-- One step with the beginning of a word behind it. -/
def step (taken : List Char) (mold : Mold) : List Char × List Token :=
  match wordChar? mold with
  | some c => (taken ++ [c], [])
  | none => ([], flush taken ++ ofMold mold)

def after (taken : List Char) : List Mold → List Char
  | [] => taken
  | mold :: rest => after (step taken mold).1 rest

def complete (taken : List Char) : List Mold → List Token
  | [] => []
  | mold :: rest => (step taken mold).2 ++ complete (step taken mold).1 rest

def words (taken : List Char) (molds : List Mold) : List Token :=
  complete taken molds ++ flush (after taken molds)

/-- The tokens of a text from a spot on, with the beginning of a word behind it. -/
def readFrom (spot : Lexeme.Spot) (taken text : List Char) : List Token :=
  words taken ((Lexeme.read spot text).map .fixed)

def read (text : List Char) : List Token := readFrom .code [] text

/-- The tokens of a template. -/
def ofParts (parts : List Part) : List Token := words [] (moldsOf parts)

/-- A token with a name in the place of the one that is left open. -/
def fill (index : IndexName) : Token → Token
  | .word none => .word (some index.text.toList)
  | token => token

theorem after_append (taken : List Char) (front back : List Mold) :
    after taken (front ++ back) = after (after taken front) back := by
  induction front generalizing taken with
  | nil => rfl
  | cons mold rest ih => exact ih _

theorem complete_append (taken : List Char) (front back : List Mold) :
    complete taken (front ++ back) = complete taken front ++ complete (after taken front) back := by
  induction front generalizing taken with
  | nil => rfl
  | cons mold rest ih =>
      rw [List.cons_append, complete, ih, complete, List.append_assoc]
      rfl

theorem words_append (taken : List Char) (front back : List Mold) :
    words taken (front ++ back) = complete taken front ++ words (after taken front) back := by
  rw [words, complete_append, after_append, List.append_assoc]
  rfl

theorem words_step (taken : List Char) (mold : Mold) (rest : List Mold) :
    words taken (mold :: rest) = (step taken mold).2 ++ words (step taken mold).1 rest := by
  rw [words, complete, List.append_assoc]
  rfl

theorem words_cons {mold : Mold} (apart : wordChar? mold = none) (taken : List Char)
    (rest : List Mold) : words taken (mold :: rest) = flush taken ++ ofMold mold ++ words [] rest := by
  rw [words_step, step, apart]

/-- Words end at the latest where something else begins. -/
theorem words_append_cons {mold : Mold} (apart : wordChar? mold = none) (taken : List Char)
    (front back : List Mold) :
    words taken (front ++ mold :: back) = words taken front ++ ofMold mold ++ words [] back := by
  have first : words taken front = complete taken front ++ flush (after taken front) := rfl
  rw [words_append, words_cons apart, first]
  simp only [List.append_assoc]

/-! ## Lines -/

theorem wordChar?_lineEnd (line : c = '\n' ∨ c = '\r') :
    wordChar? (.fixed (.mark c)) = none ∧ ofMold (.fixed (.mark c)) = [] := by
  obtain rfl | rfl := line
  · decide
  · decide

theorem readFrom_line (spot : Lexeme.Spot) (taken : List Char) (line : c = '\n' ∨ c = '\r')
    (front back : List Char) :
    readFrom spot taken (front ++ c :: back) = readFrom spot taken front ++ read back := by
  obtain ⟨apart, silent⟩ := wordChar?_lineEnd line
  rw [readFrom, Lexeme.read_line spot line, List.map_append, List.map_cons,
    words_append_cons apart, silent, List.append_nil]
  rfl

theorem readFrom_lineEnd (spot : Lexeme.Spot) (taken : List Char) (line : c = '\n' ∨ c = '\r')
    (text : List Char) : readFrom spot taken (c :: text) = readFrom spot taken [] ++ read text :=
  readFrom_line spot taken line [] text

theorem read_line (front back : List Char) :
    read (front ++ '\n' :: back) = read front ++ read back :=
  readFrom_line .code [] (.inl rfl) front back

theorem readFrom_cons (spot : Lexeme.Spot) (taken text : List Char) :
    readFrom spot taken (c :: text) =
      complete taken ((Lexeme.step spot c).2.map .fixed) ++
        readFrom (Lexeme.step spot c).1 (after taken ((Lexeme.step spot c).2.map .fixed)) text := by
  rw [readFrom, Lexeme.read, Lexeme.complete, Lexeme.after, List.append_assoc, List.map_append,
    words_append]
  rfl

/-- The first line of a text is read as it is without the others, and they are read afresh. -/
theorem readFrom_lines (spot : Lexeme.Spot) (taken text : List Char) :
    readFrom spot taken text =
      readFrom spot taken ((Text.lines text).headD []) ++ (Text.lines text).tail.flatMap read := by
  -- The spot and the word change with every character, so the claim is about all of them.
  induction text using Text.lines.induct generalizing spot taken with
  | case1 => exact (List.append_nil _).symm
  | case2 rest ih =>
      rw [Text.lines, readFrom_lineEnd spot taken (.inl rfl), read, ih]
      cases Text.lines rest <;> rfl
  | case3 rest ih =>
      rw [Text.lines, readFrom_lineEnd spot taken (.inr rfl), read,
        readFrom_lineEnd .code [] (.inl rfl), read, ih]
      cases Text.lines rest <;> rfl
  | case4 c rest notFeed notReturn alone ih =>
      have own : Text.lines (c :: rest) = [[c]] := by simp [Text.lines, alone]
      rw [own, Text.lines_eq_nil.mp alone, List.headD_cons, List.tail_cons, List.flatMap_nil,
        List.append_nil]
  | case5 c rest notFeed notReturn line more first ih =>
      have own : Text.lines (c :: rest) = (c :: line) :: more := by simp [Text.lines, first]
      rw [own, List.headD_cons, List.tail_cons, readFrom_cons, readFrom_cons, ih, first,
        List.append_assoc]
      rfl

theorem read_lines (text : List Char) : (Text.lines text).flatMap read = read text := by
  rw [read, readFrom_lines]
  cases Text.lines text <;> rfl

theorem read_intercalate {separator : List Char}
    (breaks : ∀ front back, read (front ++ separator ++ back) = read front ++ read back)
    (texts : List (List Char)) : read (separator.intercalate texts) = texts.flatMap read := by
  induction texts with
  | nil => rfl
  | cons text rest ih =>
      cases rest with
      | nil => simp
      | cons next more =>
          rw [List.intercalate_cons_cons, breaks, ih]
          rfl

theorem read_newline (front back : List Char) :
    read (front ++ ['\n'] ++ back) = read front ++ read back := by
  rw [List.append_assoc]
  exact read_line front back

theorem read_blankLine (front back : List Char) :
    read (front ++ ['\n', '\n'] ++ back) = read front ++ read back := by
  rw [List.append_assoc]
  exact (read_line front _).trans (congrArg (read front ++ ·) (read_line [] back))

theorem read_space (text : List Char) : read (' ' :: text) = read text := by
  rw [read, readFrom_cons]
  rfl

theorem read_indent (text : String) :
    read (Text.indent Fragment.margin text).toList = read text.toList := by
  have margin : Fragment.margin.toList = [' ', ' ', ' ', ' '] := String.toList_ofList
  have indented (line : List Char) : read (Text.indentLine Fragment.margin.toList line) = read line := by
    unfold Text.indentLine
    split
    · rename_i empty
      rw [empty]
    · rw [margin]
      simp only [List.cons_append, List.nil_append, read_space]
  rw [Text.indent, String.toList_ofList, read_intercalate read_newline, List.flatMap_map, ← read_lines text.toList]
  exact List.flatMap_congr fun line _ => indented line

/-! ## Templates -/

theorem words_word (word : List Char) (parts : word.all IndexName.isPart = true)
    (taken : List Char) (rest : List Mold) :
    words taken ((word.map Lexeme.mark).map .fixed ++ rest) = words (taken ++ word) rest := by
  induction word generalizing taken with
  | nil => rw [List.append_nil]; rfl
  | cons c more ih =>
      obtain ⟨part, others⟩ := (Bool.and_eq_true _ _).mp parts
      have char : step taken (.fixed (.mark c)) = (taken ++ [c], []) := by
        simp [step, wordChar?, part]
      have later := ih others (taken ++ [c])
      rw [List.append_assoc] at later
      rw [← List.singleton_append (l := more), ← later]
      simp [words, after, complete, char]

theorem isDigit_of_isStart (start : IndexName.isStart c = true) : c.isDigit = false := by
  simp only [IndexName.isStart, Bool.or_eq_true, decide_eq_true_eq] at start
  rcases start with (letter | rfl) | rfl
  · simp only [Char.isAlpha, Char.isUpper, Char.isLower, Bool.or_eq_true, Bool.and_eq_true,
      decide_eq_true_eq, ge_iff_le, UInt32.le_iff_toNat_le, Char.toNat_val] at letter
    rw [← Bool.not_eq_true, Char.isDigit_iff_toNat]
    simp only [Char.reduceToNat] at letter ⊢
    omega
  · decide
  · decide

theorem ofWord_index (index : IndexName) :
    ofWord index.text.toList = .word (some index.text.toList) := by
  have valid := index.valid
  simp only [IndexName.isValid, Bool.and_eq_true, Bool.not_eq_true'] at valid
  obtain ⟨⟨identifier, _⟩, noKeyword⟩ := valid
  have first : index.text.toList.head?.any Char.isDigit = false := by
    cases shown : index.text.toList with
    | nil => rfl
    | cons c rest =>
        rw [shown] at identifier
        exact isDigit_of_isStart ((Bool.and_eq_true _ _).mp identifier).1
  have noValue : index.text.toList ∉ valueWords := by
    intro member
    have reserved : ∀ word ∈ valueWords, IndexName.keywords.contains (String.ofList word) = true := by
      decide
    have keyword := reserved _ member
    rw [String.ofList_toList, noKeyword] at keyword
    contradiction
  simp [ofWord, first, noValue]

/-- A word in a gap is one token, for nothing around the gap belongs to it. -/
theorem flush_word (details : Details) (gap : WordGap) :
    flush (details.word gap) = [fill details.index (ofGap gap)] := by
  have number (n : Nat) : flush (Numeral.digits n) = [.value] := by
    have first : (Numeral.digits n).head?.any Char.isDigit = true := by
      cases shown : Numeral.digits n with
      | nil => exact absurd shown (Numeral.digits_ne_nil n)
      | cons c rest => exact Numeral.isDigit_of_mem_digits (shown ▸ List.mem_cons_self)
    simp [flush, Numeral.digits_ne_nil, ofWord, first]
  cases gap with
  | index =>
      have nonempty : details.index.text.toList ≠ [] := by
        intro empty
        have valid := details.index.valid
        simp [IndexName.isValid, empty, IndexName.isIdentifier] at valid
      exact (if_neg nonempty).trans (congrArg (fun token => [token]) (ofWord_index _))
  | width => exact number _
  | height => exact number _

theorem words_delimited {molds : List Mold} (details : Details) (taken : List Char)
    (delimits : molds.head?.any Mold.delimits = true) :
    words taken ((molds.flatMap (Mold.lexemes details)).map .fixed) =
      flush taken ++ words [] ((molds.flatMap (Mold.lexemes details)).map .fixed) := by
  cases molds with
  | nil => contradiction
  | cons mold rest =>
      obtain ⟨lexeme, own, apart⟩ : ∃ lexeme, Mold.lexemes details mold = [lexeme] ∧
          wordChar? (.fixed lexeme) = none := by
        cases mold with
        | word gap => contradiction
        | text gap => exact ⟨_, rfl, rfl⟩
        | fixed lexeme =>
            refine ⟨lexeme, rfl, ?_⟩
            cases lexeme with
            | mark c =>
                simp only [List.head?_cons, Option.any_some, Mold.delimits, Bool.not_eq_true'] at delimits
                simp [wordChar?, delimits]
            | literal quote body => rfl
            | comment text => rfl
            | broken => rfl
      rw [List.flatMap_cons, own, List.singleton_append, List.map_cons, words_cons apart,
        words_cons apart, List.append_assoc]
      rfl

theorem fill_ofWord (index : IndexName) (word : List Char) : fill index (ofWord word) = ofWord word := by
  unfold ofWord
  split <;> rfl

theorem map_fill_flush (index : IndexName) (taken : List Char) :
    (flush taken).map (fill index) = flush taken := by
  unfold flush
  split
  · rfl
  · exact congrArg (fun token => [token]) (fill_ofWord index taken)

theorem map_fill_step (index : IndexName) (taken : List Char) (lexeme : Lexeme) :
    (step taken (.fixed lexeme)).2.map (fill index) = (step taken (.fixed lexeme)).2 := by
  have outside : (ofMold (.fixed lexeme)).map (fill index) = ofMold (.fixed lexeme) := by
    cases lexeme with
    | mark c =>
        rw [ofMold]
        split <;> rfl
    | literal quote body => rfl
    | comment text => rfl
    | broken => rfl
  unfold step
  split
  · rfl
  · rw [List.map_append, map_fill_flush, outside]

/-- The tokens of a filled template are those of the template, filled. -/
theorem words_flatMap_lexemes (details : Details) {edge : Mold.Edge} {molds : List Mold}
    (taken : List Char) (outside : edge = .apart → taken = [])
    (ends : Mold.edges? edge molds = some .apart) :
    words taken ((molds.flatMap (Mold.lexemes details)).map .fixed) =
      (words taken molds).map (fill details.index) := by
  -- A word may be open only where no gap for a word can come.
  induction molds generalizing edge taken with
  | nil =>
      rw [outside (Option.some.inj ends)]
      rfl
  | cons mold rest ih =>
      obtain ⟨next, passed, later⟩ := Option.bind_eq_some_iff.mp ends
      cases mold with
      | fixed lexeme =>
          have behind : next = .apart → (step taken (.fixed lexeme)).1 = [] := by
            rintro rfl
            cases lexeme with
            | mark c =>
                rw [Mold.edge?] at passed
                by_cases part : IndexName.isPart c = true
                · rw [if_pos part] at passed
                  split at passed <;> contradiction
                · simp [step, wordChar?, part]
            | literal quote body => rfl
            | comment text => rfl
            | broken => rfl
          rw [List.flatMap_cons, Mold.lexemes, List.singleton_append, List.map_cons, words_step,
            words_step, List.map_append, map_fill_step, ih _ behind later]
      | text gap =>
          have behind : next = .apart → ([] : List Char) = [] := fun _ => rfl
          rw [List.flatMap_cons, Mold.lexemes, List.singleton_append, List.map_cons, words_cons rfl,
            words_cons rfl, List.map_append, List.map_append, map_fill_flush, ih _ behind later]
          rfl
      | word gap =>
          have closed : taken = [] ∧ next = .gap := by
            rw [Mold.edge?] at passed
            split at passed
            · rename_i apart
              exact ⟨outside apart, (Option.some.inj passed).symm⟩
            · contradiction
          obtain ⟨rfl, rfl⟩ := closed
          have delimits := Mold.head_of_edges? later
          have behind : Mold.Edge.gap = .apart → ([] : List Char) = [] := fun _ => rfl
          rw [List.flatMap_cons, Mold.lexemes, List.map_append,
            words_word _ (details.all_isPart_word gap), List.nil_append,
            words_delimited details _ delimits, flush_word, ih _ behind later, words_cons rfl]
          rfl

theorem read_spelled {text : Details → String} (spelled : Spelled text)
    (ends : Mold.edges? .apart (moldsOf spelled.parts) = some .apart) (details : Details) :
    read (text details).toList = (ofParts spelled.parts).map (fill details.index) := by
  rw [read, readFrom, spelled.toList_text, Part.read_flatMap_chars]
  exact words_flatMap_lexemes details [] (fun _ => rfl) ends

end Token

end LinkedViews
