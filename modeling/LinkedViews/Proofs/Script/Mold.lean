import LinkedViews.Proofs.Script.Spelling

/-!
Filled templates read back. A filled template is read as the lexemes of the template with words and
literals in between; what has been filled in can be read off the text, and templates that differ in
a lexeme have no text in common.
-/

namespace LinkedViews

/-- A lexeme of a template, or a gap. -/
inductive Mold where
  | fixed (lexeme : Lexeme)
  | word (gap : WordGap)
  | text (gap : TextGap)
deriving DecidableEq, Repr

namespace Mold

variable {details : Details}

def lexemes (details : Details) : Mold → List Lexeme
  | fixed lexeme => [lexeme]
  | word gap => (details.word gap).map .mark
  | text gap => [.literal '"' (Json.literalBody (details.text gap).toList)]

end Mold

def Part.molds : Part → List Mold
  | code chars _ => (Lexeme.read .code chars).map .fixed
  | word gap => [.word gap]
  | text gap => [.text gap]

def Part.text? : Part → Option TextGap
  | text gap => some gap
  | _ => none

/-! ## Reading -/

theorem Lexeme.read_word {word : List Char} (parts : word.all IndexName.isPart = true) :
    closes word = true ∧ read .code word = word.map .mark := by
  induction word with
  | nil => exact ⟨rfl, rfl⟩
  | cons c rest ih =>
      obtain ⟨part, others⟩ := (Bool.and_eq_true _ _).mp parts
      obtain ⟨closed, marks⟩ := ih others
      have plain : step .code c = (.code, [.mark c]) := by
        have other (d : Char) (strange : IndexName.isPart d = false) : c ≠ d := by
          rintro rfl
          rw [part] at strange
          contradiction
        simp [step, stepCode, other '"' (by decide), other '\'' (by decide), other '/' (by decide),
          other '\x60' (by decide)]
      constructor
      · rw [closes, after, plain]
        exact closed
      · rw [read, complete, after, plain, List.map_cons, ← marks]
        rfl

namespace Part

variable {details : Details}

theorem closes_chars (part : Part) : Lexeme.closes (part.chars details) = true := by
  cases part with
  | code chars closed => exact closed
  | word gap => exact (Lexeme.read_word (details.all_isPart_word gap)).1
  | text gap => exact (Lexeme.read_literal _).1

theorem read_chars (part : Part) :
    Lexeme.read .code (part.chars details) = part.molds.flatMap (Mold.lexemes details) := by
  cases part with
  | code chars closed =>
      rw [molds, List.flatMap_map]
      exact (List.flatMap_singleton' _).symm
  | word gap =>
      rw [molds, List.flatMap_singleton]
      exact (Lexeme.read_word (details.all_isPart_word gap)).2
  | text gap =>
      rw [molds, List.flatMap_singleton]
      exact (Lexeme.read_literal _).2

/-- A filled template is read lexeme by lexeme, and no lexeme reaches across a gap. -/
theorem read_flatMap_chars (parts : List Part) :
    Lexeme.read .code (parts.flatMap (chars details)) =
      (parts.flatMap molds).flatMap (Mold.lexemes details) := by
  induction parts with
  | nil => rfl
  | cons part rest ih =>
      rw [List.flatMap_cons, List.flatMap_cons, Lexeme.read_append part.closes_chars,
        List.flatMap_append, read_chars, ih]

end Part

/-! ## Outlines -/

/-- Lexemes with gaps for literals in double quotes. -/
abbrev Outline := List (Option Lexeme)

namespace Outline

/-- An outline with literals in its gaps; `bodies` lie between their quotes. -/
def fill : Outline → List (List Char) → List Lexeme
  | some lexeme :: rest, bodies => lexeme :: fill rest bodies
  | none :: rest, body :: bodies => .literal '"' body :: fill rest bodies
  | none :: rest, [] => fill rest []
  | [], _ => []

theorem fill_append (lexemes : List Lexeme) (rest : Outline) (bodies : List (List Char)) :
    fill (lexemes.map some ++ rest) bodies = lexemes ++ fill rest bodies := by
  induction lexemes with
  | nil => rfl
  | cons lexeme more ih => exact congrArg (lexeme :: ·) ih

end Outline

namespace Mold

variable {details : Details} {molds : List Mold}

def outline (words : WordGap → List Char) : Mold → Outline
  | fixed lexeme => [some lexeme]
  | word gap => ((words gap).map .mark).map some
  | text _ => [none]

def text? : Mold → Option TextGap
  | text gap => some gap
  | _ => none

/-- What lies between the quotes of the literal in a gap. -/
def body (details : Details) (gap : TextGap) : List Char :=
  Json.literalBody (details.text gap).toList

theorem filterMap_text? (parts : List Part) :
    (parts.flatMap Part.molds).filterMap text? = parts.filterMap Part.text? := by
  induction parts with
  | nil => rfl
  | cons part rest ih =>
      rw [List.flatMap_cons, List.filterMap_append, ih]
      cases part with
      | code chars closed =>
          have none : ((Lexeme.read .code chars).map fixed).filterMap text? = [] := by
            rw [List.filterMap_map]
            exact List.filterMap_eq_nil_iff.mpr fun lexeme _ => rfl
          exact congrArg (· ++ rest.filterMap Part.text?) none
      | word gap => rfl
      | text gap => rfl

theorem flatMap_lexemes (details : Details) (molds : List Mold) :
    molds.flatMap (lexemes details) =
      Outline.fill (molds.flatMap (outline details.word))
        ((molds.filterMap text?).map (body details)) := by
  induction molds with
  | nil => rfl
  | cons mold rest ih =>
      cases mold with
      | fixed lexeme => exact congrArg (lexeme :: ·) ih
      | word gap =>
          rw [List.flatMap_cons, List.flatMap_cons, lexemes, outline, Outline.fill_append]
          exact congrArg _ ih
      | text gap => exact congrArg (.literal '"' (body details gap) :: ·) ih

theorem count_outline (words : WordGap → List Char) (molds : List Mold) :
    (molds.flatMap (outline words)).count none = (molds.filterMap text?).length := by
  induction molds with
  | nil => rfl
  | cons mold rest ih =>
      rw [List.flatMap_cons, List.count_append, ih]
      cases mold with
      | fixed lexeme => simp [outline, text?, List.filterMap_cons]
      | word gap =>
          have none : ((words gap).map (some ∘ Lexeme.mark)).count .none = 0 :=
            List.count_eq_zero.mpr (by simp)
          simp [outline, text?, List.filterMap_cons, none]
      | text gap => simp [outline, text?, Nat.add_comm]

end Mold

/-! ## Brackets -/

namespace Lexeme

/-- The bracket that closes one that opens. -/
def closer? : Char → Option Char
  | '(' => some ')'
  | '[' => some ']'
  | '\x7b' => some '\x7d'
  | _ => none

def isCloser (c : Char) : Bool := c = ')' || c = ']' || c = '\x7d'

/-- The closing brackets that are still due behind some lexemes, the next one first; none where one
closes that is not due. -/
def due? (due : List Char) : List Lexeme → Option (List Char)
  | [] => some due
  | .mark c :: rest => match closer? c with
    | some closer => due? (closer :: due) rest
    | none =>
      if isCloser c then match due with
        | [] => none
        | next :: others => if c = next then due? others rest else none
      else due? due rest
  | _ :: rest => due? due rest

/-- Whether the round, square and curly brackets outside literals are balanced. -/
def Balanced (lexemes : List Lexeme) : Prop := due? [] lexemes = some []

instance (lexemes : List Lexeme) : Decidable (Balanced lexemes) :=
  inferInstanceAs (Decidable (due? [] lexemes = some []))

/-- Whether a lexeme is a character of code or a whole literal. -/
def isUnit : Lexeme → Bool
  | .mark _ => true
  | .literal _ _ => true
  | _ => false

theorem due?_append (due : List Char) (front back : List Lexeme) :
    due? due (front ++ back) = (due? due front).bind fun due => due? due back := by
  induction due, front using due?.induct with
  | case1 due => rfl
  | case2 due c rest closer opens ih =>
      simp only [List.cons_append, due?, opens]
      exact ih
  | case3 c rest none closes => simp [due?, none, closes]
  | case4 rest next others none closes ih =>
      simp only [List.cons_append, due?, none, closes, if_true]
      exact ih
  | case5 c rest none closes next others other => simp [due?, none, closes, other]
  | case6 due c rest none plain ih =>
      simp only [List.cons_append, due?, none, plain]
      exact ih
  | case7 due lexeme rest unmarked ih =>
      rw [List.cons_append, due?, due?]
      · exact ih
      · exact unmarked
      · exact unmarked

theorem Balanced.append {front back : List Lexeme} (first : Balanced front)
    (second : Balanced back) : Balanced (front ++ back) := by
  rw [Balanced, due?_append, first]
  exact second

theorem due?_word {word : List Char} (parts : word.all IndexName.isPart = true) (due : List Char)
    (back : List Lexeme) : due? due (word.map .mark ++ back) = due? due back := by
  induction word with
  | nil => rfl
  | cons c rest ih =>
      obtain ⟨part, others⟩ := (Bool.and_eq_true _ _).mp parts
      have opener : closer? c = none := by
        unfold closer?
        split <;> first | rfl | exact absurd part (by decide)
      have closer : isCloser c = false := by
        have other (d : Char) (strange : IndexName.isPart d = false) : c ≠ d := by
          rintro rfl
          rw [part] at strange
          contradiction
        simp [isCloser, other ')' (by decide), other ']' (by decide), other '\x7d' (by decide)]
      simp only [List.map_cons, List.cons_append, due?, opener, closer]
      exact ih others

end Lexeme

namespace Mold

variable {details : Details}

def fixed? : Mold → Option Lexeme
  | fixed lexeme => some lexeme
  | _ => none

/-- Words have no brackets, so those of a template are those of its fixed lexemes. -/
theorem due?_flatMap_lexemes (details : Details) (due : List Char) (molds : List Mold) :
    Lexeme.due? due (molds.flatMap (lexemes details)) =
      Lexeme.due? due (molds.filterMap fixed?) := by
  induction molds generalizing due with
  | nil => rfl
  | cons mold rest ih =>
      cases mold with
      | fixed lexeme =>
          have shape : (fixed lexeme :: rest).filterMap fixed? = [lexeme] ++ rest.filterMap fixed? :=
            rfl
          rw [List.flatMap_cons, shape, lexemes, Lexeme.due?_append, Lexeme.due?_append]
          simp only [ih]
      | word gap =>
          rw [List.flatMap_cons, lexemes, Lexeme.due?_word (details.all_isPart_word gap), ih]
          rfl
      | text gap =>
          rw [List.flatMap_cons, lexemes, List.singleton_append, Lexeme.due?, ih]
          · rfl
          · simp

end Mold

/-! ## Templates that differ -/

def moldsOf (parts : List Part) : List Mold := parts.flatMap Part.molds

theorem moldsOf_append (front back : List Part) :
    moldsOf (front ++ back) = moldsOf front ++ moldsOf back :=
  List.flatMap_append

namespace Mold

variable {details other : Details} {front back molds rest : List Mold}

/-- What stands directly before a place of a template. -/
inductive Edge where
  | apart
  | inWord
  | gap
deriving DecidableEq, Repr

/-- What stands before the place behind a lexeme or a gap; none where a gap for a word is not apart
from the word characters around it. -/
def edge? (edge : Edge) : Mold → Option Edge
  | fixed (.mark c) =>
    if IndexName.isPart c then if edge = .gap then none else some .inWord else some .apart
  | fixed _ => some .apart
  | word _ => if edge = .apart then some .gap else none
  | text _ => some .apart

def edges? (edge : Edge) : List Mold → Option Edge
  | [] => some edge
  | mold :: rest => (edge? edge mold).bind fun next => edges? next rest

theorem edges?_append (edge : Edge) (front back : List Mold) :
    edges? edge (front ++ back) = (edges? edge front).bind fun next => edges? next back := by
  induction front generalizing edge with
  | nil => rfl
  | cons mold rest ih => simp only [List.cons_append, edges?, ih, Option.bind_assoc]

/-- Whether every word of a template is apart from other word characters, at least from some place
before the template on. -/
def Delimited (molds : List Mold) : Prop := ∃ edge, edges? edge molds = some .apart

/-- Whether a word that stands before something ends there. -/
def delimits : Mold → Bool
  | fixed (.mark c) => !IndexName.isPart c
  | word _ => false
  | _ => true

theorem Delimited.tail {mold : Mold} (delimited : Delimited (mold :: rest)) : Delimited rest := by
  obtain ⟨edge, ends⟩ := delimited
  obtain ⟨next, _, later⟩ := Option.bind_eq_some_iff.mp ends
  exact ⟨next, later⟩

theorem head_of_edges? (ends : edges? .gap rest = some .apart) : rest.head?.any delimits = true := by
  cases rest with
  | nil => contradiction
  | cons mold more =>
      obtain ⟨next, first, _⟩ := Option.bind_eq_some_iff.mp ends
      unfold edge? at first
      unfold delimits
      split at first <;> simp_all

theorem Delimited.head {gap : WordGap} (delimited : Delimited (word gap :: rest)) :
    rest.head?.any delimits = true := by
  obtain ⟨edge, ends⟩ := delimited
  obtain ⟨next, first, later⟩ := Option.bind_eq_some_iff.mp ends
  unfold edge? at first
  split at first
  · contradiction
  · contradiction
  · split at first
    · obtain rfl := Option.some.inj first
      exact head_of_edges? later
    · contradiction
  · contradiction

theorem isUnit_flatMap_lexemes (units : (molds.filterMap fixed?).all Lexeme.isUnit = true) :
    (molds.flatMap (lexemes details)).all Lexeme.isUnit = true := by
  rw [List.all_eq_true] at units ⊢
  intro lexeme member
  obtain ⟨mold, own, shown⟩ := List.mem_flatMap.mp member
  cases mold with
  | fixed other =>
      obtain rfl := List.mem_singleton.mp shown
      exact units _ (List.mem_filterMap.mpr ⟨_, own, rfl⟩)
  | word gap =>
      obtain ⟨c, _, rfl⟩ := List.mem_map.mp shown
      rfl
  | text gap =>
      obtain rfl := List.mem_singleton.mp shown
      rfl

/-- What is required of a segment of a template: its words are delimited, it has no comments, and
its brackets are balanced. -/
structure Sound (molds : List Mold) : Prop where
  delimited : edges? .apart molds = some .apart
  units : (molds.filterMap fixed?).all Lexeme.isUnit = true
  balanced : Lexeme.Balanced (molds.filterMap fixed?)

instance (molds : List Mold) : Decidable (Sound molds) :=
  decidable_of_iff
    (edges? .apart molds = some .apart ∧ (molds.filterMap fixed?).all Lexeme.isUnit = true ∧
      Lexeme.Balanced (molds.filterMap fixed?))
    ⟨fun ⟨delimited, units, balanced⟩ => ⟨delimited, units, balanced⟩,
      fun sound => ⟨sound.delimited, sound.units, sound.balanced⟩⟩

/-- Whether two templates differ in a lexeme, and have their gaps at the same places up to there. -/
def clash : List Mold → List Mold → Bool
  | fixed lexeme :: front, fixed different :: back => lexeme ≠ different || clash front back
  | word _ :: front, word _ :: back => clash front back
  | text _ :: front, text _ :: back => clash front back
  | _, _ => false

theorem Sound.append (first : Sound front) (second : Sound back) : Sound (front ++ back) where
  delimited := by
    rw [edges?_append, first.delimited]
    exact second.delimited
  units := by
    rw [List.filterMap_append, List.all_append, first.units, second.units]
    rfl
  balanced := by
    rw [List.filterMap_append]
    exact first.balanced.append second.balanced

theorem clash_append (clashing : clash front back = true) (more others : List Mold) :
    clash (front ++ more) (back ++ others) = true := by
  induction front, back using clash.induct with
  | case1 lexeme front different back ih =>
      simp only [clash, List.cons_append, Bool.or_eq_true] at clashing ⊢
      exact clashing.imp_right ih
  | case2 gap front second back ih => exact ih clashing
  | case3 gap front second back ih => exact ih clashing
  | case4 front back fixed word text => simp [clash] at clashing

theorem clash_common (common front back : List Mold) :
    clash (common ++ front) (common ++ back) = clash front back := by
  induction common with
  | nil => rfl
  | cons mold rest ih =>
      cases mold with
      | fixed lexeme => simp [clash, ih]
      | word gap => exact ih
      | text gap => exact ih

theorem ne_of_delimits (bounded : rest.head?.any delimits = true) (c : Char)
    (part : IndexName.isPart c = true) (tail : List Lexeme) :
    rest.flatMap (lexemes details) ≠ .mark c :: tail := by
  cases rest with
  | nil => contradiction
  | cons mold more =>
      cases mold with
      | word gap => contradiction
      | text gap => exact fun same => Lexeme.noConfusion (List.cons.inj same).1
      | fixed lexeme =>
          intro same
          obtain ⟨rfl, _⟩ := List.cons.inj same
          simp [delimits, part] at bounded

/-- Two words that are each followed by a delimiter end together. -/
theorem eq_of_words {word second : List Char} (parts : word.all IndexName.isPart = true)
    (others : second.all IndexName.isPart = true) (bounded : front.head?.any delimits = true)
    (limited : back.head?.any delimits = true)
    (same : word.map .mark ++ front.flatMap (lexemes details) =
      second.map .mark ++ back.flatMap (lexemes other)) :
    word = second ∧ front.flatMap (lexemes details) = back.flatMap (lexemes other) := by
  induction word generalizing second with
  | nil =>
      cases second with
      | nil => exact ⟨rfl, same⟩
      | cons d more =>
          have part := ((Bool.and_eq_true _ _).mp others).1
          exact absurd same (ne_of_delimits bounded d part _)
  | cons c rest ih =>
      obtain ⟨part, later⟩ := (Bool.and_eq_true _ _).mp parts
      cases second with
      | nil => exact absurd same.symm (ne_of_delimits limited c part _)
      | cons d more =>
          obtain ⟨first, tail⟩ := List.cons.inj same
          obtain rfl := Lexeme.mark.inj first
          obtain ⟨rfl, behind⟩ := ih later ((Bool.and_eq_true _ _).mp others).2 tail
          exact ⟨rfl, behind⟩

/-- Templates that clash have no text in common. -/
theorem flatMap_ne_of_clash (delimited : Delimited front) (bounded : Delimited back)
    (clashing : clash front back = true) :
    front.flatMap (lexemes details) ≠ back.flatMap (lexemes other) := by
  intro same
  induction front, back using clash.induct with
  | case1 lexeme front different back ih =>
      obtain ⟨rfl, tail⟩ := List.cons.inj same
      simp only [clash, ne_eq, not_true_eq_false, decide_false, Bool.false_or] at clashing
      exact ih delimited.tail bounded.tail clashing tail
  | case2 gap front second back ih =>
      obtain ⟨_, tail⟩ := eq_of_words (details.all_isPart_word gap) (other.all_isPart_word second)
        delimited.head bounded.head same
      exact ih delimited.tail bounded.tail clashing tail
  | case3 gap front second back ih =>
      obtain ⟨_, tail⟩ := List.cons.inj same
      exact ih delimited.tail bounded.tail clashing tail
  | case4 front back fixed word text => simp [clash] at clashing

/-- What is filled into a template can be read off the text. -/
theorem lexemes_eq_of_flatMap_eq (delimited : Delimited molds)
    (same : molds.flatMap (lexemes details) = molds.flatMap (lexemes other)) :
    ∀ mold ∈ molds, lexemes details mold = lexemes other mold := by
  induction molds with
  | nil => exact fun mold member => absurd member List.not_mem_nil
  | cons mold rest ih =>
      have step : lexemes details mold = lexemes other mold ∧
          rest.flatMap (lexemes details) = rest.flatMap (lexemes other) := by
        cases mold with
        | fixed lexeme => exact ⟨rfl, (List.cons.inj same).2⟩
        | text gap =>
            obtain ⟨first, tail⟩ := List.cons.inj same
            exact ⟨congrArg (fun lexeme => [lexeme]) first, tail⟩
        | word gap =>
            obtain ⟨named, tail⟩ := eq_of_words (details.all_isPart_word gap)
              (other.all_isPart_word gap) delimited.head delimited.head same
            exact ⟨congrArg (List.map Lexeme.mark) named, tail⟩
      obtain ⟨here, tail⟩ := step
      exact List.forall_mem_cons.mpr ⟨here, ih delimited.tail tail⟩

end Mold

end LinkedViews
