import LinkedViews.Proofs.Json.Literal

/-!
Script text as a reader of the script language takes it apart: literals of either quote and
comments as units, everything else character by character. Nothing of the text is lost on the way.
-/

namespace LinkedViews

variable {c : Char} {front back text : List Char}

inductive Lexeme where
  | mark (c : Char)
  /-- What lies between two quotes, as it is written. -/
  | literal (quote : Char) (body : List Char)
  | comment (text : List Char)
  /-- A literal that its line ends in, or the beginning of something that is not read here. -/
  | broken
deriving DecidableEq, Repr

namespace Lexeme

/-- Where a reader stands, with the part of a literal or a comment that lies behind it. -/
inductive Spot where
  | code
  | slash
  | comment (taken : List Char)
  | inside (quote : Char) (taken : List Char)
  | escape (quote : Char) (taken : List Char)
deriving DecidableEq, Repr

def isLineEnd (c : Char) : Bool := c = '\n' || c = '\r' || c = '\u2028' || c = '\u2029'

/-- One character of code. Templates, that is literals in backquotes, are not read. -/
def stepCode (c : Char) : Spot × List Lexeme :=
  if c = '"' ∨ c = '\'' then (.inside c [], [])
  else if c = '/' then (.slash, [])
  else if c = '\x60' then (.code, [.broken])
  else (.code, [.mark c])

/-- One character of a text. Of the two kinds of comments only the one up to the end of a line is
read, and a slash that opens none divides. -/
def step : Spot → Char → Spot × List Lexeme
  | .code, c => stepCode c
  | .slash, c =>
    if c = '/' then (.comment [], [])
    else if c = '*' then (.code, [.broken])
    else ((stepCode c).1, .mark '/' :: (stepCode c).2)
  | .comment taken, c =>
    if isLineEnd c then (.code, [.comment taken, .mark c]) else (.comment (taken ++ [c]), [])
  | .inside quote taken, c =>
    if c = '\n' ∨ c = '\r' then (.code, [.broken, .mark c])
    else if c = quote then (.code, [.literal quote taken])
    else if c = '\\' then (.escape quote (taken ++ [c]), [])
    else (.inside quote (taken ++ [c]), [])
  | .escape quote taken, c =>
    if isLineEnd c then (.code, [.broken, .mark c]) else (.inside quote (taken ++ [c]), [])

/-- What is left to be said at the end of a text. -/
def ending : Spot → List Lexeme
  | .code => []
  | .slash => [.mark '/']
  | .comment taken => [.comment taken]
  | .inside _ _ => [.broken]
  | .escape _ _ => [.broken]

/-- Where a text leads to. -/
def after (spot : Spot) : List Char → Spot
  | [] => spot
  | c :: rest => after (step spot c).1 rest

/-- The lexemes that are complete within a text. -/
def complete (spot : Spot) : List Char → List Lexeme
  | [] => []
  | c :: rest => (step spot c).2 ++ complete (step spot c).1 rest

def read (spot : Spot) (text : List Char) : List Lexeme :=
  complete spot text ++ ending (after spot text)

def ofText (text : String) : List Lexeme := read .code text.toList

/-- Whether a text ends outside literals and comments. -/
def closes (text : List Char) : Bool := after .code text = .code

theorem after_append (spot : Spot) (front back : List Char) :
    after spot (front ++ back) = after (after spot front) back := by
  induction front generalizing spot with
  | nil => rfl
  | cons c rest ih => exact ih _

theorem complete_append (spot : Spot) (front back : List Char) :
    complete spot (front ++ back) = complete spot front ++ complete (after spot front) back := by
  induction front generalizing spot with
  | nil => rfl
  | cons c rest ih =>
      rw [List.cons_append, complete, ih, complete, List.append_assoc]
      rfl

theorem after_of_closes (closed : closes text = true) : after .code text = .code :=
  of_decide_eq_true closed

theorem closes_append (first : closes front = true) (second : closes back = true) :
    closes (front ++ back) = true := by
  rw [closes, after_append, after_of_closes first]
  exact second

theorem read_append (closed : closes front = true) :
    read .code (front ++ back) = read .code front ++ read .code back := by
  simp [read, complete_append, after_append, after_of_closes closed, ending]

/-- The end of a line ends everything but the script. -/
theorem step_lineEnd (spot : Spot) (line : c = '\n' ∨ c = '\r') :
    step spot c = (.code, ending spot ++ [.mark c]) := by
  have blank : isLineEnd c = true := by
    obtain rfl | rfl := line
    · decide
    · decide
  have plain : stepCode c = (.code, [.mark c]) := by
    obtain rfl | rfl := line
    · decide
    · decide
  cases spot with
  | code => exact plain
  | slash =>
      have other : c ≠ '/' ∧ c ≠ '*' := by
        obtain rfl | rfl := line
        · decide
        · decide
      simp [step, other, plain, ending]
  | comment taken => simp [step, blank, ending]
  | inside quote taken => simp [step, line, ending]
  | escape quote taken => simp [step, blank, ending]

theorem read_line (spot : Spot) (line : c = '\n' ∨ c = '\r') (front back : List Char) :
    read spot (front ++ c :: back) = read spot front ++ .mark c :: read .code back := by
  rw [read, complete_append, after_append, complete, after, step_lineEnd _ line]
  simp [read]

/-! ## Literals -/

/-- Whether a text stays within the literal that it stands in. -/
def IsBody (body : List Char) : Prop := ∀ taken,
  after (.inside '"' taken) body = .inside '"' (taken ++ body) ∧
    complete (.inside '"' taken) body = []

theorem IsBody.append (first : IsBody front) (second : IsBody back) : IsBody (front ++ back) := by
  intro taken
  obtain ⟨here, silent⟩ := first taken
  obtain ⟨behind, quiet⟩ := second (taken ++ front)
  rw [after_append, complete_append, here, silent, behind, quiet, List.append_assoc]
  exact ⟨rfl, rfl⟩

theorem IsBody.plain (quote : c ≠ '"') (backslash : c ≠ '\\') (printable : 0x20 ≤ c.toNat) :
    IsBody [c] := by
  intro taken
  have noEnd : ¬ (c = '\n' ∨ c = '\r') := by
    rintro (rfl | rfl)
    · exact absurd printable (by decide)
    · exact absurd printable (by decide)
  simp [after, complete, step, quote, backslash, noEnd]

theorem IsBody.pair (line : isLineEnd c = false) : IsBody ['\\', c] := by
  intro taken
  simp [after, complete, step, line]

theorem isLineEnd_of_unletter? {letter : Char}
    (stands : Json.Reader.unletter? letter = some c) : isLineEnd letter = false := by
  unfold Json.Reader.unletter? at stands
  split at stands <;> first | contradiction | decide

theorem isBody_hexDigitChar {digit : Nat} (bound : digit < 16) :
    IsBody [Numeral.hexDigitChar digit] := by
  obtain ⟨quote, backslash, printable⟩ := Json.hexDigitChar_plain digit bound
  exact .plain quote backslash printable

theorem IsBody.of_escaped {shown : List Char} (way : Json.Escaped c shown) : IsBody shown := by
  cases way with
  | plain quote backslash printable => exact .plain quote backslash printable
  | lettered letter stands => exact .pair (isLineEnd_of_unletter? stands)
  | control below =>
      rw [Json.padLeft_hexDigits _ below]
      have unit : IsBody ['\\', 'u'] := .pair (by decide)
      have zero : IsBody ['0'] := .plain (by decide) (by decide) (by decide)
      have high : IsBody [Numeral.hexDigitChar (c.toNat / 16)] := isBody_hexDigitChar (by omega)
      have low : IsBody [Numeral.hexDigitChar (c.toNat % 16)] := isBody_hexDigitChar (by omega)
      exact unit.append (zero.append (zero.append (high.append low)))

theorem isBody_literalBody (text : List Char) : IsBody (Json.literalBody text) := by
  induction text using Json.literalBody.induct with
  | case1 rest ih =>
      have opening : IsBody ['<'] := .plain (by decide) (by decide) (by decide)
      have slash : IsBody ['\\', '/'] := .pair (by decide)
      exact (opening.append slash).append ih
  | case2 c rest apart ih =>
      rw [Json.literalBody]
      · exact (IsBody.of_escaped (Json.escaped_escapeChar c)).append ih
      · exact apart
  | case3 => exact fun taken => ⟨by rw [Json.literalBody, List.append_nil]; rfl, rfl⟩

/-- A text between quotes is read as a unit, where the text stays within them. -/
theorem read_body {body : List Char} (inside : IsBody body) :
    closes ('"' :: body ++ ['"']) = true ∧
      read .code ('"' :: body ++ ['"']) = [.literal '"' body] := by
  obtain ⟨within, silent⟩ := inside []
  rw [List.nil_append] at within
  have opened : step .code '"' = (.inside '"' [], []) := by decide
  have closed : step (.inside '"' body) '"' = (.code, [.literal '"' body]) := by simp [step]
  rw [List.cons_append]
  constructor
  · simp [closes, after, opened, after_append, within, closed]
  · simp [read, after, complete, opened, after_append, complete_append, within, silent, closed,
      ending]

/-- A literal is read as a unit, whatever its text is. -/
theorem read_literal (text : String) :
    closes (Json.literal text).toList = true ∧
      read .code (Json.literal text).toList = [.literal '"' (Json.literalBody text.toList)] := by
  rw [Json.toList_literal]
  exact read_body (isBody_literalBody text.toList)

theorem isBody_flatMap_escapeChar (text : List Char) : IsBody (text.flatMap Json.escapeChar) := by
  induction text with
  | nil => exact fun taken => ⟨by rw [List.flatMap_nil, List.append_nil]; rfl, rfl⟩
  | cons c rest ih =>
      rw [List.flatMap_cons]
      exact (IsBody.of_escaped (Json.escaped_escapeChar c)).append ih

end Lexeme

end LinkedViews
