import LinkedViews.Json.Cursor

/-!
Reading the parts of JSON that hold no other parts: words, strings and numbers.
-/

namespace LinkedViews.Json.Reader

/-- The rest of a word whose first letter has been read. -/
def word : List Char → Reader Unit
  | [] => pure ()
  | expected :: more => do
    match ← peek with
    | none => failHere .endInValue
    | some c => if c = expected then do advance; word more else failAtNext .wordExpected

def hexValue? (c : Char) : Option Nat :=
  if c.isDigit then some (c.toNat - '0'.toNat)
  else if 'a' ≤ c ∧ c ≤ 'f' then some (c.toNat - 'a'.toNat + 10)
  else if 'A' ≤ c ∧ c ≤ 'F' then some (c.toNat - 'A'.toNat + 10)
  else none

def byteLength : List Char → Nat
  | [] => 0
  | c :: rest => c.utf8Size + byteLength rest

/-- Four hexadecimal digits. Four bytes are taken in any case before they are looked at. -/
def hexUnit : Reader Nat := fun cursor =>
  if byteLength cursor.rest < 4 then
    .failed (.malformed .endInText (placeBehind 4 cursor.rest cursor.place))
  else
    match (cursor.rest.take 4).mapM hexValue? with
    | some digits => .done (digits.foldl (fun value digit => 16 * value + digit) 0)
        ⟨cursor.rest.drop 4, placeBehind 4 cursor.rest cursor.place⟩
    | none => .failed (.malformed .invalidEscape (placeBehind 4 cursor.rest cursor.place))

/-- One character that has to stand next inside a string. -/
def pairMark (expected : Char) : Reader Unit := do
  match ← peek with
  | none => failHere .endInText
  | some c => if c = expected then advance else failAtNext .surrogatePairCut

/-- A character given by one unit of sixteen bits, or by a pair of surrogates. -/
def unitEscape : Reader Char := do
  let unit ← hexUnit
  if 0xDC00 ≤ unit ∧ unit ≤ 0xDFFF then failHere .loneSurrogate
  else if unit < 0xD800 ∨ 0xDBFF < unit then return Char.ofNat unit
  else do
    pairMark '\\'
    pairMark 'u'
    let second ← hexUnit
    if second < 0xDC00 ∨ 0xDFFF < second then failHere .loneSurrogate
    else return Char.ofNat ((unit - 0xD800) * 0x400 + (second - 0xDC00) + 0x10000)

def unletter? : Char → Option Char
  | '"' => some '"'
  | '\\' => some '\\'
  | '/' => some '/'
  | 'b' => some '\x08'
  | 'f' => some '\x0c'
  | 'n' => some '\n'
  | 'r' => some '\r'
  | 't' => some '\t'
  | _ => none

/-- The rest of an escape whose backslash has been read. -/
def escape : Reader Char := do
  match ← peek with
  | none => failHere .endInText
  | some c => match unletter? c with
    | some plain => do advance; return plain
    | none => if c = 'u' then do advance; unitEscape else failAtNext .invalidEscape

/-- The characters up to the closing quote, at most `fuel` of them, behind those already
taken, which come in reverse. -/
def textBody : Nat → List Char → Reader String
  | 0, _ => failHere .endInText
  | fuel + 1, taken => do
    match ← peek with
    | none => failHere .endInText
    | some c =>
      if c = '"' then do advance; return String.ofList taken.reverse
      else if c = '\\' then do advance; let plain ← escape; textBody fuel (plain :: taken)
      else if c.toNat < 0x20 then failAtNext .controlCharacter
      else do advance; textBody fuel (c :: taken)

def textRest : Reader String := fun cursor => textBody (cursor.rest.length + 1) [] cursor

/-- Passes over a string whose opening quote has been read. Of an escape only the form counts. -/
def skipTextBody : Nat → Reader Unit
  | 0 => failHere .endInText
  | fuel + 1 => do
    match ← peek with
    | none => failHere .endInText
    | some c =>
      if c = '"' then advance
      else if c = '\\' then do
        advance
        match ← peek with
        | none => failHere .endInText
        | some letter =>
          if letter = 'u' then do advance; let _ ← hexUnit; skipTextBody fuel
          else if (unletter? letter).isSome then do advance; skipTextBody fuel
          else failAtNext .invalidEscape
      else if c.toNat < 0x20 then failHere .controlCharacter
      else do advance; skipTextBody fuel

def skipTextRest : Reader Unit := fun cursor => skipTextBody (cursor.rest.length + 1) cursor

/-- The parts of a number. The digits of the exponent come with the place where they begin. -/
structure NumberParts where
  whole : List Char
  fraction : List Char
  exponent : Option (Bool × List Char × Place)

def digitRun : Reader (List Char) := fun cursor =>
  let run := cursor.rest.takeWhile Char.isDigit
  .done run ⟨cursor.rest.drop run.length, ⟨cursor.place.line, cursor.place.column + run.length⟩⟩

/-- Digits of which the first has to be there; `atEnd` is the flaw of a text that ends before it. -/
def exponentDigits (atEnd : Flaw) : Reader (List Char × Place) := fun cursor =>
  match cursor.rest with
  | [] => failHere atEnd cursor
  | c :: _ =>
    if c.isDigit then (digitRun.andThen fun run => pure (run, cursor.place)) cursor
    else failAtNext .invalidNumber cursor

def exponentPart (atEnd : Flaw) : Reader (Option (Bool × List Char × Place)) := do
  match ← peek with
  | some c =>
    if c = 'e' ∨ c = 'E' then do
      advance
      let negative ← match ← peek with
        | some '+' => do advance; pure false
        | some '-' => do advance; pure true
        | _ => pure false
      let (digits, place) ← exponentDigits atEnd
      return some (negative, digits, place)
    else return none
  | none => return none

def fractionPart (atEnd : Flaw) : Reader (List Char) := do
  match ← peek with
  | some '.' => do
    advance
    let run ← digitRun
    if run ≠ [] then return run
    else match ← peek with
      | some _ => failAtNext .invalidNumber
      | none => failHere atEnd
  | _ => return []

/-- A number without its sign. It has no zero before other digits. -/
def numberParts (atEnd : Flaw) : Reader NumberParts := do
  match ← peek with
  | none => failHere atEnd
  | some first =>
    if first.isDigit then do
      let whole ← if first = '0' then do advance; pure ['0'] else digitRun
      let following ← peek
      if first = '0' ∧ following.any Char.isDigit then failAtNext .invalidNumber
      else do
        let fraction ← fractionPart atEnd
        let exponent ← exponentPart atEnd
        return ⟨whole, fraction, exponent⟩
    else failAtNext .invalidNumber

/-- Takes digits into a significand of 64 bits. From the first digit of the whole part that does
not fit, the remaining digits of that part only count into the exponent; in the fraction reading
ends at the first digit that does not fit. -/
def addWhole : Nat → Nat → List Char → Nat × Nat
  | significand, dropped, [] => (significand, dropped)
  | significand, dropped, c :: rest =>
    let longer := 10 * significand + Numeral.digitValue c
    if dropped = 0 ∧ longer < UInt64.size then addWhole longer 0 rest
    else addWhole significand (dropped + 1) rest

def addFraction : Nat → Nat → List Char → Nat × Nat
  | significand, places, [] => (significand, places)
  | significand, places, c :: rest =>
    let longer := 10 * significand + Numeral.digitValue c
    if longer < UInt64.size then addFraction longer (places + 1) rest else (significand, places)

def powerOfTen (exponent : Nat) : Binary64 := Decimal.toBinary false ⟨1, exponent⟩

/-- Divides by powers of ten until the exponent is within the range of one division. -/
def scaleDown (value : Binary64) (exponent : Int) : Binary64 :=
  if value.isZero then value
  else if -308 ≤ exponent then value.div (powerOfTen exponent.natAbs)
  else scaleDown (value.div (powerOfTen 308)) (exponent + 308)
termination_by exponent.natAbs
decreasing_by omega

/-- A significand times a power of ten, in a few rounded operations; nothing beyond the range. -/
def scaled? (significand : Nat) (exponent : Int) : Option Binary64 :=
  let value := Binary64.ofInt significand
  if exponent < 0 then some (scaleDown value exponent)
  else if 308 < exponent then if value.isZero then some value else none
  else
    let product := value.mul (powerOfTen exponent.toNat)
    if product.isInfinite then none else some product

/-- How many digits it takes until an exponent leaves the range of 32 bits, if it does. -/
def exponentOverflow? : Nat → Nat → List Char → Option Nat
  | _, _, [] => none
  | value, count, c :: rest =>
    let longer := 10 * value + Numeral.digitValue c
    if Nat.pow 2 31 ≤ longer ∧ 0 < count then some (count + 1)
    else exponentOverflow? longer (count + 1) rest

/-- A number as it is met in a text: an integer of 64 bits, or a real. -/
def numberFound (negative : Bool) (parts : NumberParts) : Reader Found := do
  let (wholeDigits, dropped) := addWhole 0 0 parts.whole
  let (significand, places) := addFraction wholeDigits 0 parts.fraction
  let real (magnitude : Binary64) : Found := .real (if negative then magnitude.neg else magnitude)
  let scaledFound (exponent : Int) : Reader Found :=
    match scaled? significand exponent with
    | some magnitude => pure (real magnitude)
    | none => failHere .numberOutOfRange
  match parts.exponent with
  | some (negativeExponent, digits, place) =>
    match exponentOverflow? 0 0 digits with
    | some count =>
      if significand ≠ 0 ∧ ¬ negativeExponent then
        failAt .numberOutOfRange ⟨place.line, place.column + count⟩
      else return real .zero
    | none =>
      let written : Int := Numeral.valueOf digits
      scaledFound ((dropped : Int) - places + if negativeExponent then -written else written)
  | none =>
    if parts.fraction ≠ [] ∨ 0 < dropped then scaledFound ((dropped : Int) - places)
    else if ¬ negative then return .integer significand
    else if significand = 0 ∨ Nat.pow 2 63 < significand then return real (.ofInt significand)
    else return .integer (-(significand : Int))

def number : Reader Found := do
  match ← peek with
  | some '-' => do advance; numberFound true (← numberParts .endInValue)
  | _ => numberFound false (← numberParts .endInValue)

end LinkedViews.Json.Reader
