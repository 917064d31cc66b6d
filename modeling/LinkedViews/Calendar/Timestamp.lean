import LinkedViews.Calendar.Date
import LinkedViews.Number.Numeral
import LinkedViews.Text.Blank

/-!
Points in time as milliseconds since the beginning of 1970, in universal time: how they are written
and which texts are read as one. A text is either of the strict form, which names its offset from
universal time, or of the lenient form, a date with or without a time of day.
-/

namespace LinkedViews.Timestamp

def millisPerDay : Int := 86400000

/-- A time of day. A second of sixty counts as one more than the fifty-ninth. -/
structure Clock where
  hour : Nat
  minute : Nat
  second : Nat
  millis : Nat
deriving DecidableEq, Repr

def Clock.isValid (clock : Clock) : Bool :=
  clock.hour ≤ 23 && clock.minute ≤ 59 && clock.second ≤ 60

def Clock.toMillis (clock : Clock) : Nat :=
  ((clock.hour * 60 + clock.minute) * 60 + clock.second) * 1000 + clock.millis

def midnight : Clock := ⟨0, 0, 0, 0⟩

def ofDateTime? (date : Date) (clock : Clock) : Option Int :=
  if date.isValid && clock.isValid then
    some (date.dayNumber * millisPerDay + clock.toMillis)
  else none

def dateOf (millis : Int) : Date := Date.ofDayNumber (Int.fdiv millis millisPerDay)

def clockOf (millis : Int) : Clock :=
  let rest := (Int.fmod millis millisPerDay).toNat
  ⟨rest / 3600000, rest / 60000 % 60, rest / 1000 % 60, rest % 1000⟩

def isWritable (millis : Int) : Bool := Date.inRange (dateOf millis).year

/-- A year of the common range has four digits; any other has a sign and at least four digits. -/
def yearText (year : Int) : String :=
  if 0 ≤ year ∧ year ≤ 9999 then Numeral.padded 4 year.natAbs
  else (if year < 0 then "-" else "+") ++ Numeral.padded 4 year.natAbs

/-- Date and time with a space between them, the milliseconds only where there are some. Beyond the
range of dates the number itself is written. -/
def format (millis : Int) : String :=
  if isWritable millis then
    let date := dateOf millis
    let clock := clockOf millis
    let dateText := yearText date.year ++ "-" ++ Numeral.padded 2 date.month ++ "-" ++
      Numeral.padded 2 date.day
    let clockText := Numeral.padded 2 clock.hour ++ ":" ++ Numeral.padded 2 clock.minute ++ ":" ++
      Numeral.padded 2 clock.second
    let fraction := if clock.millis = 0 then "" else "." ++ Numeral.padded 3 clock.millis
    dateText ++ " " ++ clockText ++ fraction
  else Numeral.ofInt millis

/-- The number given by leading digits, of which there are at least `least` and of which no more
than `most` are taken, and the text behind them. -/
def number? (least most : Nat) (text : List Char) : Option (Nat × List Char) :=
  let run := (text.take most).takeWhile Char.isDigit
  if run = [] ∨ run.length < least then none
  else some (Numeral.valueOf run, text.drop run.length)

/-- The text behind a character that has to stand at the front. -/
def expect? (c : Char) : List Char → Option (List Char)
  | [] => none
  | first :: rest => if first = c then some rest else none

/-- A fraction of a second, cut to milliseconds, behind its point; nothing counts as no fraction. -/
def fraction? : List Char → Option (Nat × List Char)
  | '.' :: rest =>
    let run := rest.takeWhile Char.isDigit
    if run = [] then none
    else some (Numeral.valueOf ((run ++ ['0', '0']).take 3), rest.dropWhile Char.isDigit)
  | text => some (0, text)

/-- Hours, minutes and seconds, each read by `field`, with colons between them. -/
def clock? (field : List Char → Option (Nat × List Char)) (text : List Char) :
    Option (Clock × List Char) := do
  let (hour, text) ← field text
  let text ← expect? ':' text
  let (minute, text) ← field text
  let text ← expect? ':' text
  let (second, text) ← field text
  let (millis, text) ← fraction? text
  return (⟨hour, minute, second, millis⟩, text)

/-- The offset from universal time in minutes: a letter for none, or a sign, two digits of hours, a
colon and two digits of minutes, below a full day. The sign may be the typographic minus. -/
def offset? : List Char → Option (Int × List Char)
  | [] => none
  | sign :: rest =>
    if sign = 'Z' ∨ sign = 'z' then some (0, rest)
    else if sign = '+' ∨ sign = '-' ∨ sign = '\u2212' then do
      let (hours, rest) ← number? 2 2 rest
      let rest ← expect? ':' rest
      let (minutes, rest) ← number? 2 2 rest
      if hours ≤ 23 ∧ minutes ≤ 59 then
        let magnitude : Int := hours * 60 + minutes
        return (if sign = '+' then magnitude else -magnitude, rest)
      else none
    else none

/-- The strict form: four digits of the year and two of every other field, the letter `T` or one
space before the time, and the offset at the end. -/
def readStrict? (text : List Char) : Option Int := do
  let (year, text) ← number? 4 4 text
  let text ← expect? '-' text
  let (month, text) ← number? 2 2 text
  let text ← expect? '-' text
  let (day, text) ← number? 2 2 text
  let text ← match text with
    | 'T' :: rest => some rest
    | 't' :: rest => some rest
    | ' ' :: rest => some rest
    | _ => none
  let (clock, text) ← clock? (number? 2 2) text
  let (offset, text) ← offset? text
  if text = [] then
    (ofDateTime? ⟨year, month, day⟩ clock).map (· - offset * 60000)
  else none

/-- One or two digits, with any white space before them. -/
def shortField? (text : List Char) : Option (Nat × List Char) := number? 1 2 (Text.trimStart text)

/-- A year of up to four digits, or a sign and any number of digits. -/
def year? (text : List Char) : Option (Int × List Char) :=
  match Text.trimStart text with
  | '-' :: rest => (number? 1 rest.length rest).map fun (year, rest) => (-(year : Int), rest)
  | '+' :: rest => (number? 1 rest.length rest).map fun (year, rest) => ((year : Int), rest)
  | rest => (number? 1 4 rest).map fun (year, rest) => ((year : Int), rest)

def date? (text : List Char) : Option (Date × List Char) := do
  let (year, text) ← year? text
  let text ← expect? '-' text
  let (month, text) ← shortField? text
  let text ← expect? '-' text
  let (day, text) ← shortField? text
  return (⟨year, month, day⟩, text)

/-- The lenient form in universal time: a date alone, or a date and a time of day with the letter
`T`, white space or nothing between them. -/
def readLenient? (text : List Char) : Option Int := do
  let (date, text) ← date? text
  if text = [] then ofDateTime? date midnight
  else
    let text := match text with
      | 'T' :: rest => rest
      | rest => rest
    let (clock, text) ← clock? shortField? text
    if text = [] then ofDateTime? date clock else none

/-- The point in time that a text names, in either form. -/
def read? (text : String) : Option Int :=
  (readStrict? text.toList).orElse fun _ => readLenient? text.toList

end LinkedViews.Timestamp
