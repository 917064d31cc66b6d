import LinkedViews.Number.Decimal

/-!
The written forms of numbers. Whole numbers are plain runs of ten digits. A binary number is
written with the digits of `Decimal.shortest`, laid out either positionally throughout or in the
form of JSON, and is read with an optional sign, point and exponent.
-/

namespace LinkedViews.Numeral

def digitChar (digit : Nat) : Char := Char.ofNat ('0'.toNat + digit)

def digitValue (c : Char) : Nat := c.toNat - '0'.toNat

/-- The digits of a whole number, the most significant first. -/
def digits (n : Nat) : List Char :=
  if n < 10 then [digitChar n] else digits (n / 10) ++ [digitChar (n % 10)]

def ofNat (n : Nat) : String := String.ofList (digits n)

def hexDigitChar (digit : Nat) : Char :=
  if digit < 10 then digitChar digit else Char.ofNat ('a'.toNat + digit - 10)

/-- The hexadecimal digits of a number, in lower case and without zeros in front. -/
def hexDigits (n : Nat) : List Char :=
  if n < 16 then [hexDigitChar n] else hexDigits (n / 16) ++ [hexDigitChar (n % 16)]

/-- A negative number has a minus sign before its digits, any other number has no sign. -/
def ofInt (n : Int) : String := if n < 0 then "-" ++ ofNat n.natAbs else ofNat n.natAbs

/-- Fills digits up with zeros in front to a least width. -/
def padLeft (width : Nat) (shown : List Char) : List Char :=
  List.replicate (width - shown.length) '0' ++ shown

def padded (width n : Nat) : String := String.ofList (padLeft width (digits n))

def valueOf (text : List Char) : Nat := text.foldl (fun value c => 10 * value + digitValue c) 0

/-- The value of a text that consists of digits alone and has at least one. -/
def readNat? (text : List Char) : Option Nat :=
  if text ≠ [] ∧ text.all Char.isDigit then some (valueOf text) else none

/-- Splits an optional sign from the front; `true` stands for a minus. -/
def splitSign : List Char → Bool × List Char
  | '-' :: rest => (true, rest)
  | '+' :: rest => (false, rest)
  | text => (false, text)

def readInt? (text : List Char) : Option Int :=
  let (negative, rest) := splitSign text
  (readNat? rest).map fun value => if negative then -(value : Int) else value

/-- An integer of 64 bits; no text is read as a number outside their range. -/
def readInt64? (text : List Char) : Option Int64 :=
  (readInt? text).bind fun value =>
    if Int64.minValue.toInt ≤ value ∧ value ≤ Int64.maxValue.toInt then some (Int64.ofInt value)
    else none

/-- The exponent after the digits: absent, or a letter, an optional sign and digits. -/
def readExponent? : List Char → Option Int
  | [] => some 0
  | 'e' :: rest => readInt? rest
  | 'E' :: rest => readInt? rest
  | _ => none

/-- Digits with an optional point among or beside them, then an optional exponent. -/
def readDecimal? (text : List Char) : Option Decimal :=
  let whole := text.takeWhile Char.isDigit
  let afterWhole := text.dropWhile Char.isDigit
  let (fraction, rest) := match afterWhole with
    | '.' :: tail => (tail.takeWhile Char.isDigit, tail.dropWhile Char.isDigit)
    | tail => ([], tail)
  if whole = [] ∧ fraction = [] then none
  else (readExponent? rest).map fun exponent =>
    ⟨valueOf (whole ++ fraction), exponent - fraction.length⟩

/-- A decimal, or one of the words for infinity and for no number, in any case of letters. A minus
sign before the word for no number is kept in the sign bit. -/
def readBinary64? (text : List Char) : Option Binary64 :=
  let (negative, rest) := splitSign text
  match rest.map Char.toLower with
  | ['i', 'n', 'f'] => some (.infinity negative)
  | ['i', 'n', 'f', 'i', 'n', 'i', 't', 'y'] => some (.infinity negative)
  | ['n', 'a', 'n'] => some (.ofParts negative Binary64.nan.magnitude)
  | _ => (readDecimal? rest).map (Decimal.toBinary negative)

/-- A decimal without an exponent. With `pointZero` a whole number ends in `.0`. -/
def positional (pointZero : Bool) (d : Decimal) : List Char :=
  let shown := digits d.digits
  let places := (-d.exponent).toNat
  if places = 0 then
    let zeros := if d.digits = 0 then [] else List.replicate d.exponent.toNat '0'
    shown ++ zeros ++ if pointZero then ['.', '0'] else []
  else if places < shown.length then
    shown.take (shown.length - places) ++ '.' :: shown.drop (shown.length - places)
  else '0' :: '.' :: List.replicate (places - shown.length) '0' ++ shown

/-- One digit before the point and an exponent that always has a sign. -/
def scientific (d : Decimal) : List Char :=
  let shown := digits d.digits
  let exponent := d.exponent + (shown.length - 1 : Nat)
  let fraction := if shown.length = 1 then [] else '.' :: shown.drop 1
  shown.take 1 ++ fraction ++
    'e' :: (if exponent < 0 then '-' else '+') :: digits exponent.natAbs

def signed (negative : Bool) (text : List Char) : String :=
  String.ofList (if negative then '-' :: text else text)

/-- The plain form: fewest digits, the upper neighbour on a tie, positional throughout, and a whole
number without a point. Zero keeps its sign. -/
def plain (x : Binary64) : String :=
  if x.isNaN then "NaN"
  else if x.isInfinite then signed x.isNegative ['i', 'n', 'f']
  else signed x.isNegative (positional false (Decimal.shortest .upper x.magnitude))

/-- The form of a cell: the plain one, but a whole number below 10¹⁵ ends in `.0`, so that it is
not taken for an integer. -/
def withPoint (x : Binary64) : String :=
  if x.isWhole ∧ x.units < Nat.pow 10 15 * Binary64.unitsPerOne then
    signed x.isNegative (digits (x.units / Binary64.unitsPerOne) ++ ['.', '0'])
  else plain x

/-- The JSON form of a finite number: fewest digits, the even neighbour on a tie, positional with
at least one place from 10⁻⁵ up to 10¹⁶, otherwise with an exponent. -/
def json (x : Binary64) : String :=
  let d := Decimal.shortest .even x.magnitude
  let place := d.exponent + (digits d.digits).length
  if d.digits = 0 ∨ (-5 < place ∧ place ≤ 16) then signed x.isNegative (positional true d)
  else signed x.isNegative (scientific d)

end LinkedViews.Numeral
