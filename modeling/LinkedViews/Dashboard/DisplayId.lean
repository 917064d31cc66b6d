import LinkedViews.Number.Numeral

/-!
Display ids: the names under which a dashboard is shown on a page. An id is a random number of 128
bits in the form of a universally unique identifier of version four, in lower case.
-/

namespace LinkedViews.DisplayId

def group (width value : Nat) : List Char :=
  Numeral.padLeft width (Numeral.hexDigits (value % Nat.pow 16 width))

/-- The id of a number. Six of its bits are replaced by the marks of the version. -/
def ofNat (value : Nat) : String :=
  String.ofList
    (group 8 (value / Nat.pow 2 96) ++ '-' :: group 4 (value / Nat.pow 2 80) ++
      '-' :: '4' :: group 3 (value / Nat.pow 2 64) ++
      '-' :: group 4 (0x8000 + value / Nat.pow 2 48 % 0x4000) ++ '-' :: group 12 value)

def isHexDigit (c : Char) : Bool := c.isDigit || ('a' ≤ c && c ≤ 'f')

/-- The digits of an id, with a dash in each place where one stands. -/
def shape : List Char := "xxxxxxxx-xxxx-4xxx-yxxx-xxxxxxxxxxxx".toList

def fits (c mark : Char) : Bool :=
  if mark = 'x' then isHexDigit c
  else if mark = 'y' then c = '8' || c = '9' || c = 'a' || c = 'b'
  else c = mark

/-- Whether a text is an id of version four in lower case. -/
def isWellFormed (text : String) : Bool :=
  text.length = shape.length && (List.zipWith fits text.toList shape).all id

end LinkedViews.DisplayId
