import LinkedViews.Calendar.Timestamp
import LinkedViews.Json.Basic

/-!
Cells of a table and the three views of them: the number that a script's unary plus makes of the
cell's record, the short text in listings and exports, and the JSON value in the record itself.
-/

namespace LinkedViews

inductive Cell where
  | null
  | integer (value : Int64)
  | real (value : Binary64)
  | boolean (value : Bool)
  | text (value : String)
  | timestamp (millis : Int64)
  /-- A position in the labels of the cell's column. -/
  | category (code : UInt32)
deriving DecidableEq, Repr

namespace Cell

/-- The number of a text: blank text counts as zero, any text that is no number as none. -/
def numberOfText (text : String) : Binary64 :=
  let trimmed := Text.trim text.toList
  if trimmed = [] then .zero else (Numeral.readBinary64? trimmed).getD .nan

/-- The number a cell stands for once it has been written to a record and read from there. Null is
zero, and so is a real without a finite value, since its record holds null. -/
def toNumber : Cell → Binary64
  | .null => .zero
  | .integer value => .ofInt value.toInt
  | .real value => if value.isFinite then value else .zero
  | .boolean value => if value then .one else .zero
  | .text value => numberOfText value
  | .timestamp millis => .ofInt millis.toInt
  | .category code => .ofInt code.toNat

/-- The next integer, or the same one at the upper end of the range. -/
def nextInteger (value : Int64) : Int64 :=
  if value = Int64.maxValue then value else value + 1

/-- What the expression `cell + 1` of a script gives: text is continued, all else is added to. -/
def next : Cell → Cell
  | .null => .integer 1
  | .integer value => .integer (nextInteger value)
  | .real value => if value.isFinite then .real (value.add .one) else .integer 1
  | .boolean value => .integer (if value then 2 else 1)
  | .text value => .text (value ++ "1")
  | .timestamp millis => .integer (nextInteger millis)
  | .category code => .integer (Int64.ofInt code.toNat + 1)

/-- The short text of a cell. Null is empty, and a real that is whole keeps its point. -/
def display : Cell → String
  | .null => ""
  | .integer value => Numeral.ofInt value.toInt
  | .real value => Numeral.withPoint value
  | .boolean value => if value then "True" else "False"
  | .text value => value
  | .timestamp millis => Timestamp.format millis.toInt
  | .category code => "#" ++ Numeral.ofNat code.toNat

def toJson : Cell → Json
  | .null => .null
  | .integer value => .integer value.toInt
  | .real value => if value.isFinite then .real value else .null
  | .boolean value => .boolean value
  | .text value => .text value
  | .timestamp millis => .integer millis.toInt
  | .category code => .integer code.toNat

end Cell

end LinkedViews
