import LinkedViews.Number.Numeral
import LinkedViews.Text.Quoted

/-!
The place of a reader in a JSON text, the reasons for which reading stops, and the steps of a
reader. A place is a line and a column; columns count the bytes of a line that lie before it.
-/

namespace LinkedViews.Json

structure Place where
  line : Nat
  column : Nat
deriving DecidableEq, Repr

def Place.advance (place : Place) (c : Char) : Place :=
  if c = '\n' then ⟨place.line + 1, 0⟩ else ⟨place.line, place.column + c.utf8Size⟩

/-- A text that breaks the rules of JSON. -/
inductive Flaw where
  | endInList
  | endInObject
  | endInText
  | endInValue
  | colonExpected
  | listCommaOrEndExpected
  | objectCommaOrEndExpected
  | wordExpected
  | valueExpected
  | invalidEscape
  | invalidNumber
  | numberOutOfRange
  | controlCharacter
  | nameNotText
  | loneSurrogate
  | surrogatePairCut
  | trailingComma
  | trailingCharacters
  | nestedTooDeep
deriving DecidableEq, Repr

def Flaw.message : Flaw → String
  | .endInList => "EOF while parsing a list"
  | .endInObject => "EOF while parsing an object"
  | .endInText => "EOF while parsing a string"
  | .endInValue => "EOF while parsing a value"
  | .colonExpected => "expected `:`"
  | .listCommaOrEndExpected => "expected `,` or `]`"
  | .objectCommaOrEndExpected => "expected `,` or `\x7d`"
  | .wordExpected => "expected ident"
  | .valueExpected => "expected value"
  | .invalidEscape => "invalid escape"
  | .invalidNumber => "invalid number"
  | .numberOutOfRange => "number out of range"
  | .controlCharacter => "control character (\\u0000-\\u001F) found while parsing a string"
  | .nameNotText => "key must be a string"
  | .loneSurrogate => "lone leading surrogate in hex escape"
  | .surrogatePairCut => "unexpected end of hex escape"
  | .trailingComma => "trailing comma"
  | .trailingCharacters => "trailing characters"
  | .nestedTooDeep => "recursion limit exceeded"

/-- The kind of value that was met where another was expected. -/
inductive Found where
  | null
  | boolean (value : Bool)
  | integer (value : Int)
  | real (value : Binary64)
  | text (value : String)
  | list
  | object
deriving DecidableEq, Repr

def Found.describe : Found → String
  | .null => "null"
  | .boolean value => "boolean `" ++ (if value then "true" else "false") ++ "`"
  | .integer value => "integer `" ++ Numeral.ofInt value ++ "`"
  | .real value => "floating point `" ++ Numeral.json value ++ "`"
  | .text value => "string " ++ Text.Quoted.render value
  | .list => "sequence"
  | .object => "map"

/-- A well-formed text that does not have the expected shape. -/
inductive Mismatch where
  | kind (found : Found) (expected : String)
  | value (found : Int) (expected : String)
  | tooShort (length : Nat) (record : String) (size : Nat)
  | missing (field : String)
  | repeated (field : String)
  | noChoice (choice : String)
deriving DecidableEq, Repr

def Mismatch.message : Mismatch → String
  | .kind found expected => "invalid type: " ++ found.describe ++ ", expected " ++ expected
  | .value found expected =>
    "invalid value: " ++ (Found.integer found).describe ++ ", expected " ++ expected
  | .tooShort length record size =>
    "invalid length " ++ Numeral.ofNat length ++ ", expected struct " ++ record ++ " with " ++
      Numeral.ofNat size ++ " elements"
  | .missing field => "missing field `" ++ field ++ "`"
  | .repeated field => "duplicate field `" ++ field ++ "`"
  | .noChoice choice => "data did not match any variant of untagged enum " ++ choice

inductive Fault where
  | malformed (flaw : Flaw) (place : Place)
  | mismatch (reason : Mismatch) (place : Place)
deriving DecidableEq, Repr

def Place.suffix (place : Place) : String :=
  " at line " ++ Numeral.ofNat place.line ++ " column " ++ Numeral.ofNat place.column

def Fault.message : Fault → String
  | .malformed flaw place => flaw.message ++ place.suffix
  | .mismatch reason place => reason.message ++ place.suffix

structure Cursor where
  rest : List Char
  place : Place
deriving DecidableEq, Repr

def Cursor.start (text : String) : Cursor := ⟨text.toList, ⟨1, 0⟩⟩

def Cursor.next (cursor : Cursor) : Cursor :=
  match cursor.rest with
  | [] => cursor
  | c :: rest => ⟨rest, cursor.place.advance c⟩

/-- The place behind the next byte, or the end of the text. -/
def Cursor.placeOfNext (cursor : Cursor) : Place :=
  match cursor.rest with
  | [] => cursor.place
  | c :: _ =>
    if c = '\n' then ⟨cursor.place.line + 1, 0⟩
    else ⟨cursor.place.line, cursor.place.column + 1⟩

/-- The place behind a number of bytes, which may lie within a character. -/
def placeBehind : Nat → List Char → Place → Place
  | _, [], place => place
  | bytes, c :: rest, place =>
    if c.utf8Size ≤ bytes then placeBehind (bytes - c.utf8Size) rest (place.advance c)
    else ⟨place.line, place.column + bytes⟩

/-- The result of reading a part: its value, a fault, or a mismatch that gets its place only when
the container around it has been left. -/
inductive Step (α : Type) where
  | done (value : α) (cursor : Cursor)
  | failed (fault : Fault)
  | refused (reason : Mismatch) (cursor : Cursor)

def Reader (α : Type) : Type := Cursor → Step α

namespace Reader

def andThen {α β : Type} (reader : Reader α) (next : α → Reader β) : Reader β := fun cursor =>
  match reader cursor with
  | .done value cursor => next value cursor
  | .failed fault => .failed fault
  | .refused reason cursor => .refused reason cursor

instance : Monad Reader where
  pure value := fun cursor => .done value cursor
  bind := andThen

def peek : Reader (Option Char) := fun cursor => .done cursor.rest.head? cursor

def advance : Reader Unit := fun cursor => .done () cursor.next

def failAt {α : Type} (flaw : Flaw) (place : Place) : Reader α := fun _ =>
  .failed (.malformed flaw place)

def failHere {α : Type} (flaw : Flaw) : Reader α := fun cursor =>
  .failed (.malformed flaw cursor.place)

def failAtNext {α : Type} (flaw : Flaw) : Reader α := fun cursor =>
  .failed (.malformed flaw cursor.placeOfNext)

def mismatchHere {α : Type} (reason : Mismatch) : Reader α := fun cursor =>
  .failed (.mismatch reason cursor.place)

/-- Refuses a value without a place as yet. -/
def refuse {α : Type} (reason : Mismatch) : Reader α := fun cursor => .refused reason cursor

def isSpace (c : Char) : Bool := c = ' ' || c = '\n' || c = '\t' || c = '\r'

def skipSpaces : List Char → Place → Cursor
  | [], place => ⟨[], place⟩
  | c :: rest, place => if isSpace c then skipSpaces rest (place.advance c) else ⟨c :: rest, place⟩

/-- Moves behind white space and shows what stands there. -/
def peekToken : Reader (Option Char) := fun cursor =>
  peek (skipSpaces cursor.rest cursor.place)

end Reader

end LinkedViews.Json
