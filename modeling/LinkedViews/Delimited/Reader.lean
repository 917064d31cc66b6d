import LinkedViews.Number.Numeral
import LinkedViews.Text.Utf8

/-!
Reading records of comma-separated fields. A record ends at a line feed or a carriage return, and
empty lines between records are skipped. A field that begins with a quote runs to the closing
quote, with two quotes standing for one; what follows the closing quote is taken as it is. Every
record has as many fields as the first, and every field is valid text.
-/

namespace LinkedViews.Delimited

/-- Where the reading of a record began: directly behind the byte that ended the one before. -/
structure Position where
  line : Nat
  byte : Nat
deriving DecidableEq, Repr

def Position.start : Position := ⟨1, 0⟩

def Position.advance (position : Position) (byte : UInt8) : Position :=
  ⟨if byte = 0x0A then position.line + 1 else position.line, position.byte + 1⟩

structure RawRecord where
  position : Position
  fields : List (List UInt8)
deriving DecidableEq, Repr

/-- What a byte means: whether a record has begun, and how the current field stands. -/
inductive State where
  | between
  | fieldStart
  | plain
  | quoted
  | closed
deriving DecidableEq, Repr

def comma : UInt8 := 0x2C
def quote : UInt8 := 0x22
def lineFeed : UInt8 := 0x0A
def carriageReturn : UInt8 := 0x0D

def isLineEnd (byte : UInt8) : Bool := byte = lineFeed || byte = carriageReturn

/-- The records of a byte sequence. `began` is where the current record began and `here` the
position of the next byte; `field` and `fields` hold what the record has so far, in reverse. -/
def scan (state : State) (began here : Position) (field : List UInt8) (fields : List (List UInt8)) :
    List UInt8 → List RawRecord
  | [] => match state with
    | .between => []
    | _ => [⟨began, (field.reverse :: fields).reverse⟩]
  | byte :: rest =>
    let next := here.advance byte
    if state = .quoted then
      if byte = quote then scan .closed began next field fields rest
      else scan .quoted began next (byte :: field) fields rest
    else if isLineEnd byte then
      if state = .between then scan .between began next [] [] rest
      else ⟨began, (field.reverse :: fields).reverse⟩ :: scan .between next next [] [] rest
    else if byte = comma then
      scan .fieldStart began next [] (field.reverse :: fields) rest
    else if byte = quote ∧ (state = .between ∨ state = .fieldStart) then
      scan .quoted began next field fields rest
    else if byte = quote ∧ state = .closed then
      scan .quoted began next (byte :: field) fields rest
    else scan .plain began next (byte :: field) fields rest

/-- A mark of the encoding at the front of the bytes is no part of the first field. -/
def rawRecords : List UInt8 → List RawRecord
  | 0xEF :: 0xBB :: 0xBF :: rest => scan .between .start ⟨1, 3⟩ [] [] rest
  | bytes => scan .between .start .start [] [] bytes

inductive Fault where
  /-- A record with another number of fields than the first one; a record that was read has an
  index, counted from the header, and a position. -/
  | length (place : Option (Nat × Position)) (found expected : Nat)
  /-- A field that is no text, with the offset in the field where it stops being one. -/
  | encoding (index : Nat) (position : Position) (field offset : Nat)
deriving DecidableEq, Repr

def Fault.message : Fault → String
  | .length place found expected =>
    let shownPlace := match place with
      | some (index, position) =>
        "record " ++ Numeral.ofNat index ++ " (line: " ++ Numeral.ofNat position.line ++
          ", byte: " ++ Numeral.ofNat position.byte ++ "): "
      | none => ""
    "CSV error: " ++ shownPlace ++ "found record with " ++ Numeral.ofNat found ++
      " fields, but the previous record has " ++ Numeral.ofNat expected ++ " fields"
  | .encoding index position field offset =>
    "CSV parse error: record " ++ Numeral.ofNat index ++ " (line " ++ Numeral.ofNat position.line ++
      ", field: " ++ Numeral.ofNat field ++ ", byte: " ++ Numeral.ofNat position.byte ++ "): " ++
      "invalid utf-8: invalid UTF-8 in field " ++ Numeral.ofNat field ++ " near byte index " ++
      Numeral.ofNat offset

/-- The fields of a record as texts, counted from `field`. -/
def decodeFields (index : Nat) (position : Position) (field : Nat) :
    List (List UInt8) → Except Fault (List String)
  | [] => .ok []
  | bytes :: rest =>
    match Text.Utf8.decode bytes with
    | .error offset => .error (.encoding index position field offset)
    | .ok text => (String.ofList text :: ·) <$> decodeFields index position (field + 1) rest

/-- The records as texts, counted from `index`; the first fault in reading order is reported, and a
wrong length before a wrong encoding. -/
def decodeRecords (expected index : Nat) : List RawRecord → Except Fault (List (List String))
  | [] => .ok []
  | record :: rest =>
    if record.fields.length ≠ expected then
      .error (.length (some (index, record.position)) record.fields.length expected)
    else do
      let fields ← decodeFields index record.position 0 record.fields
      (fields :: ·) <$> decodeRecords expected (index + 1) rest

/-- The header and the records below it; without any record the header is empty. -/
def read (bytes : List UInt8) : Except Fault (List String × List (List String)) :=
  match rawRecords bytes with
  | [] => .ok ([], [])
  | header :: rest => do
    let names ← decodeFields 0 header.position 0 header.fields
    return (names, ← decodeRecords header.fields.length 1 rest)

end LinkedViews.Delimited
