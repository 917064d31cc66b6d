import LinkedViews.Delimited.Reader

/-!
Writing records of comma-separated fields. A line feed ends each record. A field is quoted only
where it has to be, and a record that would leave its line empty is written as a quoted empty
field. All records have the length of the first; a record that has not is not ended, and nothing is
written behind its fields.
-/

namespace LinkedViews.Delimited

/-- Whether a character has a meaning between fields, so that a field with it has to be quoted. -/
def isSpecial (c : Char) : Bool := c = ',' || c = '"' || c = '\n' || c = '\r'

def doubleQuotes (text : List Char) : List Char :=
  text.flatMap fun c => if c = '"' then ['"', '"'] else [c]

def writeField (field : List Char) : List Char :=
  if field.any isSpecial then '"' :: doubleQuotes field ++ ['"'] else field

def joinFields : List (List Char) → List Char
  | [] => []
  | [field] => writeField field
  | field :: rest => writeField field ++ ',' :: joinFields rest

def writeRecord (fields : List (List Char)) : List Char :=
  (if joinFields fields = [] then ['"', '"'] else joinFields fields) ++ ['\n']

/-- The fields of a record that is not ended. The quote that closes a field is written with what
ends the field, so the last one is left without it. -/
def openFields : List (List Char) → List Char
  | [] => []
  | [field] => if field.any isSpecial then '"' :: doubleQuotes field else field
  | field :: rest => writeField field ++ ',' :: openFields rest

/-- What is written of some records, and the fault that ends the writing if there is one. -/
structure Output where
  text : List Char
  fault? : Option Fault
deriving DecidableEq, Repr

namespace Output

def behind (front : List Char) (output : Output) : Output :=
  { output with text := front ++ output.text }

def result (output : Output) : Except Fault String :=
  match output.fault? with
  | none => .ok (String.ofList output.text)
  | some fault => .error fault

end Output

def writeRecords (expected : Nat) : List (List String) → Output
  | [] => ⟨[], none⟩
  | fields :: rest =>
    if fields.length ≠ expected then
      ⟨openFields (fields.map String.toList), some (.length none fields.length expected)⟩
    else (writeRecords expected rest).behind (writeRecord (fields.map String.toList))

def write (header : List String) (records : List (List String)) : Output :=
  writeRecords header.length (header :: records)

end LinkedViews.Delimited
