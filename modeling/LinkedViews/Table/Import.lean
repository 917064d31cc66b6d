import LinkedViews.Failure
import LinkedViews.Table.Basic

/-!
Tables from comma-separated text. The header names the columns. The kind of a column is the first
in a fixed order that reads all its cells, empty ones aside, and an empty cell is null. A column
that is asked for as categorical gets the distinct texts of its cells as labels.
-/

namespace LinkedViews

namespace ColumnKind

def readBoolean? (text : String) : Option Bool :=
  if text ∈ ["true", "True", "TRUE"] then some true
  else if text ∈ ["false", "False", "FALSE"] then some false
  else none

/-- The cell of this kind that a text stands for. -/
def readCell? (kind : ColumnKind) (text : String) : Option Cell :=
  match kind with
  | integer => (Numeral.readInt64? text.toList).map Cell.integer
  | real => (Numeral.readBinary64? text.toList).map Cell.real
  | boolean => (readBoolean? text).map Cell.boolean
  | timestamp => (Timestamp.read? text).map fun millis => .timestamp (Int64.ofInt millis)
  | .text => some (.text text)
  | categorical labels => (labels.idxOf? text).map fun code => .category (UInt32.ofNat code)

def reads (kind : ColumnKind) (texts : List String) : Bool :=
  texts.all fun text => (kind.readCell? text).isSome

/-- The kinds that are looked for, the narrowest first. -/
def inferred : List ColumnKind := [integer, real, boolean, timestamp]

def present (texts : List String) : List String := texts.filter fun text => text ≠ ""

def infer (texts : List String) : ColumnKind :=
  if present texts = [] then .text
  else (inferred.find? fun kind => kind.reads (present texts)).getD .text

/-- The distinct texts of a column's cells in the order in which they first appear. -/
def labelsOf (texts : List String) : List String := (present texts).eraseDups

/-- The kind of a column, given the names that are asked for as categorical. -/
def ofTexts (categorical : List String) (name : String) (texts : List String) : ColumnKind :=
  if name ∈ categorical then .categorical (labelsOf texts) else infer texts

def cell (kind : ColumnKind) (text : String) : Cell :=
  if text = "" then .null else (kind.readCell? text).getD (.text text)

end ColumnKind

namespace Table

def columnTexts (records : List (List String)) (index : Nat) : List String :=
  records.map fun fields => fields.getD index ""

def ofRecords (categorical names : List String) (records : List (List String)) : Table :=
  let kinds := names.mapIdx fun index name =>
    ColumnKind.ofTexts categorical name (columnTexts records index)
  ⟨List.zipWith Column.mk names kinds, records.map (List.zipWith ColumnKind.cell kinds)⟩

/-- The table that bytes hold. Each categorical name has to be in the header. -/
def ofDelimited (categorical : List String) (bytes : List UInt8) : Except Failure Table :=
  match Delimited.read bytes with
  | .error fault => .error (.delimited fault)
  | .ok (names, records) =>
    match categorical.find? fun name => name ∉ names with
    | some name => .error (.unknownCategorical name)
    | none => .ok (ofRecords categorical names records)

end Table

end LinkedViews
