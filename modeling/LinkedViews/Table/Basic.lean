import LinkedViews.Table.Cell

/-!
Tables: named columns of a kind each, and rows of cells. Nothing forces a row to be as long as the
columns or a cell to fit its column's kind; a cell that is missing counts as null. Reading a table
from text produces rows that do fit.
-/

namespace LinkedViews

inductive ColumnKind where
  | integer
  | real
  | boolean
  | text
  | timestamp
  /-- The cells are codes, positions in the list of labels. -/
  | categorical (labels : List String)
deriving DecidableEq, Repr

def ColumnKind.name : ColumnKind → String
  | .integer => "integer"
  | .real => "real"
  | .boolean => "boolean"
  | .text => "text"
  | .timestamp => "timestamp"
  | .categorical _ => "categorical"

structure Column where
  name : String
  kind : ColumnKind
deriving DecidableEq, Repr

structure Table where
  columns : List Column
  rows : List (List Cell)
deriving DecidableEq, Repr

namespace Table

def rowCount (table : Table) : Nat := table.rows.length

def columnIndex? (table : Table) (name : String) : Option Nat :=
  table.columns.findIdx? fun column => column.name = name

def hasColumn (table : Table) (name : String) : Bool := (table.columnIndex? name).isSome

/-- The cell of a row under the first column of a name. -/
def cellOf (table : Table) (row : List Cell) (name : String) : Cell :=
  ((table.columnIndex? name).bind fun index => row[index]?).getD .null

def cell (table : Table) (row : Nat) (name : String) : Cell :=
  ((table.rows[row]?).map fun cells => table.cellOf cells name).getD .null

end Table

namespace Column

/-- The column that holds the labels themselves in place of their codes. -/
def labelled (column : Column) : Column :=
  match column.kind with
  | .categorical _ => { column with kind := .text }
  | _ => column

/-- A cell of this column with its label in place of the code; a code without a label is null. -/
def labelCell (column : Column) (cell : Cell) : Cell :=
  match cell, column.kind with
  | .category code, .categorical labels => (labels[code.toNat]?.map Cell.text).getD .null
  | cell, _ => cell

end Column

namespace Table

/-- The table with every categorical column turned into the text column of its labels. Codes mean
nothing outside the table, so this form is the one that is written and charted. Cells beyond the
last column are left out. -/
def labelled (table : Table) : Table where
  columns := table.columns.map Column.labelled
  rows := table.rows.map fun row => List.zipWith Column.labelCell table.columns row

end Table

end LinkedViews
