import LinkedViews.Delimited.Writer
import LinkedViews.Failure
import LinkedViews.Table.Basic

/-!
Tables as comma-separated text: a header of the column names, then one record for each row, with
labels in place of codes.
-/

namespace LinkedViews.Table

def columnNames (table : Table) : List String := table.columns.map Column.name

/-- What is written of a table. A row that is shorter than the header ends the writing. -/
def output (table : Table) : Delimited.Output :=
  Delimited.write table.columnNames (table.labelled.rows.map (List.map Cell.display))

/-- The text of a table. It fails where a row is shorter than the header. -/
def toDelimited (table : Table) : Except Failure String :=
  match table.output.result with
  | .ok text => .ok text
  | .error fault => .error (.delimited fault)

end LinkedViews.Table
