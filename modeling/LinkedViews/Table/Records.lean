import LinkedViews.Json.Script
import LinkedViews.Table.Basic

/-!
A table as JSON: a list with one object for each row, whose members are the row's cells under their
column names, in column order.
-/

namespace LinkedViews.Table

def record (columns : List Column) (row : List Cell) : Json :=
  .object (List.zipWith (fun column cell => (column.name, cell.toJson)) columns row)

/-- The records of a table, with labels in place of codes. -/
def records (table : Table) : Json :=
  let labelled := table.labelled
  .array (labelled.rows.map (record labelled.columns))

/-- The records as text that can stand in a script element. -/
def recordsText (table : Table) : String := table.records.scriptText

def standardVariable : String := "crossfilterData"

/-- A script that publishes the records as a variable of the page. -/
def publishingScript (table : Table) (name : String) : String :=
  "window." ++ name ++ " = " ++ table.recordsText ++ ";"

end LinkedViews.Table
