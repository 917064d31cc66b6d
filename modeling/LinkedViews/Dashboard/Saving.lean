import LinkedViews.Dashboard.Report
import LinkedViews.Files.Access

/-!
Writing dashboards to files.
-/

namespace LinkedViews

variable {m : Type → Type} [Monad m]

/-- Saves a table. Where this fails at a row, the file is left with what has been written. -/
def Table.save (table : Table) (access : FileAccess m) (path : String) :
    ExceptT Failure m Unit := do
  access.writeText path (String.ofList table.output.text)
  match table.output.fault? with
  | none => return ()
  | some fault => throw (.delimited fault)

namespace Dashboard

/-- Saves a dashboard as a page, a table and records. The records are written in the form of the
table as well. -/
def save (dashboard : Dashboard) (access : FileAccess m) (resources : Resources)
    (displayId base : String) : ExceptT Failure m SavedFiles := do
  let paths := SavedFiles.ofName base
  access.writeText paths.page (dashboard.page resources displayId)
  dashboard.table.save access paths.table
  dashboard.table.save access paths.records
  return paths

def saveReport (dashboard : Dashboard) (access : FileAccess m) (options : ReportOptions)
    (path : String) : ExceptT Failure m Unit :=
  access.writeText path (Report.text options dashboard)

end Dashboard

end LinkedViews
